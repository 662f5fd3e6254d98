import CrateAtlas.Source.Grammar.Expression

/-!
The grammar of statements.
-/

namespace CrateAtlas.Source

def atItemWord (tokens : List Token) : Bool :=
  let next := tokens.drop 1
  let third := tokens.drop 2
  let fnWords := ["unsafe", "extern", "fn"]
  atAnyWord ["pub", "extern", "use", "fn", "mod", "type", "struct", "enum", "trait", "impl", "macro"]
      tokens ||
    (atWord "crate" tokens && !atMark "::" next) ||
    (atWord "static" tokens && (atWord "mut" next || atIdent next)) ||
    (atWord "const" tokens &&
      !(atGroup .brace next || atWord "static" next ||
        (atWord "async" next && !atAnyWord fnWords third) || atWord "move" next || atMark "|" next)) ||
    (atWord "unsafe" tokens && !atGroup .brace next) ||
    (atWord "async" tokens && atAnyWord fnWords next) ||
    (atWord "union" tokens && atIdent next) ||
    (atWord "auto" tokens && atWord "trait" next) ||
    (atWord "default" tokens && atAnyWord ["unsafe", "impl"] next)

def lastTaken? (before after : List Token) : Option Token :=
  before[before.length - after.length - 1]?

def endsInBrace (before after : List Token) : Bool :=
  match lastTaken? before after with
  | some (.group .brace _) => true
  | _ => false

structure StatementRead where
  construct : Construct
  complete : Bool

namespace Rules

open Parse

variable (rules : Rules)

def letStatement (attrs : List Construct) : Parse Construct := do
  word "let"
  let pattern ← rules .pattern
  let bound ←
    if ← mark? ":" then
      let type ← rules (.type true)
      pure (Construct.node .typedPat [] [pattern, type])
    else pure pattern
  let init ←
    if ← mark? "=" then
      let before ← get
      let value ← rules (.expr true)
      let after ← get
      if !endsInBrace before after && atWord "else" after then
        word "else"
        pure [value, .node .block [] (← rules.plainBlock)]
      else pure [value]
    else pure []
  mark ";"
  return .node .letStmt attrs (bound :: init)

inductive LeadingMacro where
  | item
  | statement (rest : List Token)
  | other

def leadingMacro (tokens : List Token) : LeadingMacro :=
  match plainPath tokens with
  | none => .other
  | some (_, rest) =>
    let next := rest.drop 1
    let third := rest.drop 2
    if !atMark "!" rest then .other
    else if atIdent next || atWord "try" next then .item
    else if atGroup .brace next && !atTrailer third then .statement rest
    else .other

def exprStatement (attrs : List Construct) : Parse StatementRead := do
  let before ← get
  let value := (← rules .statementExpr).addLeftmost attrs
  let braced := endsInBrace before (← get)
  let ended ← mark? ";"
  match value with
  | .node .macroExpr attrs parts =>
    if ended || braced then return ⟨.node .macroStmt attrs parts, true⟩
    return ⟨value, false⟩
  | _ => return ⟨value, ended || value.isBlockLike⟩

def statement : Parse StatementRead := do
  let attrs ← rules.outerAttributes
  let tokens ← get
  match leadingMacro tokens with
  | .statement rest =>
    set rest
    mark "!"
    let _ ← anyGroup
    let _ ← mark? ";"
    return ⟨.node .macroStmt attrs [], true⟩
  | .item => return ⟨(← rules .item).addAttributes attrs, true⟩
  | .other =>
    if atWord "let" tokens then return ⟨← rules.letStatement attrs, true⟩
    else if atItemWord tokens then return ⟨(← rules .item).addAttributes attrs, true⟩
    else rules.exprStatement attrs

def statements : Parse (List Construct) := do
  let (values, _) ← loop (fun ((values, complete) : List Construct × Bool) => do
    if ← mark? ";" then
      if complete then return some (values, true) else failure
    if (← get).isEmpty then return none
    if !complete then failure
    let stmt ← rules.statement
    return some (stmt.construct :: values, stmt.complete)) ([], true)
  return values.reverse

end Rules

end CrateAtlas.Source
