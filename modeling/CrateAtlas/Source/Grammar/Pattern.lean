import CrateAtlas.Source.Grammar.Type
import CrateAtlas.Source.Lexer

/-!
The grammar of patterns.
-/

namespace CrateAtlas.Source

def atBar (tokens : List Token) : Bool :=
  atMarkNot "|" ["||", "|="] tokens

def maxFieldIndex : Nat := 4294967295

namespace Rules

open Parse

variable (rules : Rules)

def member : Parse Bool := do
  match ← get with
  | .literal (.integer value false) :: rest =>
    if value ≤ maxFieldIndex then
      set rest
      return false
    failure
  | _ =>
    let _ ← ident
    return true

def rangeDots : Parse Bool := do
  if ← mark? "..=" then return true
  if atMark "..." (← get) then failure
  mark ".."
  return false

/-- The dots of a range pattern, which may also be three. -/
def patternDots : Parse Bool := do
  if ← mark? "..=" then return true
  if ← mark? "..." then return true
  mark ".."
  return false

def patterns : Parse Construct := do
  let leading ← mark? "|"
  let first ← rules .pattern
  if !leading && !atBar (← get) then return first
  let rest ← whileAt atBar do
    mark "|"
    rules .pattern
  return .node .orPat [] (first :: rest)

def constBlock : Parse Construct := do
  let outer ← rules.outerAttributes
  word "const"
  let (inner, stmts) ← rules.block
  return .node .constBlock (outer ++ inner) stmts

def rangeBound : Parse (List Construct) := do
  let tokens ← get
  if tokens.isEmpty || atMark "|" tokens || atMark "=" tokens || atMarkNot ":" ["::"] tokens ||
      atMark "," tokens || atMark ";" tokens || atWord "if" tokens then
    return []
  if atLiteral tokens then
    literal
    return [.node .literal [] []]
  if atIdent tokens || atMark "::" tokens || atMark "<" tokens ||
      atAnyWord ["self", "Self", "super", "crate"] tokens then
    return [(← rules.qualifiedPath true).construct]
  if atWord "const" tokens then return [← rules.constBlock]
  failure

def rangePattern (start : List Construct) : Parse Construct := do
  let closed ← patternDots
  let bound ← rules.rangeBound
  if closed && bound.isEmpty then failure
  return .node .range [] (start ++ bound)

def fieldPattern : Parse Construct := do
  let boxed ← word? "box"
  let byRef ← word? "ref"
  let mutable ← word? "mut"
  if boxed || byRef || mutable then
    let _ ← ident
    return .node .fieldPat [] []
  let named ← member
  if atMark ":" (← get) || !named then
    mark ":"
    return .node .fieldPat [] [← rules.patterns]
  return .node .fieldPat [] []

def structPattern (path : PathRead) : Parse Construct := do
  let (fields, _) ← inside .brace do
    loop (fun ((fields, done) : List Construct × Bool) => do
      if done || (← get).isEmpty then return none
      let attrs ← rules.outerAttributes
      if ← mark? ".." then return some (.node .restPat attrs [] :: fields, true)
      let field := (← rules.fieldPattern).addAttributes attrs
      if (← get).isEmpty then return some (field :: fields, true)
      mark ","
      return some (field :: fields, false)) ([], false)
  return .node .structPat [] (path.parts ++ fields.reverse)

def pathPattern : Parse Construct := do
  let path ← rules.qualifiedPath true
  let tokens ← get
  if path.qualifier.isEmpty && atBang tokens && path.isPlain then
    mark "!"
    let _ ← anyGroup
    return .node .macroExpr [] []
  if atGroup .brace tokens then rules.structPattern path
  else if atGroup .parenthesis tokens then
    let elements ← commas .parenthesis rules.patterns
    return .node .tupleStructPat [] (path.parts ++ elements)
  else if atMark ".." tokens then rules.rangePattern [path.construct]
  else return path.construct

def isRestPattern : Construct → Bool
  | .node .restPat _ _ => true
  | _ => false

def parenPattern : Parse Construct := do
  let inner ← content .parenthesis
  let (elements, comma) ← Parse.all (do
    let elements ← separated List.isEmpty rules.patterns
    return (elements, (inner.getLast?.map fun token => atMark "," [token]).getD false)) inner
  match elements with
  | [pattern] =>
    if comma || isRestPattern pattern then return .node .tuplePat [] [pattern]
    return .node .parenPat [] [pattern]
  | _ => return .node .tuplePat [] elements

def isOpenRange : Construct → Bool
  | .node .range _ bounds => bounds.length < 2
  | _ => false

def slicePattern : Parse Construct := do
  let elements ← commas .bracket rules.patterns
  if elements.any isOpenRange then failure
  return .node .slicePat [] elements

def bindingPattern : Parse Construct := do
  let _ ← word? "ref"
  let _ ← word? "mut"
  if !(← word? "self") then discard ident
  let inner ← if ← mark? "@" then List.singleton <$> rules .pattern else pure []
  return .node .bindingPat [] inner

def pattern : Parse Construct := do
  let tokens ← get
  let next := tokens.tail
  if (atIdent tokens && (atMark "::" next || atMark "!" next || atGroup .brace next ||
        atGroup .parenthesis next || atMark ".." next)) ||
      (atWord "self" tokens && atMark "::" next) || atMark "::" tokens || atMark "<" tokens ||
      atAnyWord ["Self", "super", "crate"] tokens then
    rules.pathPattern
  else if atWord "_" tokens then
    word "_"
    return .node .wildPat [] []
  else if atWord "box" tokens then
    word "box"
    let _ ← rules .pattern
    return .raw
  else if atMark "-" tokens || atLiteral tokens || atWord "const" tokens then
    let start ← rules.rangeBound
    if atMark ".." (← get) then rules.rangePattern start
    else
      match start with
      | [bound] => return bound
      | _ => failure
  else if atAnyWord ["ref", "mut", "self"] tokens || atIdent tokens then
    rules.bindingPattern
  else if atMark "&" tokens then
    mark "&"
    let _ ← word? "mut"
    return .node .referencePat [] [← rules .pattern]
  else if atGroup .parenthesis tokens then rules.parenPattern
  else if atGroup .bracket tokens then rules.slicePattern
  else if atMarkNot ".." ["..."] tokens then
    let closed ← rangeDots
    let bound ← rules.rangeBound
    if !bound.isEmpty then return .node .range [] bound
    if closed then failure
    return .node .restPat [] []
  else failure

end Rules

end CrateAtlas.Source
