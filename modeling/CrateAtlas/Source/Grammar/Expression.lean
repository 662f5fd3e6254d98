import CrateAtlas.Source.Grammar.Pattern

/-!
The grammar of expressions: operands, what may follow an operand, and operators by precedence.
-/

namespace CrateAtlas.Source

/-- The binary operators. An operator comes after those that it is the beginning of. -/
def binaryOperators : List (String × Precedence) :=
  [("+=", .assign), ("-=", .assign), ("*=", .assign), ("/=", .assign), ("%=", .assign),
   ("^=", .assign), ("&=", .assign), ("|=", .assign), ("<<=", .assign), (">>=", .assign),
   ("&&", .both), ("||", .either), ("<<", .shift), (">>", .shift), ("==", .comparison),
   ("<=", .comparison), ("!=", .comparison), (">=", .comparison), ("+", .sum), ("-", .sum),
   ("*", .product), ("/", .product), ("%", .product), ("^", .bitXor), ("&", .bitAnd), ("|", .bitOr),
   ("<", .comparison), (">", .comparison)]

def binaryOperator? (tokens : List Token) : Option (Precedence × List Token) :=
  binaryOperators.findSome? fun (mark, precedence) =>
    (afterMark? mark.toList tokens).map fun rest => (precedence, rest)

/-- The precedence of what follows an operand; `jump` if that is no operator. -/
def precedenceAhead (tokens : List Token) : Precedence :=
  match binaryOperator? tokens with
  | some (precedence, _) => precedence
  | none =>
    if atMarkNot "=" ["=>"] tokens then .assign
    else if atMark ".." tokens then .range
    else if atWord "as" tokens then .cast
    else .jump

def atRangeEnd (structs : Bool) (tokens : List Token) : Bool :=
  tokens.isEmpty || atMarkNot "." [".."] tokens || (!structs && atGroup .brace tokens) ||
    atWord "as" tokens ||
    [",", ";", "?", "=>", "=", "+", "/", "%", "^", ">", "<=", "!=", "-=", "*=", "&=", "|=", "<<="].any
      fun mark => atMark mark tokens

def atExpr (tokens : List Token) : Bool :=
  (atName tokens && !atWord "as" tokens) ||
    atGroup .parenthesis tokens || atGroup .bracket tokens || atGroup .brace tokens ||
    atLiteral tokens || atBang tokens || atMarkNot "-" ["-=", "->"] tokens ||
    atMarkNot "*" ["*="] tokens || atMarkNot "|" ["|="] tokens || atMarkNot "&" ["&="] tokens ||
    atMark ".." tokens || atMarkNot "<" ["<=", "<<="] tokens || atMark "::" tokens ||
    atLifetime tokens || atMark "#" tokens

def atBinder (tokens : List Token) : Bool :=
  atWord "for" tokens && atMark "<" (tokens.drop 1) &&
    (atLifetime (tokens.drop 2) || atMark ">" (tokens.drop 2))

def atClosure (tokens : List Token) : Bool :=
  let next := tokens.tail
  atMark "|" tokens || atWord "move" tokens || atBinder tokens ||
    (atWord "const" tokens && !atGroup .brace next) || atWord "static" tokens ||
    (atWord "async" tokens && (atMark "|" next || atWord "move" next))

def atTrailer (tokens : List Token) : Bool :=
  atMarkNot "." [".."] tokens || atMark "?" tokens

namespace Rules

open Parse

variable (rules : Rules)

def rangeEnd (closed structs : Bool) (operand : Parse Construct) : Parse (List Construct) := do
  if !closed && atRangeEnd structs (← get) then return []
  return [← operand]

def rightOperand (structs : Bool) (precedence : Precedence) : Parse Construct := do
  let first ← rules (.unary structs)
  loop (fun operand => do
    let tokens ← get
    let next := precedenceAhead tokens
    if next.rank > precedence.rank || (next = .assign && precedence = .assign) then
      let longer ← rules (.operators operand structs next)
      if (← get).length = tokens.length then return none
      return some longer
    return none) first

def atAfterCast (tokens : List Token) : Bool :=
  atTrailer tokens || atGroup .bracket tokens || atGroup .parenthesis tokens

/-- Adds the next operator to a left operand, if it binds at least as tightly as `base`. -/
def operatorStep (structs : Bool) (base : Precedence) (left : Construct) :
    Parse (Option Construct) := do
  if left.isRange then return none
  let tokens ← get
  let fits := fun (precedence : Precedence) => decide (base.rank ≤ precedence.rank)
  match binaryOperator? tokens with
  | some (precedence, rest) =>
    if !fits precedence then return none
    set rest
    if precedence = .comparison && left.isComparison then failure
    let right ← rules.rightOperand structs precedence
    let form := if precedence = .comparison then Form.comparison else .arithmetic
    return some (.node form [] [left, right])
  | none =>
    if fits .assign && atMarkNot "=" ["=>"] tokens then
      mark "="
      let right ← rules.rightOperand structs .assign
      return some (.node .assign [] [left, right])
    else if fits .range && atMark ".." tokens then
      let closed ← rangeDots
      let bound ← rangeEnd closed structs (rules.rightOperand structs .range)
      return some (.node .range [] (left :: bound))
    else if fits .cast && atWord "as" tokens then
      word "as"
      let type ← rules (.type false)
      if atAfterCast (← get) then failure
      return some (.node .cast [] [left, type])
    else return none

def operators (left : Construct) (structs : Bool) (base : Precedence) : Parse Construct :=
  loop (rules.operatorStep structs base) left

def expr (structs : Bool) : Parse Construct := do
  let left ← rules (.unary structs)
  rules (.operators left structs .jump)

/-- The indices that a number with a point stands for behind a dot, and whether it ends in one. -/
def indices (text : String) : Option (Nat × Bool) := do
  let parts := text.splitOn "."
  let trailing := parts.getLast? == some ""
  let parts := if trailing then parts.dropLast else parts
  guard (parts.all fun part =>
    match lex part.toList with
    | some [.literal (.integer value false)] => value ≤ maxFieldIndex
    | _ => false)
  return (parts.length, trailing)

def memberAccess (object : Construct) : Parse Construct := do
  if ← word? "await" then return .node .awaitExpr [] [object]
  let named ← member
  let tokens ← get
  let turbofish ←
    if named && atMark "::" tokens then
      mark "::"
      pure (some (← rules.angleArguments))
    else pure none
  let called := turbofish.isSome || atGroup .parenthesis tokens
  if called && named then
    let args ← commas .parenthesis (rules (.expr true))
    return .node .methodCall [] (object :: turbofish.getD [] ++ args)
  return .node .fieldAccess [] [object]

def trailerStep (operand : Construct) : Parse (Option Construct) := do
  let tokens ← get
  if atGroup .parenthesis tokens then
    let args ← commas .parenthesis (rules (.expr true))
    return some (.node .call [] (operand :: args))
  else if atMarkNot "." [".."] tokens && !operand.isRange then
    mark "."
    match ← get with
    | .literal (.float text) :: rest =>
      set rest
      match indices text with
      | none => failure
      | some (count, trailing) =>
        let field := fun object => Construct.node .fieldAccess [] [object]
        let object := Nat.repeat field count operand
        if trailing then some <$> rules.memberAccess object else return some object
    | _ => some <$> rules.memberAccess operand
  else if atGroup .bracket tokens then
    let index ← inside .bracket (rules (.expr true))
    return some (.node .index [] [operand, index])
  else if atMark "?" tokens && !operand.isRange then
    mark "?"
    return some (.node .tryExpr [] [operand])
  else return none

def trailers (operand : Construct) : Parse Construct :=
  loop rules.trailerStep operand

def closureParam : Parse Construct := do
  let attrs ← rules.outerAttributes
  let pattern ← rules .pattern
  if ← mark? ":" then
    return .node .typedPat attrs [pattern, ← rules (.type true)]
  return pattern.addAttributes attrs

def closure (structs : Bool) : Parse Construct := do
  let binder ← rules.binder?
  let _ ← word? "const"
  let _ ← word? "static"
  let _ ← word? "async"
  let _ ← word? "move"
  mark "|"
  let params ← separated (atMark "|") rules.closureParam
  mark "|"
  let head := binder.getD [] ++ params
  if ← mark? "->" then
    let type ← rules (.type true)
    let stmts ← rules.plainBlock
    return .node .closure [] (head ++ [type, .node .block [] stmts])
  return .node .closure [] (head ++ [← rules (.expr structs)])

def fieldValue : Parse Construct := do
  let attrs ← rules.outerAttributes
  let named ← member
  if atMark ":" (← get) || !named then
    mark ":"
    return .node .fieldValue attrs [← rules (.expr true)]
  return .node .fieldValue attrs []

def structLiteral (path : PathRead) : Parse Construct := do
  let (fields, _) ← inside .brace do
    loop (fun ((fields, done) : List Construct × Bool) => do
      if done || (← get).isEmpty then return none
      if ← mark? ".." then
        if (← get).isEmpty then return some (fields, true)
        return some ((← rules (.expr true)) :: fields, true)
      let field ← rules.fieldValue
      if (← get).isEmpty then return some (field :: fields, true)
      mark ","
      return some (field :: fields, false)) ([], false)
  return .node .structLiteral [] (path.parts ++ fields.reverse)

def pathExpr (structs : Bool) : Parse Construct := do
  let path ← rules.qualifiedPath true
  let tokens ← get
  if path.qualifier.isEmpty && atBang tokens && path.isPlain then
    mark "!"
    let _ ← anyGroup
    return .node .macroExpr [] []
  if structs && atGroup .brace tokens then rules.structLiteral path
  else return path.construct

def moreElements (first : Construct) : Parse (List Construct) := do
  if (← get).isEmpty then return [first]
  mark ","
  return first :: (← separated List.isEmpty (rules (.expr true)))

def parenExpr : Parse Construct :=
  inside .parenthesis do
    if (← get).isEmpty then return .node .tuple [] []
    let first ← rules (.expr true)
    if (← get).isEmpty then return .node .paren [] [first]
    return .node .tuple [] (← rules.moreElements first)

def arrayExpr : Parse Construct :=
  inside .bracket do
    if (← get).isEmpty then return .node .array [] []
    let first ← rules (.expr true)
    if ← mark? ";" then
      return .node .repetition [] [first, ← rules (.expr true)]
    return .node .array [] (← rules.moreElements first)

def operand? : Parse (List Construct) := do
  if atExpr (← get) then return [← rules (.expr true)] else return []

def breakExpr (structs : Bool) : Parse Construct := do
  word "break"
  if atLifetime (← get) then
    lifetime
    if atMark ":" (← get) then failure
  let tokens ← get
  let value ← if structs || !atGroup .brace tokens then rules.operand? else pure []
  return .node .breakExpr [] value

def letCondition (structs : Bool) : Parse Construct := do
  word "let"
  let pattern ← rules.patterns
  mark "="
  let left ← rules (.unary structs)
  let value ← rules (.operators left structs .comparison)
  return .node .letCondition [] [pattern, value]

def ifClauses : Parse (List (Construct × List Construct) × Option Construct) := do
  let clause : Parse (Construct × List Construct) := do
    word "if"
    let condition ← rules (.expr false)
    return (condition, ← rules.plainBlock)
  let first ← clause
  let rest ← whileAt (fun tokens => atWord "else" tokens && atWord "if" tokens.tail) do
    word "else"
    clause
  if ← word? "else" then
    let stmts ← rules.plainBlock
    return (first :: rest, some (.node .block [] stmts))
  return (first :: rest, none)

def ifChain (last : Option Construct) : List (Construct × List Construct) → Option Construct
  | [] => last
  | (condition, branch) :: rest =>
    match ifChain last rest with
    | some alternative => some (.ifElse [] condition branch alternative)
    | none => some (.ifExpr [] condition branch)

def ifExpr : Parse Construct := do
  let (clauses, last) ← rules.ifClauses
  match ifChain last clauses with
  | some expr => return expr
  | none => failure

def arm : Parse Construct := do
  let attrs ← rules.outerAttributes
  let pattern ← rules.patterns
  let guard ← if ← word? "if" then List.singleton <$> rules (.expr true) else pure []
  mark "=>"
  let body ← rules .statementExpr
  if body.isBlockLike || (← get).isEmpty then discard (mark? ",") else mark ","
  return .node .arm attrs (pattern :: guard ++ [body])

def matchExpr : Parse Construct := do
  word "match"
  let value ← rules (.expr false)
  let (attrs, arms) ← inside .brace do
    let attrs ← rules.innerAttributes
    return (attrs, ← whileAt (fun tokens => !tokens.isEmpty) rules.arm)
  return .node .matchExpr attrs (value :: arms)

def forLoop : Parse Construct := do
  word "for"
  let pattern ← rules.patterns
  word "in"
  let value ← rules (.expr false)
  let (attrs, stmts) ← rules.block
  return .node .forLoop attrs (pattern :: value :: stmts)

def whileLoop : Parse Construct := do
  word "while"
  let condition ← rules (.expr false)
  let (attrs, stmts) ← rules.block
  return .node .whileLoop attrs (condition :: stmts)

def wordBlock (text : String) (form : Form) : Parse Construct := do
  word text
  let (attrs, stmts) ← rules.block
  return .node form attrs stmts

def tryBlock : Parse Construct := do
  word "try"
  return .node .tryBlock [] (← rules.plainBlock)

def asyncBlock : Parse Construct := do
  word "async"
  let _ ← word? "move"
  return .node .asyncBlock [] (← rules.plainBlock)

def labeled : Parse Construct := do
  lifetime
  mark ":"
  let tokens ← get
  if atWord "while" tokens then rules.whileLoop
  else if atWord "for" tokens then rules.forLoop
  else if atWord "loop" tokens then rules.wordBlock "loop" .loop
  else if atGroup .brace tokens then rules.blockExpr
  else failure

def builtinExpr : Parse Construct := do
  word "builtin"
  mark "#"
  let _ ← ident
  let _ ← content .parenthesis
  return .raw

def atom (structs : Bool) : Parse Construct := do
  let tokens ← get
  let next := tokens.tail
  match tokens with
  | .group .parenthesis _ :: _ => rules.parenExpr
  | .group .bracket _ :: _ => rules.arrayExpr
  | .group .brace _ :: _ => rules.blockExpr
  | .lifetime _ :: _ => rules.labeled
  | _ =>
  if atLiteral tokens then
    literal
    return .node .literal [] []
  else if atWord "async" tokens &&
      (atGroup .brace next || (atWord "move" next && atGroup .brace next.tail)) then
    rules.asyncBlock
  else if atWord "try" tokens && atGroup .brace next then rules.tryBlock
  else if atClosure tokens then rules.closure structs
  else if atWord "builtin" tokens && atMark "#" next then builtinExpr
  else if atIdent tokens || atMark "::" tokens || atMark "<" tokens ||
      atAnyWord ["self", "Self", "super", "crate"] tokens ||
      (atWord "try" tokens && (atMark "!" next || atMark "::" next)) then
    rules.pathExpr structs
  else if atWord "break" tokens then rules.breakExpr structs
  else if atWord "continue" tokens then
    word "continue"
    if atLifetime (← get) then lifetime
    return .node .continueExpr [] []
  else if atWord "return" tokens then
    word "return"
    return .node .returnExpr [] (← rules.operand?)
  else if atWord "become" tokens then
    word "become"
    let _ ← rules (.expr true)
    return .raw
  else if atWord "let" tokens then rules.letCondition structs
  else if atWord "if" tokens then rules.ifExpr
  else if atWord "while" tokens then rules.whileLoop
  else if atWord "for" tokens then rules.forLoop
  else if atWord "loop" tokens then rules.wordBlock "loop" .loop
  else if atWord "match" tokens then rules.matchExpr
  else if atWord "yield" tokens then
    word "yield"
    return .node .yieldExpr [] (← rules.operand?)
  else if atWord "unsafe" tokens then rules.wordBlock "unsafe" .unsafeBlock
  else if atWord "const" tokens then rules.constBlock
  else if atMark ".." tokens then
    let closed ← rangeDots
    return .node .range [] (← rangeEnd closed structs (rules.rightOperand structs .range))
  else if atWord "_" tokens then
    word "_"
    return .node .infer [] []
  else failure

def unary (structs : Bool) : Parse Construct := do
  let attrs ← rules.outerAttributes
  let tokens ← get
  if atMark "&" tokens then
    mark "&"
    let tokens ← get
    let raw := atWord "raw" tokens && atAnyWord ["mut", "const"] tokens.tail
    if raw then word "raw"
    let mutable ← word? "mut"
    if raw && !mutable then word "const"
    let form := if raw then Form.rawAddress else .reference
    return .node form attrs [← rules (.unary structs)]
  else if atMark "*" tokens || atMark "!" tokens || atMark "-" tokens then
    modify List.tail
    return .node .unary attrs [← rules (.unary structs)]
  else
    let operand ← rules.trailers (← rules.atom structs)
    if operand.isRange && !attrs.isEmpty then failure
    return operand.addAttributes attrs

def leadingBlock? : Parse (Option Construct) := do
  let tokens ← get
  let next := tokens.tail
  if atWord "if" tokens then some <$> rules.ifExpr
  else if atWord "while" tokens then some <$> rules.whileLoop
  else if atWord "for" tokens && !atBinder tokens then some <$> rules.forLoop
  else if atWord "loop" tokens then some <$> rules.wordBlock "loop" .loop
  else if atWord "match" tokens then some <$> rules.matchExpr
  else if atWord "try" tokens && atGroup .brace next then some <$> rules.tryBlock
  else if atWord "unsafe" tokens then some <$> rules.wordBlock "unsafe" .unsafeBlock
  else if atWord "const" tokens && atGroup .brace next then some <$> rules.constBlock
  else if atGroup .brace tokens then some <$> rules.blockExpr
  else if atLifetime tokens then some <$> rules.labeled
  else return none

def statementExpr : Parse Construct := do
  let attrs ← rules.outerAttributes
  match ← rules.leadingBlock? with
  | some expr =>
    if atTrailer (← get) then
      let operand ← rules.trailers expr
      rules (.operators (operand.addAttributes attrs) true .jump)
    else return expr.addAttributes attrs
  | none =>
    let operand ← rules (.unary true)
    rules (.operators (operand.addAttributes attrs) true .jump)

end Rules

end CrateAtlas.Source
