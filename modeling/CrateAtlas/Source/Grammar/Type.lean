import CrateAtlas.Source.Grammar.Phrase

/-!
The grammar of paths, types, bounds and generics.
-/

namespace CrateAtlas.Source

structure Segment where
  name : String
  style : PathStyle
  args : List Construct

structure PathRead where
  qualifier : List Construct
  global : Bool
  segments : List Segment

namespace PathRead

def isPlain (path : PathRead) : Bool :=
  path.segments.all fun segment => segment.style = .bare

def style (path : PathRead) : PathStyle :=
  (path.segments.getLast?.map (·.style)).getD .bare

def lastArgs (path : PathRead) : List Construct :=
  (path.segments.getLast?.map (·.args)).getD []

def pathName (path : PathRead) : PathName where
  qualified := !path.qualifier.isEmpty
  global := path.global
  names := path.segments.map (·.name)
  style := path.style

def parts (path : PathRead) : List Construct :=
  path.qualifier ++ path.segments.flatMap (·.args)

def construct (path : PathRead) : Construct :=
  .path path.pathName [] path.parts

end PathRead

/-- Whether generics are ahead, rather than a path that starts with a type in angle brackets. -/
def atGenerics (tokens : List Token) : Bool :=
  let second := tokens.drop 1
  let third := tokens.drop 2
  atMark "<" tokens &&
    (atMark ">" second || atMark "#" second || atWord "const" second ||
      ((atLifetime second || atIdent second) &&
        (atMark ">" third || atMark "," third || atMarkNot ":" ["::"] third || atMark "=" third)))

def atBound (tokens : List Token) : Bool :=
  atName tokens || atMark "::" tokens || atMark "?" tokens || atLifetime tokens ||
    atGroup .parenthesis tokens

namespace Rules

open Parse

variable (rules : Rules)

def blockExpr : Parse Construct := do
  let outer ← rules.outerAttributes
  let (inner, stmts) ← rules.block
  return .node .block (outer ++ inner) stmts

def constArgument : Parse Construct := do
  let tokens ← get
  if atLiteral tokens then
    literal
    return .node .literal [] []
  if atIdent tokens then
    let name ← ident
    return .path ⟨false, false, [name], .bare⟩ [] []
  if atGroup .brace tokens then rules.blockExpr else failure

/-- Values with `+` between them, up to where a test holds or no `+` follows. -/
def plusUntil {α : Type} (stop : List Token → Bool) (p : Parse α) : Parse (List α) := do
  let (values, _) ← loop (fun ((values, done) : List α × Bool) => do
    if done || stop (← get) then return none
    let value ← p
    let more ← mark? "+"
    return some (value :: values, !more)) ([], false)
  return values.reverse

def genericArgument : Parse Construct := do
  let tokens ← get
  if atLifetime tokens && !atMark "+" tokens.tail then
    lifetime
    return .node .lifetime [] []
  if atLiteral tokens || atGroup .brace tokens then
    return .node .genericArgument [] [← rules.constArgument]
  let type ← rules (.type true)
  match type with
  | .path ⟨false, false, [_], style⟩ _ args =>
    if style = .called then return .node .genericArgument [] [type]
    if ← mark? "=" then
      let tokens ← get
      let value ←
        if atLiteral tokens || atGroup .brace tokens then rules.constArgument else rules (.type true)
      return .node .genericArgument [] (args ++ [value])
    if ← mark? ":" then
      let bounds ← plusUntil (fun tokens => atMark "," tokens || atMark ">" tokens)
        (rules (.bound false true))
      return .node .genericArgument [] (args ++ bounds)
    return .node .genericArgument [] [type]
  | _ => return .node .genericArgument [] [type]

def angleArguments : Parse (List Construct) := do
  mark "<"
  let args ← separated (atMark ">") rules.genericArgument
  mark ">"
  return args

def returnType (plus : Bool) : Parse (List Construct) := do
  if ← mark? "->" then return [← rules (.type plus)] else return []

def callArguments : Parse (List Construct) := do
  let _ ← mark? "::"
  let args ← commas .parenthesis (rules (.type true))
  return args ++ (← rules.returnType false)

def segment (inExpr : Bool) : Parse Segment := do
  let tokens ← get
  if atAnyWord ["super", "self", "crate", "try"] tokens then
    return ⟨← name, .bare, []⟩
  let text ← if atWord "Self" tokens then name else ident
  let tokens ← get
  if (!inExpr && atMarkNot "<" ["<=", "<<="] tokens) ||
      (atMark "::" tokens && atMark "<" (tokens.drop 2)) then
    let _ ← mark? "::"
    return ⟨text, .angled, ← rules.angleArguments⟩
  return ⟨text, .bare, []⟩

def plainSegments (inExpr : Bool) : Parse PathRead := do
  let global ← mark? "::"
  let first ← rules.segment inExpr
  let rest ← whileAt (fun tokens => atMark "::" tokens && !atGroup .parenthesis (tokens.drop 2)) do
    mark "::"
    rules.segment inExpr
  return ⟨[], global, first :: rest⟩

def qualifiedPath (inExpr : Bool) : Parse PathRead := do
  if !(← mark? "<") then return ← rules.plainSegments inExpr
  let type ← rules (.type true)
  let before ←
    if ← word? "as" then some <$> rules.plainSegments false else pure none
  mark ">"
  mark "::"
  let first ← rules.segment inExpr
  let rest ← whileAt (atMark "::") do
    mark "::"
    rules.segment inExpr
  match before with
  | some path => return ⟨[type], path.global, path.segments ++ first :: rest⟩
  | none => return ⟨[type], true, first :: rest⟩

def withCall (path : PathRead) : Parse PathRead := do
  let tokens ← get
  let ahead := atGroup .parenthesis tokens ||
    (atMark "::" tokens && atGroup .parenthesis (tokens.drop 2))
  match path.segments.getLast? with
  | none => failure
  | some last =>
    if last.args.isEmpty && ahead then
      let args ← rules.callArguments
      return { path with segments := path.segments.dropLast ++ [⟨last.name, .called, args⟩] }
    return path

def binder? : Parse (Option (List Construct)) := do
  if !(← word? "for") then return none
  mark "<"
  let params ← separated (atMark ">") (rules .genericParam)
  mark ">"
  return some params

def capture : Parse Construct := do
  word "use"
  mark "<"
  let _ ← separated (atMark ">") do
    let tokens ← get
    if atLifetime tokens then lifetime
    else if atIdent tokens || atWord "Self" tokens then discard name
    else failure
  mark ">"
  return .node .capture [] []

/-- A trait with its modifiers. With `const` it is kept as raw syntax, where that is allowed. -/
def traitBound (consts : Bool) : Parse Construct := do
  let outer ← rules.binder?
  let tokens ← get
  let isConst ←
    if atGroup .bracket tokens then
      inside .bracket (word "const")
      pure true
    else word? "const"
  if isConst && !consts then failure
  let maybe ← mark? "?"
  let binder ← if outer.isNone && maybe then rules.binder? else pure outer
  let path ← rules.withCall (← rules.plainSegments false)
  if binder.isSome && maybe then failure
  if isConst then return .raw
  return .traitBound path.pathName (binder.getD [] ++ path.parts)

def bound (captures consts : Bool) : Parse Construct := do
  let tokens ← get
  if atLifetime tokens then
    lifetime
    return .node .lifetime [] []
  if atWord "use" tokens then
    let captured ← capture
    if captures then return captured else failure
  if atGroup .parenthesis tokens then
    inside .parenthesis (rules.traitBound consts)
  else rules.traitBound consts

def bounds (plus captures consts : Bool) : Parse (List Construct) := do
  let (values, _) ← loop (fun ((values, done) : List Construct × Bool) => do
    if done then return none
    let value ← rules (.bound captures consts)
    let more ← if plus then mark? "+" else pure false
    let tokens ← get
    let ahead := atBound tokens || (consts && atGroup .bracket tokens)
    return some (value :: values, !(more && ahead))) ([], false)
  return values.reverse

def haveTrait (bounds : List Construct) : Bool :=
  bounds.any fun bound => bound.isTraitBound || bound.isRaw

def objectBounds (plus : Bool) : Parse (List Construct) := do
  let bounds ← rules.bounds plus false false
  if bounds.any Construct.isTraitBound then return bounds else failure

def moreBounds : Parse (List Construct) :=
  whileAt (atMark "+") do
    mark "+"
    rules (.bound false false)

/-- Whether a type that is read from all of some tokens may turn out to be the first of several
bounds. -/
def mayBeBound (tokens : List Token) : Bool :=
  !atWord "dyn" tokens &&
    match tokens.getLast? with
    | some (.punct c _) => c != '+'
    | _ => true

def asBound? : Construct → Option Construct
  | .path name _ parts => if name.qualified then none else some (.traitBound name parts)
  | .traitObject [bound] => some bound
  | _ => none

def parenType (plus : Bool) : Parse Construct := do
  let inner ← content .parenthesis
  if inner.isEmpty then return .node .tupleType [] []
  if atLifetime inner then
    return .node .parenType [] [.traitObject (← (rules.objectBounds true).all inner)]
  if atMark "?" inner then
    let first ← (rules.traitBound false).all inner
    return .traitObject (first :: (← rules.moreBounds))
  let (first, tuple, rest) ← Parse.all (do
    let first ← rules (.type true)
    if ← mark? "," then
      return (first, true, ← separated List.isEmpty (rules (.type true)))
    return (first, false, [])) inner
  if tuple then return .node .tupleType [] (first :: rest)
  if plus && atMark "+" (← get) && mayBeBound inner then
    if let some bound := asBound? first then
      return .traitObject (bound :: (← rules.moreBounds))
  return .node .parenType [] [first]

/-- A parameter of a function type. Where a receiver may stand, one marked `mut` is raw syntax. -/
def bareParam (first : Bool) : Parse Construct := do
  let attrs ← rules.outerAttributes
  let tokens ← get
  let marked := first && atWord "mut" tokens && atWord "self" tokens.tail
  if marked then word "mut"
  let tokens ← get
  let isSelf := first && atWord "self" tokens
  let named := (atIdent tokens || atWord "_" tokens || isSelf) && atMarkNot ":" ["::"] tokens.tail
  if named then
    let _ ← name
    mark ":"
  let tokens ← get
  if first && !(named && isSelf) && atWord "mut" tokens && atWord "self" tokens.tail then
    word "mut"
    word "self"
    return .node .bareParam attrs []
  if marked && !named then
    word "self"
    return .node .bareParam attrs []
  let type ← rules (.type true)
  return .node .bareParam attrs (if marked then [] else [type])

def atBareVariadic (tokens : List Token) : Bool :=
  atMark "..." tokens ||
    ((atIdent tokens || atWord "_" tokens) && atMark ":" tokens.tail && atMark "..." (tokens.drop 2))

def bareParams : Parse (List Construct) := do
  let (params, _) ← loop (fun ((params, done) : List Construct × Bool) => do
    if done || (← get).isEmpty then return none
    let attrs ← rules.outerAttributes
    if atBareVariadic (← get) then
      if !atMark "..." (← get) then
        let _ ← name
        mark ":"
      mark "..."
      let _ ← mark? ","
      return some (.node .variadic attrs [] :: params, true)
    let param ← rules.bareParam params.isEmpty
    let param := param.addAttributes attrs
    if (← get).isEmpty then return some (param :: params, true)
    mark ","
    return some (param :: params, false)) ([], false)
  return params.reverse

def abi? : Parse Bool := do
  if ← word? "extern" then
    string?
    return true
  return false

def bareFn (binder : List Construct) : Parse Construct := do
  let inner ← rules.binder?
  let _ ← word? "unsafe"
  let _ ← abi?
  word "fn"
  let params ← inside .parenthesis rules.bareParams
  let result ← rules.returnType false
  return .node .bareFnType [] (binder ++ inner.getD [] ++ params ++ result)

def pathType (plus : Bool) (binder : Option (List Construct)) : Parse Construct := do
  let path ← rules.withCall (← rules.qualifiedPath false)
  if !path.qualifier.isEmpty then return path.construct
  if atBang (← get) && path.isPlain then
    mark "!"
    let _ ← anyGroup
    return .node .macroType [] []
  if binder.isSome || (plus && atMark "+" (← get)) then
    let first := Construct.traitBound path.pathName (binder.getD [] ++ path.parts)
    if !plus then return .traitObject [first]
    if !(← mark? "+") then return .traitObject [first]
    let rest ← if atBound (← get) then rules.bounds true false false else pure []
    return .traitObject (first :: rest)
  return path.construct

def type (plus : Bool) : Parse Construct := do
  let binder ← rules.binder?
  let tokens ← get
  if binder.isSome &&
      !(atIdent tokens || atAnyWord ["fn", "unsafe", "extern", "super", "self", "Self", "crate"] tokens) then
    failure
  if atGroup .parenthesis tokens then
    rules.parenType plus
  else if atAnyWord ["fn", "unsafe", "extern"] tokens then
    rules.bareFn (binder.getD [])
  else if atIdent tokens || atAnyWord ["super", "self", "Self", "crate"] tokens ||
      atMark "::" tokens || atMark "<" tokens then
    rules.pathType plus binder
  else if atWord "dyn" tokens then
    word "dyn"
    let starred ← mark? "*"
    let bounds ← rules.objectBounds plus
    return if starred then .raw else .traitObject bounds
  else if atGroup .bracket tokens then
    inside .bracket do
      let element ← rules (.type true)
      if ← mark? ";" then
        return .node .arrayType [] [element, ← rules (.expr true)]
      return .node .sliceType [] [element]
  else if atMark "*" tokens then
    mark "*"
    if !(← word? "const") then word "mut"
    return .node .pointerType [] [← rules (.type false)]
  else if atMark "&" tokens then
    mark "&"
    if atLifetime (← get) then lifetime
    let _ ← word? "mut"
    return .node .referenceType [] [← rules (.type false)]
  else if atBang tokens then
    mark "!"
    return .node .neverType [] []
  else if atWord "impl" tokens then
    word "impl"
    let bounds ← rules.bounds plus true true
    if haveTrait bounds then return .node .implTraitType [] bounds else failure
  else if atWord "_" tokens then
    word "_"
    return .node .inferType [] []
  else if atLifetime tokens then
    return .traitObject (← rules.objectBounds true)
  else failure

def genericParam : Parse Construct := do
  let attrs ← rules.outerAttributes
  let tokens ← get
  if atLifetime tokens then
    lifetime
    if ← mark? ":" then
      let _ ← plusUntil (fun tokens => atMark "," tokens || atMark ">" tokens) lifetime
    return .node .lifetimeParam attrs []
  if atIdent tokens then
    let _ ← ident
    let bounds ←
      if ← mark? ":" then
        plusUntil (fun tokens => atMark "," tokens || atMark ">" tokens || atMark "=" tokens)
          (rules (.bound false true))
      else pure []
    let value ← if ← mark? "=" then List.singleton <$> rules (.type true) else pure []
    return .node .typeParam attrs (bounds ++ value)
  if atWord "const" tokens then
    word "const"
    let _ ← ident
    mark ":"
    let type ← rules (.type true)
    let value ← if ← mark? "=" then List.singleton <$> rules.constArgument else pure []
    return .node .constParam attrs (type :: value)
  failure

def generics : Parse (List Construct) := do
  if !(← mark? "<") then return []
  let params ← separated (atMark ">") do
    let attrs ← rules.outerAttributes
    if ← word? "_" then return .node .typeParam attrs []
    return (← rules .genericParam).addAttributes attrs
  mark ">"
  return params

def atWhereEnd (tokens : List Token) : Bool :=
  tokens.isEmpty || atGroup .brace tokens || atMark "," tokens || atMark ";" tokens ||
    atMarkNot ":" ["::"] tokens || atMark "=" tokens

def wherePredicate : Parse (List Construct) := do
  let tokens ← get
  if atLifetime tokens && atMark ":" tokens.tail then
    lifetime
    mark ":"
    let stop := fun tokens => atWhereEnd tokens || atMark ":" tokens
    let _ ← plusUntil stop lifetime
    return []
  let binder ← rules.binder?
  let type ← rules (.type true)
  mark ":"
  let bounds ← plusUntil atWhereEnd (rules (.bound false true))
  return binder.getD [] ++ type :: bounds

def whereClause : Parse (List Construct) := do
  if !(← word? "where") then return []
  if atGenerics (← get) then failure
  let (parts, _) ← loop (fun ((parts, done) : List Construct × Bool) => do
    if done || atWhereEnd (← get) then return none
    let predicate ← rules.wherePredicate
    let more ← mark? ","
    return some (parts ++ predicate, !more)) ([], false)
  return parts

end Rules

end CrateAtlas.Source
