import CrateAtlas.Source.Grammar.Statement

/-!
The grammar of items.
-/

namespace CrateAtlas.Source

def skipWord (word : String) (tokens : List Token) : List Token :=
  if atWord word tokens then tokens.tail else tokens

def atSignature (allowSafe : Bool) (tokens : List Token) : Bool :=
  let tokens := skipWord "async" (skipWord "const" tokens)
  let tokens :=
    if allowSafe && atWord "safe" tokens then tokens.tail else skipWord "unsafe" tokens
  let tokens :=
    match tokens with
    | .ident name :: .literal .string :: rest => if name.text = "extern" then rest else tokens
    | _ => skipWord "extern" tokens
  atWord "fn" tokens

def atMacroPath (tokens : List Token) : Bool :=
  atIdent tokens || atAnyWord ["self", "super", "crate"] tokens || atMark "::" tokens

def afterVisibility (tokens : List Token) : Option (Bool × List Token) :=
  visibility tokens

structure SignatureRead where
  isUnsafe : Bool
  isSafe : Bool
  parts : List Construct

structure TypeRead where
  generics : List Construct
  bounds : Option (List Construct)
  value : Option Construct

namespace Rules

open Parse

variable (rules : Rules)

def receiver : Parse Construct := do
  let byRef ← mark? "&"
  if byRef && atLifetime (← get) then lifetime
  let _ ← word? "mut"
  word "self"
  if byRef then return .receiver [] []
  if ← mark? ":" then return .receiver [] [← rules (.type true)]
  return .receiver [] []

def isReceiver : Construct → Bool
  | .receiver _ _ => true
  | _ => false

def isVariadic : Construct → Bool
  | .node .variadic _ _ => true
  | _ => false

def typedParam : Parse Construct := do
  let tokens ← get
  if atIdent tokens && atMark "<" tokens.tail then
    return .node .typedParam [] [← rules (.type true)]
  let pattern ← rules .pattern
  mark ":"
  if ← mark? "..." then return .node .variadic [] [pattern]
  return .node .typedParam [] [pattern, ← rules (.type true)]

def param : Parse Construct := do
  if ← mark? "..." then return .node .variadic [] []
  rules.receiver <|> rules.typedParam

/-- The parameters of a function. Only the first may be a receiver, only the last may stand for any
number of arguments. -/
def params : Parse (List Construct) := do
  let (params, _) ← loop (fun ((params, done) : List Construct × Bool) => do
    if done || (← get).isEmpty then return none
    let attrs ← rules.outerAttributes
    let param ← rules.param
    if isReceiver param && !params.isEmpty then failure
    let params := param.addAttributes attrs :: params
    if (← get).isEmpty then return some (params, true)
    mark ","
    return some (params, isVariadic param)) ([], false)
  return params.reverse

def signature (allowSafe : Bool) : Parse SignatureRead := do
  let _ ← word? "const"
  let _ ← word? "async"
  let isUnsafe ← word? "unsafe"
  let isSafe ← if allowSafe && !isUnsafe then word? "safe" else pure false
  let _ ← abi?
  word "fn"
  let _ ← ident
  let generics ← rules.generics
  let params ← inside .parenthesis rules.params
  let result ← rules.returnType true
  let conditions ← rules.whereClause
  return ⟨isUnsafe, isSafe, generics ++ conditions ++ params ++ result⟩

def fnRest (place : FnPlace) (sig : SignatureRead) : Parse Construct := do
  let (attrs, stmts) ← rules.block
  return .fnItem place sig.isUnsafe attrs sig.parts stmts

/-- A function; one without a body is raw syntax. -/
def fnItem (place : FnPlace) : Parse Construct := do
  let sig ← rules.signature false
  if ← mark? ";" then return .raw
  rules.fnRest place sig

def memberMacro : Parse Construct := do
  let _ ← plainPath
  mark "!"
  let delimiter ← anyGroup
  if delimiter ≠ .brace then mark ";"
  return .node .memberMacro [] []

def colonBounds (stop : List Token → Bool) : Parse (Option (List Construct)) := do
  if !(← mark? ":") then return none
  let (bounds, _) ← loop (fun ((bounds, done) : List Construct × Bool) => do
    if done || stop (← get) then return none
    let bound ← rules (.bound false true)
    if stop (← get) then return some (bound :: bounds, true)
    mark "+"
    return some (bound :: bounds, false)) ([], false)
  return some bounds.reverse

/-- A type behind its visibility. The conditions may stand before or behind the definition. -/
def typeMember (before after : Bool) : Parse TypeRead := do
  word "type"
  let _ ← ident
  let generics ← rules.generics
  let bounds ← rules.colonBounds fun tokens =>
    atWord "where" tokens || atMark "=" tokens || atMark ";" tokens
  let early := before && atWord "where" (← get)
  let conditions ← if early then rules.whereClause else pure []
  let value ← if ← mark? "=" then some <$> rules (.type true) else pure none
  let late ← if after && !early then rules.whereClause else pure []
  mark ";"
  return ⟨generics ++ conditions ++ late, bounds, value⟩

/-- A constant as read: its type, its value, and whether it takes no generic parameters. -/
def constMember : Parse (Construct × Option Construct × Bool) := do
  word "const"
  if !(← word? "_") then discard ident
  let generic := atMark "<" (← get)
  let _ ← rules.generics
  mark ":"
  let type ← rules (.type true)
  let value ← if ← mark? "=" then some <$> rules (.expr true) else pure none
  let conditional := atWord "where" (← get)
  let _ ← rules.whereClause
  mark ";"
  return (type, value, !generic && !conditional)

/-- A constant of an item or impl block; one without a value is raw syntax. -/
def constItem (form : Form) : Parse Construct := do
  match ← rules.constMember with
  | (type, some value, true) => return .node form [] [type, value]
  | _ => return .raw

def implMember : Parse Construct := do
  let attrs ← rules.outerAttributes
  let (isPublic, rest) ← (afterVisibility (← get) : Option _)
  let isDefault := atWord "default" rest && !atMark "!" rest.tail
  let ahead := if isDefault then rest.tail else rest
  let member ←
    if atSignature false ahead then
      set ahead
      rules.fnItem .implBlock
    else if atWord "const" ahead then
      set ahead
      rules.constItem .associatedConst
    else if atWord "type" ahead then
      set ahead
      let type ← rules.typeMember false true
      match type.value with
      | some value =>
        pure (if type.bounds.isNone then
          Construct.node .associatedType [] (type.generics ++ [value]) else .raw)
      | none => pure .raw
    else if !isPublic && !isDefault && atMacroPath ahead then memberMacro
    else failure
  return member.addAttributes attrs

def traitFn : Parse Construct := do
  let sig ← rules.signature false
  if ← mark? ";" then return .fnItem .traitBody sig.isUnsafe [] sig.parts []
  rules.fnRest .traitBody sig

def traitMember : Parse Construct := do
  let attrs ← rules.outerAttributes
  let isPublic ← visibility
  let isDefault ← word? "default"
  let tokens ← get
  let member ←
    if atSignature false tokens then rules.traitFn
    else if atWord "const" tokens then
      match ← rules.constMember with
      | (type, value, true) => pure (Construct.node .associatedConst [] (type :: value.toList))
      | _ => pure .raw
    else if atWord "type" tokens then
      let type ← rules.typeMember false true
      pure (Construct.node .associatedType []
        (type.generics ++ type.bounds.getD [] ++ type.value.toList))
    else if !isPublic && !isDefault && atMacroPath tokens then memberMacro
    else failure
  return if isPublic || isDefault then .raw else member.addAttributes attrs

def foreignFn : Parse Construct := do
  let sig ← rules.signature true
  if atGroup .brace (← get) then
    let _ ← rules.block
    return .raw
  mark ";"
  return if sig.isSafe then .raw else .node .foreignFn [] sig.parts

def foreignStatic : Parse Construct := do
  let isUnsafe ← word? "unsafe"
  let isSafe ← if isUnsafe then pure false else word? "safe"
  word "static"
  let _ ← word? "mut"
  let _ ← ident
  mark ":"
  let type ← rules (.type true)
  let valued ← mark? "="
  if valued then discard (rules (.expr true))
  mark ";"
  return if isUnsafe || isSafe || valued then .raw else .node .foreignStatic [] [type]

def foreignMember : Parse Construct := do
  let attrs ← rules.outerAttributes
  let (isPublic, ahead) ← (afterVisibility (← get) : Option _)
  let member ←
    if atSignature true ahead then
      set ahead
      rules.foreignFn
    else if atWord "static" ahead ||
        (atAnyWord ["unsafe", "safe"] ahead && atWord "static" ahead.tail) then
      set ahead
      rules.foreignStatic
    else if atWord "type" ahead then
      set ahead
      let type ← rules.typeMember true true
      pure (if type.bounds.isSome || type.value.isSome then Construct.raw
        else .node .foreignType [] type.generics)
    else if !isPublic && atMacroPath ahead then memberMacro
    else failure
  return member.addAttributes attrs

def body (member : Parse Construct) : Parse (List Construct × List Construct) :=
  inside .brace do
    let attrs ← rules.innerAttributes
    return (attrs, ← whileAt (fun tokens => !tokens.isEmpty) member)

def namedField : Parse Construct := do
  let attrs ← rules.outerAttributes
  let _ ← visibility
  let unnamed ← word? "_"
  if !unnamed then discard ident
  mark ":"
  let tokens ← get
  if unnamed && (atWord "struct" tokens || (atWord "union" tokens && atGroup .brace tokens.tail)) then
    let _ ← name
    let _ ← rules .fields
    return .node .field attrs []
  return .node .field attrs [← rules (.type true)]

def fields : Parse (List Construct) :=
  commas .brace rules.namedField

def tupleFields : Parse (List Construct) :=
  commas .parenthesis do
    let attrs ← rules.outerAttributes
    let _ ← visibility
    return .node .field attrs [← rules (.type true)]

def structItem : Parse Construct := do
  word "struct"
  let _ ← ident
  let generics ← rules.generics
  let early := atWord "where" (← get)
  let conditions ← rules.whereClause
  if !early && atGroup .parenthesis (← get) then
    let fields ← rules.tupleFields
    let conditions ← rules.whereClause
    mark ";"
    return .node .structItem [] (generics ++ conditions ++ fields)
  let fields ← if atGroup .brace (← get) then rules .fields else mark ";" *> pure []
  return .node .structItem [] (generics ++ conditions ++ fields)

def variant : Parse Construct := do
  let attrs ← rules.outerAttributes
  let _ ← visibility
  let _ ← ident
  let tokens ← get
  let fields ←
    if atGroup .brace tokens then rules .fields
    else if atGroup .parenthesis tokens then rules.tupleFields
    else pure []
  let value ← if ← mark? "=" then List.singleton <$> rules (.expr true) else pure []
  return .node .variant attrs (fields ++ value)

def enumItem : Parse Construct := do
  word "enum"
  let _ ← ident
  let generics ← rules.generics
  let conditions ← rules.whereClause
  let variants ← commas .brace rules.variant
  return .node .enumItem [] (generics ++ conditions ++ variants)

def unionItem : Parse Construct := do
  word "union"
  let _ ← ident
  let generics ← rules.generics
  let conditions ← rules.whereClause
  let fields ← rules .fields
  return .node .unionItem [] (generics ++ conditions ++ fields)

def traitRest (generics : List Construct) : Parse Construct := do
  let bounds ← rules.colonBounds fun tokens => atWord "where" tokens || atGroup .brace tokens
  let conditions ← rules.whereClause
  let (attrs, members) ← rules.body rules.traitMember
  return .node .traitItem attrs (generics ++ conditions ++ bounds.getD [] ++ members)

def traitItem : Parse Construct := do
  let isUnsafe ← word? "unsafe"
  let isAuto ← word? "auto"
  word "trait"
  let _ ← ident
  let generics ← rules.generics
  if isUnsafe || isAuto || !atMark "=" (← get) then return ← rules.traitRest generics
  mark "="
  let stop := fun tokens => atWord "where" tokens || atMark ";" tokens
  let (bounds, _) ← loop (fun ((bounds, done) : List Construct × Bool) => do
    if done || stop (← get) then return none
    let bound ← rules (.bound false true)
    if stop (← get) then return some (bound :: bounds, true)
    mark "+"
    return some (bound :: bounds, false)) ([], false)
  let conditions ← rules.whereClause
  mark ";"
  return .node .traitAlias [] (generics ++ conditions ++ bounds.reverse)

inductive ImplHead where
  | inherent (self : List Construct)
  | ofTrait (path self : Construct)
  | unclear

def implHead : Parse ImplHead := do
  let tokens ← get
  let negative := atMark "!" tokens && !atGroup .brace tokens.tail
  if negative then mark "!"
  let first ← rules (.type true)
  if ← word? "for" then
    let self ← rules (.type true)
    match first with
    | .path name _ _ => return if name.qualified then .unclear else .ofTrait first self
    | _ => return .unclear
  return .inherent (if negative then [] else [first])

/-- An impl block. One with a visibility or `const`, or for what is no trait, is raw syntax. -/
def implItem (isPublic : Bool) : Parse Construct := do
  let _ ← word? "default"
  let isUnsafe ← word? "unsafe"
  word "impl"
  let generics ← if atGenerics (← get) then rules.generics else pure []
  let tokens ← get
  let isConst := atWord "const" tokens || (atMark "?" tokens && atWord "const" tokens.tail)
  if isConst then
    let _ ← mark? "?"
    word "const"
  let head ← rules.implHead
  let conditions ← rules.whereClause
  let (attrs, members) ← rules.body rules.implMember
  if isPublic || isConst then return .raw
  match head with
  | .unclear => return .raw
  | .inherent self =>
    return .implItem isUnsafe false attrs (generics ++ conditions ++ self) members
  | .ofTrait path self =>
    return .implItem isUnsafe true attrs (generics ++ conditions ++ [path, self]) members

def staticItem : Parse Construct := do
  word "static"
  let _ ← word? "mut"
  let _ ← ident
  if ← mark? "=" then
    let _ ← rules (.expr true)
    mark ";"
    return .raw
  mark ":"
  let type ← rules (.type true)
  if ← mark? ";" then return .raw
  mark "="
  let value ← rules (.expr true)
  mark ";"
  return .node .staticItem [] [type, value]

def modItem : Parse Construct := do
  let _ ← word? "unsafe"
  word "mod"
  let tokens ← get
  if !(atIdent tokens || atWord "try" tokens) then failure
  let name ← pathWord
  if ← mark? ";" then return .modDecl [] name
  let (attrs, items) ← rules.body (rules .item)
  return .modItem attrs name.text items

def typeItem : Parse Construct := do
  let type ← rules.typeMember true false
  match type.bounds, type.value with
  | none, some value => return .node .typeAlias [] (type.generics ++ [value])
  | _, _ => return .raw

def externCrate : Parse Construct := do
  word "extern"
  word "crate"
  if !(← word? "self") then discard ident
  if ← word? "as" then
    if !(← word? "_") then discard ident
  mark ";"
  return .node .externCrate [] []

def foreignBlock : Parse Construct := do
  let _ ← word? "unsafe"
  if !(← abi?) then failure
  let (attrs, members) ← rules.body rules.foreignMember
  return .node .foreignBlock attrs members

def useItem : Parse Construct := do
  word "use"
  let global ← mark? "::"
  let tree ← rules (.useTree !global)
  mark ";"
  match tree with
  | some tree => return .useItem [] tree
  | none => return .raw

def macroDefinition : Parse Construct := do
  word "macro"
  let _ ← ident
  if atGroup .parenthesis (← get) then discard (content .parenthesis)
  let _ ← content .brace
  return .raw

def macroItem : Parse Construct := do
  let _ ← plainPath
  mark "!"
  let tokens ← get
  if atIdent tokens || atWord "try" tokens then discard name
  let delimiter ← anyGroup
  if delimiter ≠ .brace then mark ";"
  return .node .macroItem [] []

def externItem (isPublic : Bool) : Parse Construct := do
  let next := (← get).tail
  if atWord "crate" next then externCrate
  else if isPublic then failure
  else rules.foreignBlock

def unsafeItem (isPublic : Bool) : Parse Construct := do
  let next := (← get).tail
  if atWord "trait" next || (atWord "auto" next && atWord "trait" next.tail) then rules.traitItem
  else if atWord "impl" next then rules.implItem isPublic
  else if atWord "extern" next then
    if isPublic then failure else rules.foreignBlock
  else if atWord "mod" next then rules.modItem
  else failure

def item : Parse Construct := do
  let attrs ← rules.outerAttributes
  let isPublic ← visibility
  let tokens ← get
  let next := tokens.tail
  let item ←
    if atSignature false tokens then rules.fnItem .free
    else if atWord "extern" tokens then rules.externItem isPublic
    else if atWord "use" tokens then rules.useItem
    else if atWord "static" tokens then rules.staticItem
    else if atWord "const" tokens then rules.constItem .constItem
    else if atWord "unsafe" tokens then rules.unsafeItem isPublic
    else if atWord "mod" tokens then rules.modItem
    else if atWord "type" tokens then rules.typeItem
    else if atWord "struct" tokens then rules.structItem
    else if atWord "enum" tokens then rules.enumItem
    else if atWord "union" tokens && atIdent next then rules.unionItem
    else if atWord "trait" tokens || (atWord "auto" tokens && atWord "trait" next) then
      rules.traitItem
    else if atWord "impl" tokens || (atWord "default" tokens && !atMark "!" next) then
      rules.implItem isPublic
    else if atWord "macro" tokens then macroDefinition
    else if !isPublic && atMacroPath tokens then macroItem
    else failure
  return item.addAttributes attrs

/-- What an import statement imports. A path in a group may start with `::` where `roots` says so;
then the statement is raw syntax. -/
def useTree (roots : Bool) : Parse (Option UseTree) := do
  let tokens ← get
  if atIdent tokens || atAnyWord ["self", "super", "crate", "try"] tokens then
    let first ← pathWord
    if ← mark? "::" then
      match ← rules (.useTree false) with
      | some tree => return some (.path first tree)
      | none => failure
    if ← word? "as" then
      if !(← word? "_") then discard ident
      return some (.rename first)
    return some (.name first)
  else if atMark "*" tokens then
    mark "*"
    return some .glob
  else
    let trees ← commas .brace do
      let rooted ← if roots then mark? "::" else pure false
      let tree ← rules (.useTree (roots && !rooted))
      return if rooted then none else tree
    return (trees.mapM id).map .group

end Rules

end CrateAtlas.Source
