import CrateAtlas.Source.Token
import CrateAtlas.Source.UseTree

/-!
The syntax of a source file. Items, statements, expressions, patterns, types and attributes nest in
one another without order, so one type holds them all. It keeps what the outline of a file depends
on: which forms occur and how they nest, but neither operators nor the values of literals.
-/

namespace CrateAtlas.Source

inductive FnPlace where
  | free | implBlock | traitBody
  deriving DecidableEq, Repr, Inhabited

inductive PathStyle where
  | bare | angled | called
  deriving DecidableEq, Repr, Inhabited

structure PathName where
  qualified : Bool
  global : Bool
  names : List String
  /-- Whether no segment but the last may have arguments, and how the last one is applied. -/
  style : PathStyle
  deriving DecidableEq, Repr, Inhabited

namespace PathName

def last? (path : PathName) : Option String :=
  path.names.getLast?

end PathName

/-- The forms that the outline of a file treats alike: its attributes come first, then its parts. -/
inductive Form where
  -- items
  | foreignBlock | structItem | enumItem | unionItem | traitItem | traitAlias | typeAlias
  | externCrate | constItem | staticItem | macroItem
  | associatedConst | associatedType | memberMacro | foreignFn | foreignStatic | foreignType
  | field | variant
  -- parameters
  | typedParam | variadic | lifetimeParam | typeParam | constParam | boundType | bareParam
  -- statements
  | letStmt | macroStmt
  -- expressions
  | array | assign | asyncBlock | awaitExpr | arithmetic | comparison | block | breakExpr | call
  | cast | closure | constBlock | continueExpr | fieldAccess | forLoop | index | infer | letCondition
  | literal | loop | macroExpr | matchExpr | arm | methodCall | paren | range | rawAddress
  | reference | repetition | returnExpr | structLiteral | fieldValue | tryExpr | tryBlock | tuple
  | unary | unsafeBlock | whileLoop | yieldExpr
  -- patterns
  | bindingPat | orPat | parenPat | referencePat | restPat | slicePat | structPat | fieldPat
  | tuplePat | tupleStructPat | typedPat | wildPat
  -- types
  | arrayType | bareFnType | implTraitType | inferType | macroType | neverType | parenType
  | pointerType | referenceType | sliceType | tupleType | genericArgument
  | lifetime | capture
  deriving DecidableEq, Repr, Inhabited

inductive Construct where
  /-- Syntax of which only the tokens are kept. -/
  | raw
  /-- `#[path]` or `#[path(tokens)]`. -/
  | plainAttribute (path : List String) (tokens : List Token)
  /-- `#[path = value]` -/
  | valueAttribute (path : List String) (value : Construct)
  | useItem (attrs : List Construct) (tree : UseTree)
  | modDecl (attrs : List Construct) (name : PathWord)
  | modItem (attrs : List Construct) (name : String) (items : List Construct)
  /-- A function with the parts of its signature and the statements of its body, if it has one. -/
  | fnItem (place : FnPlace) (isUnsafe : Bool) (attrs signature body : List Construct)
  | implItem (isUnsafe ofTrait : Bool) (attrs head items : List Construct)
  | ifExpr (attrs : List Construct) (condition : Construct) (branch : List Construct)
  | ifElse (attrs : List Construct) (condition : Construct) (branch : List Construct)
      (alternative : Construct)
  | receiver (attrs type : List Construct)
  | traitObject (bounds : List Construct)
  | traitBound (path : PathName) (parts : List Construct)
  | path (name : PathName) (attrs parts : List Construct)
  | node (form : Form) (attrs parts : List Construct)
  deriving Inhabited

namespace Construct

def attributes : Construct → List Construct
  | useItem attrs _ | modDecl attrs _ | modItem attrs _ _ | fnItem _ _ attrs _ _
  | implItem _ _ attrs _ _ | ifExpr attrs _ _ | ifElse attrs _ _ _ | receiver attrs _
  | path _ attrs _ | node _ attrs _ => attrs
  | raw | plainAttribute _ _ | valueAttribute _ _ | traitObject _ | traitBound _ _ => []

def addAttributes (more : List Construct) : Construct → Construct
  | useItem attrs tree => useItem (more ++ attrs) tree
  | modDecl attrs name => modDecl (more ++ attrs) name
  | modItem attrs name items => modItem (more ++ attrs) name items
  | fnItem place isUnsafe attrs signature body => fnItem place isUnsafe (more ++ attrs) signature body
  | implItem isUnsafe ofTrait attrs head items => implItem isUnsafe ofTrait (more ++ attrs) head items
  | ifExpr attrs condition branch => ifExpr (more ++ attrs) condition branch
  | ifElse attrs condition branch alternative => ifElse (more ++ attrs) condition branch alternative
  | receiver attrs type => receiver (more ++ attrs) type
  | path name attrs parts => path name (more ++ attrs) parts
  | node form attrs parts => node form (more ++ attrs) parts
  | other => other

/-- Puts attributes on the leftmost operand of an assignment, a binary operation or a cast, and on
any other expression itself. -/
def addLeftmost (more : List Construct) : Construct → Construct
  | node form attrs (left :: rest) =>
    match form with
    | .assign | .arithmetic | .comparison | .cast => node form attrs (left.addLeftmost more :: rest)
    | _ => node form (more ++ attrs) (left :: rest)
  | other => other.addAttributes more

/-- Whether an attribute is `#[cfg(test)]`, in any brackets. -/
def isTestMark : Construct → Bool
  | plainAttribute ["cfg"] [.ident name] => name.text == "test"
  | _ => false

def isTestOnly (item : Construct) : Bool :=
  item.attributes.any isTestMark

def isRange : Construct → Bool
  | node .range _ _ => true
  | _ => false

def isComparison : Construct → Bool
  | node .comparison _ _ => true
  | _ => false

def isTraitBound : Construct → Bool
  | traitBound _ _ => true
  | _ => false

def isRaw : Construct → Bool
  | raw => true
  | _ => false

/-- Whether an expression ends a statement or a match arm without a semicolon or comma. -/
def isBlockLike : Construct → Bool
  | ifExpr _ _ _ | ifElse _ _ _ _ => true
  | node form _ _ =>
    match form with
    | .matchExpr | .block | .unsafeBlock | .whileLoop | .loop | .forLoop | .tryBlock | .constBlock => true
    | _ => false
  | _ => false

end Construct

structure SourceFile where
  items : List Construct
  deriving Inhabited

end CrateAtlas.Source
