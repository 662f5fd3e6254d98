import CrateAtlas.Outline.Tree
import CrateAtlas.Source.Construct

/-!
The outline of a syntax tree. A form of a listed kind becomes a node, any other form leaves only
the outlines of its parts.
-/

namespace CrateAtlas.Source

def Form.kind? : Form → Option Kind
  | .foreignBlock => some .foreignBlock
  | .structItem => some .structItem
  | .enumItem => some .enumItem
  | .traitItem => some .traitItem
  | .constItem => some .constItem
  | .staticItem => some .staticItem
  | .macroItem | .macroExpr | .macroStmt => some .macroCall
  | .letStmt => some .letStmt
  | .forLoop => some .forLoop
  | .whileLoop => some .whileLoop
  | .loop => some .loop
  | .matchExpr => some .matchExpr
  | .arm => some .matchArm
  | .breakExpr => some .breakExpr
  | .continueExpr => some .continueExpr
  | .returnExpr => some .returnExpr
  | .tryExpr => some .tryExpr
  | .asyncBlock => some .asyncBlock
  | .awaitExpr => some .awaitExpr
  | .yieldExpr => some .yieldExpr
  | .unsafeBlock => some .unsafeMark
  | .cast => some .cast
  | .closure => some .closure
  | .block => some .block
  | _ => none

/-- Whether a function is marked in its outline as unsafe: a declaration in a trait is not. -/
def FnPlace.marksUnsafe : FnPlace → Bool
  | .free | .implBlock => true
  | .traitBody => false

namespace Construct

def markIf (condition : Bool) (kind : Kind) : List Outline :=
  if condition then [.leaf kind] else []

def isAnyBound : Construct → Bool
  | .traitBound name _ => name.last? == some "Any"
  | _ => false

mutual

/-- The outlines that a construct leaves: its own if it is of a listed kind, else those of its
parts. -/
def outline : Construct → List Outline
  | .raw => []
  | .plainAttribute _ _ => []
  | .valueAttribute _ value => value.outline
  | .useItem _ tree => [.node .useItem (tree.specifiers.map .specifier)]
  | .modDecl attrs name => [.node .modItem (.specifier ("self::" ++ name.text) :: outlineAll attrs)]
  | .modItem attrs _ items => [.node .modItem (outlineAll attrs ++ outlineAll items)]
  | .fnItem place isUnsafe attrs signature body =>
    [.node .function (markIf (isUnsafe && place.marksUnsafe) .unsafeMark ++ outlineAll attrs ++
      outlineAll signature ++ outlineAll body)]
  | .implItem isUnsafe ofTrait attrs head items =>
    [.node (if ofTrait then .traitImpl else .implBlock)
      (markIf isUnsafe .unsafeMark ++ outlineAll attrs ++ outlineAll head ++ outlineAll items)]
  | .ifExpr _ condition branch => [.node .ifExpr (condition.outline ++ outlineAll branch)]
  | .ifElse _ condition branch alternative =>
    [.node .ifExpr (condition.outline ++ outlineAll branch ++
      [.node .elseBranch alternative.outline])]
  | .receiver attrs type => .leaf .selfValue :: outlineAll attrs ++ outlineAll type
  | .traitObject bounds => markIf (bounds.any isAnyBound) .anyType ++ outlineAll bounds
  | .traitBound _ parts => outlineAll parts
  | .path _ attrs parts => outlineAll attrs ++ outlineAll parts
  | .node form attrs parts =>
    match form.kind? with
    | some kind => [.node kind (outlineAll attrs ++ outlineAll parts)]
    | none => outlineAll attrs ++ outlineAll parts

def outlineAll : List Construct → List Outline
  | [] => []
  | construct :: rest => construct.outline ++ outlineAll rest

end

end Construct

namespace SourceFile

def outline (file : SourceFile) (excludeTests : Bool) : Outline :=
  .node .file (Construct.outlineAll
    (file.items.filter fun item => !(excludeTests && item.isTestOnly)))

end SourceFile

end CrateAtlas.Source
