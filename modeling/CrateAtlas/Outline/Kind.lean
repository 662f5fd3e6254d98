/-!
The kinds of construct that an outline of a source file is made of, with what each of them
adds to a score.
-/

namespace CrateAtlas

/-- A kind of construct. The list is closed: syntax of no listed kind leaves no mark of its own. -/
inductive Kind where
  | file | useItem | modItem | specifier | foreignBlock
  | function | closure | structItem | enumItem | traitItem | implBlock | traitImpl
  | constItem | staticItem | letStmt
  | block | ifExpr | elseBranch | forLoop | whileLoop | loop | matchExpr | matchArm
  | breakExpr | continueExpr | returnExpr | tryExpr
  | asyncBlock | awaitExpr | yieldExpr
  | unsafeMark | cast | anyType | selfValue | macroCall
  deriving DecidableEq, Repr, Inhabited

namespace Kind

def all : List Kind :=
  [.file, .useItem, .modItem, .specifier, .foreignBlock,
   .function, .closure, .structItem, .enumItem, .traitItem, .implBlock, .traitImpl,
   .constItem, .staticItem, .letStmt,
   .block, .ifExpr, .elseBranch, .forLoop, .whileLoop, .loop, .matchExpr, .matchArm,
   .breakExpr, .continueExpr, .returnExpr, .tryExpr,
   .asyncBlock, .awaitExpr, .yieldExpr,
   .unsafeMark, .cast, .anyType, .selfValue, .macroCall]

def name : Kind → String
  | file => "File" | useItem => "Use" | modItem => "Mod" | specifier => "ModuleSpecifier"
  | foreignBlock => "ForeignMod" | function => "Fn" | closure => "Closure"
  | structItem => "Struct" | enumItem => "Enum" | traitItem => "Trait" | implBlock => "Impl"
  | traitImpl => "ImplTrait" | constItem => "Const" | staticItem => "Static" | letStmt => "Let"
  | block => "Block" | ifExpr => "If" | elseBranch => "Else" | forLoop => "For"
  | whileLoop => "While" | loop => "Loop" | matchExpr => "Match" | matchArm => "MatchArm"
  | breakExpr => "Break" | continueExpr => "Continue" | returnExpr => "Return"
  | tryExpr => "Try" | asyncBlock => "Async" | awaitExpr => "Await" | yieldExpr => "Yield"
  | unsafeMark => "Unsafe" | cast => "Cast" | anyType => "AnyType" | selfValue => "SelfValue"
  | macroCall => "Macro"

def ofName? (name : String) : Option Kind :=
  all.find? fun kind => kind.name == name

/-- What one construct of a kind adds to a score, before nesting is taken into account. -/
def weight : Kind → Nat
  | unsafeMark => 20
  | cast | anyType => 10
  | traitImpl => 7
  | forLoop | whileLoop | loop => 5
  | matchExpr => 4
  | ifExpr | tryExpr => 3
  | elseBranch | function | closure | structItem | enumItem | traitItem | implBlock
  | staticItem | letStmt | useItem | modItem | yieldExpr => 2
  | constItem | matchArm | continueExpr | selfValue => 1
  | file | specifier | foreignBlock | block | breakExpr | returnExpr | asyncBlock
  | awaitExpr | macroCall => 0

/-- Whether the parts of such a construct sit one nesting level deeper. -/
def opensScope : Kind → Bool
  | function | closure | traitItem | implBlock | traitImpl | modItem | block | ifExpr
  | elseBranch | forLoop | whileLoop | loop | matchExpr | asyncBlock | unsafeMark => true
  | _ => false

def isImport : Kind → Bool
  | useItem | modItem => true
  | _ => false

theorem mem_all (kind : Kind) : kind ∈ all := by
  cases kind <;> decide

end Kind

end CrateAtlas
