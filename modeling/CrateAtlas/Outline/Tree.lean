import CrateAtlas.Outline.Kind

/-!
An outline is the tree of the constructs of one source file. Module specifiers are leaves that
carry text; every other node is a kind with the outlines of its parts.
-/

namespace CrateAtlas

inductive Outline where
  | node (kind : Kind) (parts : List Outline)
  | specifier (text : String)
  deriving Repr, Inhabited

namespace Outline

def leaf (kind : Kind) : Outline :=
  node kind []

def kind : Outline → Kind
  | node kind _ => kind
  | specifier _ => .specifier

def parts : Outline → List Outline
  | node _ parts => parts
  | specifier _ => []

def text? : Outline → Option String
  | node _ _ => none
  | specifier text => some text

mutual

def size : Outline → Nat
  | node _ parts => 1 + sizeAll parts
  | specifier _ => 1

def sizeAll : List Outline → Nat
  | [] => 0
  | outline :: rest => outline.size + sizeAll rest

end

/-- The specifiers of the import statements right below the root, in source order. -/
def topLevelSpecifiers (root : Outline) : List String :=
  (root.parts.filter fun stmt => stmt.kind.isImport).flatMap fun stmt =>
    stmt.parts.filterMap text?

end Outline

end CrateAtlas
