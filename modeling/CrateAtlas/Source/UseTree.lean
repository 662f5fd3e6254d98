import CrateAtlas.Source.Token

/-!
What stands between `use` and the semicolon, and the paths it imports.
-/

namespace CrateAtlas.Source

def Word.isUsable (word : Word) : Bool :=
  !isReserved word.text || ["self", "super", "crate", "try"].contains word.text

structure PathWord where
  word : Word
  usable : word.isUsable = true
  deriving DecidableEq, Repr

namespace PathWord

def text (name : PathWord) : String :=
  name.word.text

end PathWord

inductive UseTree where
  | path (name : PathWord) (tree : UseTree)
  | name (name : PathWord)
  /-- `name as other` -/
  | rename (name : PathWord)
  | glob
  | group (trees : List UseTree)
  deriving Repr, Inhabited

namespace UseTree

def join (above last : String) : String :=
  if above = "" then last else above ++ "::" ++ last

/-- The path of a leaf: `self` stands for the path it is found under. -/
def leafPath (above last : String) : String :=
  if last = "self" then above else join above last

mutual

/-- The paths that a tree below a path imports, in source order. A glob imports the path it is
found under. Empty paths are left out of groups. -/
def paths (above : String) : UseTree → List String
  | .path first tree => tree.paths (join above first.text)
  | .name last => [leafPath above last.text]
  | .rename last => [leafPath above last.text]
  | .glob => [above]
  | .group trees => (pathsAll above trees).filter (· != "")

def pathsAll (above : String) : List UseTree → List String
  | [] => []
  | tree :: rest => tree.paths above ++ pathsAll above rest

end

def specifiers (tree : UseTree) : List String :=
  (tree.paths "").filter (· != "")

end UseTree

end CrateAtlas.Source
