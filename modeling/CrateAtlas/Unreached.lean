import CrateAtlas.FileTree
import CrateAtlas.Record.Atlas

/-!
Source files that an analysis did not come to.
-/

namespace CrateAtlas.Unreached

def isSkipped (name : Bytes) : Bool :=
  name.display == "target" || name.display.startsWith "."

def isSource (way : List Bytes) : Bool :=
  !way.any isSkipped && way.getLast?.any fun name => Path.fileExtension? ⟨name⟩ == some ("rs" : Bytes)

/-- The canonical paths of everything below a directory that is named like a source file. -/
def sources (files : FileSystem) (dir : Path) : List Path :=
  match files.locate dir with
  | .ok place =>
    (place.tree.ways.filter isSource).map fun way => FileSystem.absolute (place.way ++ way)
  | .error _ => []

def list (files : FileSystem) (dir : Path) (atlas : Atlas) : List Path :=
  ((sources files dir).filter fun path => (atlas.indexOf? path).isNone).mergeSort fun a b =>
    (a.compare b).isLE

end CrateAtlas.Unreached
