import CrateAtlas.Path
import CrateAtlas.Text.Basic

/-!
Display names: paths without what all of them share.
-/

namespace CrateAtlas.Path

def sharedStart : List Component → List Component → List Component
  | a :: as, b :: bs => if a = b then a :: sharedStart as bs else []
  | _, _ => []

def common : List Path → Path
  | [] => ""
  | first :: rest =>
    ofComponents (rest.foldl (fun shared path => sharedStart shared path.components) first.components)

/-- A path as seen from a base, with slashes for backslashes. If nothing is left, it is the name of
the file. -/
def displayName (path base : Path) : String :=
  let relative := (path.below? base).getD path
  if relative.bytes.isEmpty then (path.fileName?.getD path.bytes).display
  else Text.swapChar '\\' '/' relative.display

end CrateAtlas.Path
