import CrateAtlas.Path
import CrateAtlas.Text.Basic

/-!
Commit counts of files.
-/

namespace CrateAtlas

structure CommitHistory where
  commits : Nat
  bugCommits : Nat
  deriving DecidableEq, Repr, Inhabited

inductive HistoryError where
  | notStarted (reason : String)
  | failed (path : Path) (output : String)
  | badPattern
  deriving DecidableEq, Repr

namespace HistoryError

def message : HistoryError → String
  | notStarted reason => "Failed to run git: " ++ reason
  | failed path output => "git log failed for " ++ path.display ++ ": " ++ output
  | badPattern => "Invalid bug pattern: " ++ elided

end HistoryError

end CrateAtlas
