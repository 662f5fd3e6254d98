import CrateAtlas.Decimal.Double
import CrateAtlas.Path

/-!
Coverage percentages by path.
-/

namespace CrateAtlas

/-- Coverage percentages by path. Paths with the same components share an entry. -/
structure CoverageMap where
  entries : List (Path × Double)
  deriving DecidableEq, Repr, Inhabited

namespace CoverageMap

def empty : CoverageMap :=
  ⟨[]⟩

def get? (coverage : CoverageMap) (path : Path) : Option Double :=
  (coverage.entries.find? fun entry => entry.1.same path).map (·.2)

/-- Sets the percentage of a path. The spelling that was stored first stays. -/
def insert (coverage : CoverageMap) (path : Path) (percent : Double) : CoverageMap :=
  if coverage.entries.any fun entry => entry.1.same path then
    ⟨coverage.entries.map fun entry => if entry.1.same path then (entry.1, percent) else entry⟩
  else ⟨coverage.entries ++ [(path, percent)]⟩

def ofList (entries : List (Path × Double)) : CoverageMap :=
  entries.foldl (fun coverage (path, percent) => coverage.insert path percent) empty

def sorted (coverage : CoverageMap) : List (Path × Double) :=
  coverage.entries.mergeSort fun a b => decide (a.1.bytes ≤ b.1.bytes)

end CoverageMap

end CrateAtlas
