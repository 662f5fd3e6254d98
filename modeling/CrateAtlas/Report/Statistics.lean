import CrateAtlas.Record.Atlas

/-!
Statistics of the coverage of files.
-/

namespace CrateAtlas

structure CoverageStatistics where
  average : Double
  max : Double
  min : Double
  uncovered : Nat
  withData : Nat
  withoutData : Nat
  deriving DecidableEq, Repr

namespace CoverageStatistics

def sum (values : List Double) : Double :=
  values.foldl .add Double.zero.neg

/-- The greater of two numbers; the first if they are equal. -/
def greater (a b : Double) : Double :=
  if a.lt b then b else a

/-- The lesser of two numbers; the first if they are equal. -/
def lesser (a b : Double) : Double :=
  if b.lt a then b else a

def largest : Double :=
  .ofWord false (Double.infinityWord - 1)

def ofAtlas? (atlas : Atlas) : Option CoverageStatistics :=
  let values := atlas.files.filterMap (·.coverage)
  if values.isEmpty then none
  else some {
    average := (sum values).div (.ofNat values.length)
    max := values.foldl greater largest.neg
    min := values.foldl lesser largest
    uncovered := values.countP Double.isZero
    withData := values.length
    withoutData := atlas.files.length - values.length }

end CoverageStatistics

end CrateAtlas
