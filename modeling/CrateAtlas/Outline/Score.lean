import CrateAtlas.Outline.Tree

/-!
The score of an outline: each construct adds its weight times its nesting depth plus ten, so
that a construct at the top level counts too.
-/

namespace CrateAtlas

inductive DepthMode where
  /-- Every construct has the depth of the root. -/
  | flat
  /-- The parts of a construct that opens a scope are one deeper than the construct. -/
  | nested
  deriving DecidableEq, Repr, Inhabited

namespace DepthMode

def name : DepthMode → String
  | flat => "flat"
  | nested => "nested"

def ofName? : String → Option DepthMode
  | "flat" => some flat
  | "nested" => some nested
  | _ => none

def below (mode : DepthMode) (kind : Kind) (depth : Nat) : Nat :=
  match mode with
  | flat => depth
  | nested => if kind.opensScope then depth + 1 else depth

end DepthMode

structure Score where
  complexity : Nat
  maxDepth : Nat
  deriving DecidableEq, Repr, Inhabited

namespace Outline

def weighted (weight depth : Nat) : Nat :=
  weight * (depth + 10)

mutual

def score (mode : DepthMode) (depth : Nat) : Outline → Score
  | node kind parts =>
    let inner := scoreAll mode (mode.below kind depth) parts
    ⟨weighted kind.weight depth + inner.complexity, max depth inner.maxDepth⟩
  | specifier _ => ⟨weighted Kind.specifier.weight depth, depth⟩

/-- The sum of the complexities of some outlines and the greatest of their depths, zero if there is none. -/
def scoreAll (mode : DepthMode) (depth : Nat) : List Outline → Score
  | [] => ⟨0, 0⟩
  | outline :: rest =>
    let first := outline.score mode depth
    let others := scoreAll mode depth rest
    ⟨first.complexity + others.complexity, max first.maxDepth others.maxDepth⟩

end

end Outline

end CrateAtlas
