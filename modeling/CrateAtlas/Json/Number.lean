import CrateAtlas.Json.Value

/-!
The values of JSON numbers. Digits are gathered into an integer of 64 bits as long as they fit, and
the power of ten that remains is applied to it, with one rounding for each step.
-/

namespace CrateAtlas.Json

structure NumberText where
  negative : Bool
  whole : List Nat
  fraction : Option (List Nat)
  power : Option (Bool × List Nat)
  deriving DecidableEq, Repr, Inhabited

def maxNatural : Nat := Nat.pow 2 64 - 1

def maxPower : Nat := Nat.pow 2 31 - 1

/-- Gathers digits as long as they fit; gives the digits that are left, too. -/
def gather (limit : Nat) : Nat → List Nat → Nat × List Nat
  | value, [] => (value, [])
  | value, digit :: rest =>
    if value * 10 + digit ≤ limit then gather limit (value * 10 + digit) rest
    else (value, digit :: rest)

def maxStep : Nat := 308

def divideByPower : Nat → Double → Nat → Double
  | 0, x, _ => x
  | fuel + 1, x, power =>
    if power ≤ maxStep then x.div (.ofNat (Nat.pow 10 power))
    else if x.isZero then x
    else divideByPower fuel (x.div (.ofNat (Nat.pow 10 maxStep))) (power - maxStep)

/-- The number `value · 10 ^ power`; nothing if it is too large. -/
def scaled? (value : Nat) (power : Int) : Option Double :=
  let x := Double.ofNat value
  if power < 0 then some (divideByPower 8 x power.natAbs)
  else if power.natAbs ≤ maxStep then
    let y := x.mul (.ofNat (Nat.pow 10 power.natAbs))
    if y.isFinite then some y else none
  else if x.isZero then some x
  else none

namespace NumberText

/-- The exponent as written; nothing if it is beyond what is told apart. -/
def exponent? (digits : List Nat) : Option Nat :=
  match gather maxPower 0 digits with
  | (value, []) => some value
  | _ => none

def magnitude? (value : Nat) (power : Int) : Option (Bool × List Nat) → Option Double
  | none => scaled? value power
  | some (below, digits) =>
    match exponent? digits with
    | some size => scaled? value (if below then power - size else power + size)
    | none => if value ≠ 0 ∧ ¬below then none else some .zero

/-- The value of a number; nothing if it is beyond the range of doubles. -/
def value? (text : NumberText) : Option Number :=
  let (value, skipped) := gather maxNatural 0 text.whole
  let signed := fun (x : Double) => Number.double (if text.negative then x.neg else x)
  match text.fraction, text.power with
  | none, none =>
    if !skipped.isEmpty then (scaled? value skipped.length).map signed
    else if !text.negative then some (.natural value)
    else if value = 0 ∨ Nat.pow 2 63 < value then some (signed (.ofNat value))
    else some (.negative value)
  | fraction, power =>
    let digits := fraction.getD []
    let (value, ignored) := gather maxNatural value digits
    let used : Int := digits.length - ignored.length
    (magnitude? value (skipped.length - used) power).map signed

end NumberText

end CrateAtlas.Json
