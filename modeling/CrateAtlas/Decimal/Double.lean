/-!
Numbers with 53 binary digits, held as 64-bit words. Every operation is exact up to one final
rounding to the nearest number, halves to the even neighbour.
-/

namespace CrateAtlas

/-- A double-precision number as a word: a sign, eleven bits of exponent, and a fraction. -/
structure Double where
  bits : UInt64
  deriving DecidableEq, Repr, Inhabited

namespace Double

def unit : Nat := Nat.pow 2 52

def infinityWord : Nat := 2047 * unit

def magnitude (x : Double) : Nat :=
  x.bits.toNat % Nat.pow 2 63

def isNegative (x : Double) : Bool :=
  decide (Nat.pow 2 63 ≤ x.bits.toNat)

def isFinite (x : Double) : Bool :=
  decide (x.magnitude < infinityWord)

def isInfinite (x : Double) : Bool :=
  x.magnitude == infinityWord

def isZero (x : Double) : Bool :=
  x.magnitude == 0

def ofWord (negative : Bool) (word : Nat) : Double :=
  ⟨UInt64.ofNat (if negative then Nat.pow 2 63 + word else word)⟩

def zero : Double := ofWord false 0

def infinity (negative : Bool) : Double := ofWord negative infinityWord

def notNumber : Double := ofWord false (infinityWord + Nat.pow 2 51)

def neg (x : Double) : Double :=
  ofWord (!x.isNegative) x.magnitude

/-- The integer `m` of a finite number `m · 2 ^ (e - 1074)` without its sign. -/
def mantissa (x : Double) : Nat :=
  if x.magnitude < unit then x.magnitude else unit + x.magnitude % unit

/-- The exponent `e` of a finite number `m · 2 ^ (e - 1074)`. -/
def exponent (x : Double) : Nat :=
  x.magnitude / unit - 1

def scale : Nat := 1074

/-- The quotient of two naturals, rounded to the nearest one, halves to the even neighbour. -/
def roundDiv (num den : Nat) : Nat :=
  let quotient := num / den
  let twice := 2 * (num % den)
  if twice < den then quotient
  else if twice = den then quotient + quotient % 2
  else quotient + 1

/-- The exponent `e` with which `num / den` is written as `m · 2 ^ (e - 1074)`: the least one for
which `m` has at most 53 digits. -/
def exponentFor (num den : Nat) : Nat :=
  let scaled := num * Nat.pow 2 scale
  let guess := scaled.log2 - den.log2 - 53
  if scaled / (den * Nat.pow 2 guess) < 2 * unit then guess
  else if scaled / (den * Nat.pow 2 (guess + 1)) < 2 * unit then guess + 1
  else guess + 2

def ofRatio (negative : Bool) (num den : Nat) : Double :=
  let e := exponentFor num den
  let m := roundDiv (num * Nat.pow 2 scale) (den * Nat.pow 2 e)
  let word := if m < unit then m else (e + 1) * unit + (m - unit)
  if word < infinityWord then ofWord negative word else infinity negative

def ofNat (n : Nat) : Double :=
  ofRatio false n 1

def signedUnits (x : Double) : Int :=
  let units : Int := (x.mantissa * Nat.pow 2 x.exponent : Nat)
  if x.isNegative then -units else units

def add (x y : Double) : Double :=
  if x.isFinite && y.isFinite then
    let sum := x.signedUnits + y.signedUnits
    if sum = 0 then ofWord (x.isNegative && y.isNegative) 0
    else ofRatio (decide (sum < 0)) sum.natAbs (Nat.pow 2 scale)
  else if x.isInfinite && (y.isFinite || y = x) then x
  else if y.isInfinite && x.isFinite then y
  else notNumber

/-- The product with a positive finite number. -/
def mul (x y : Double) : Double :=
  if x.isFinite && y.isFinite then
    ofRatio (x.isNegative != y.isNegative)
      (x.mantissa * Nat.pow 2 x.exponent * (y.mantissa * Nat.pow 2 y.exponent)) (Nat.pow 2 (2 * scale))
  else if x.isInfinite && !y.isZero then infinity (x.isNegative != y.isNegative)
  else notNumber

/-- The quotient by a positive finite number. -/
def div (x y : Double) : Double :=
  if x.isFinite && y.isFinite && !y.isZero then
    ofRatio (x.isNegative != y.isNegative) (x.mantissa * Nat.pow 2 x.exponent)
      (y.mantissa * Nat.pow 2 y.exponent)
  else if x.isInfinite && y.isFinite then infinity (x.isNegative != y.isNegative)
  else notNumber

/-- The place of a number in the order of numbers; both zeros have the same place. -/
def place (x : Double) : Int :=
  if x.isNegative then -(x.magnitude : Int) else x.magnitude

def lt (x y : Double) : Bool :=
  decide (x.place < y.place)

end Double

end CrateAtlas
