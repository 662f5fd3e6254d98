import CrateAtlas.Decimal.Double

/-!
Decimal texts of a number: the one with the fewest digits that lie nearer to it than to any other
number, and the one with a single decimal place.
-/

namespace CrateAtlas.Double

/-- The numbers that round to a finite positive number lie between two bounds, which are counted in
units of `2 ^ -1076`. The bounds round to the number as well if its mantissa is even. -/
structure Neighbourhood where
  low : Nat
  value : Nat
  high : Nat
  closed : Bool

/-- Below a power of two, the next number is only half as far away. -/
def neighbourhood (x : Double) : Neighbourhood :=
  let m := x.mantissa
  let step := Nat.pow 2 x.exponent
  let narrow := m == unit && decide (0 < x.exponent)
  { low := (4 * m - (if narrow then 1 else 2)) * step
    value := 4 * m * step
    high := (4 * m + 2) * step
    closed := m % 2 == 0 }

def fineScale : Nat := Nat.pow 2 1076

structure Digits where
  digits : Nat
  exponent : Int
  deriving DecidableEq, Repr

def Neighbourhood.contains (around : Neighbourhood) (d : Digits) : Bool :=
  let up := Nat.pow 10 d.exponent.toNat * fineScale * d.digits
  let down := Nat.pow 10 (-d.exponent).toNat
  if around.closed then
    decide (around.low * down ≤ up) && decide (up ≤ around.high * down)
  else decide (around.low * down < up) && decide (up < around.high * down)

/-- The greatest `e` with `10 ^ e ≤ num / den`. -/
def log10Floor (num den : Nat) : Int :=
  if den ≤ num then (Nat.toDigits 10 (num / den)).length - 1
  else
    let places := (Nat.toDigits 10 (den / num)).length
    if den ≤ num * Nat.pow 10 (places - 1) then -(places - 1 : Int) else -(places : Int)

/-- The digits on the grid of `10 ^ exponent` next to a value, nearer one first. -/
def candidates (value : Nat) (exponent : Int) : List Digits :=
  let num := value * Nat.pow 10 (-exponent).toNat
  let den := fineScale * Nat.pow 10 exponent.toNat
  let below := num / den
  let twice := 2 * (num % den)
  let nearLow := decide (twice < den) || (twice == den && below % 2 == 0)
  if nearLow then [⟨below, exponent⟩, ⟨below + 1, exponent⟩]
  else [⟨below + 1, exponent⟩, ⟨below, exponent⟩]

def searchDigits (around : Neighbourhood) (top : Int) : Nat → Nat → Digits
  | 0, count => ⟨around.value, count⟩
  | fuel + 1, count =>
    match (candidates around.value (top + 1 - count)).find? around.contains with
    | some digits => digits
    | none => searchDigits around top fuel (count + 1)

/-- The shortest digits of a finite positive number: the first grid that has digits in its
neighbourhood; 17 digits are always enough. -/
def shortestDigits (x : Double) : Digits :=
  let around := x.neighbourhood
  searchDigits around (log10Floor around.value fineScale) 17 1

def Digits.trim (d : Digits) : Digits :=
  go 20 d
where
  go : Nat → Digits → Digits
    | 0, d => d
    | fuel + 1, d =>
      if d.digits % 10 = 0 ∧ d.digits ≠ 0 then go fuel ⟨d.digits / 10, d.exponent + 1⟩ else d

def zeros (count : Nat) : String :=
  String.ofList (List.replicate count '0')

/-- Writes digits. The point stands behind the first `point` digits: where that is between -4 and
16, the number is written out, and else with an exponent that has a sign. -/
def Digits.render (d : Digits) : String :=
  let text := toString d.digits
  let length := text.length
  let point : Int := length + d.exponent
  if 0 ≤ d.exponent ∧ point ≤ 16 then text ++ zeros d.exponent.toNat ++ ".0"
  else if 0 < point ∧ point ≤ 16 then
    String.ofList (text.toList.take point.toNat) ++ "." ++
      String.ofList (text.toList.drop point.toNat)
  else if -5 < point ∧ point ≤ 0 then "0." ++ zeros (-point).toNat ++ text
  else
    let mark := (if 0 < point then "e+" else "e") ++ toString (point - 1)
    match text.toList with
    | [] => ""
    | [first] => String.singleton first ++ mark
    | first :: rest => String.singleton first ++ "." ++ String.ofList rest ++ mark

/-- The shortest text of a finite number. It has a point or an exponent. -/
def shortest (x : Double) : String :=
  let sign := if x.isNegative then "-" else ""
  if x.isZero then sign ++ "0.0" else sign ++ x.shortestDigits.trim.render

/-- A number with one decimal place. The exact value is rounded, halves to the even neighbour. -/
def oneDecimal (x : Double) : String :=
  let sign := if x.isNegative then "-" else ""
  if x.isFinite then
    let tenths := roundDiv (10 * x.mantissa * Nat.pow 2 x.exponent) (Nat.pow 2 scale)
    sign ++ toString (tenths / 10) ++ "." ++ toString (tenths % 10)
  else if x.isInfinite then sign ++ "inf"
  else "NaN"

end CrateAtlas.Double
