/-!
Sets of characters, as ranges of code points.
-/

namespace CrateAtlas

/-- Ranges of code points, in increasing order and with gaps between them. -/
structure CharSet where
  ranges : List (Nat × Nat)
  deriving DecidableEq, Repr, Inhabited

namespace CharSet

def maxCode : Nat := 0x10ffff

def contains (set : CharSet) (c : Char) : Bool :=
  set.ranges.any fun range => decide (range.1 ≤ c.toNat) && decide (c.toNat ≤ range.2)

/-- Joins a range with those that follow it and touch it, by increasing starts. -/
def joinFrom (low high : Nat) : List (Nat × Nat) → List (Nat × Nat)
  | [] => [(low, high)]
  | (first, last) :: rest =>
    if first ≤ high + 1 then joinFrom low (max high last) rest
    else (low, high) :: joinFrom first last rest

def ofRanges (ranges : List (Nat × Nat)) : CharSet :=
  match ranges.mergeSort fun a b => decide (a.1 ≤ b.1) with
  | [] => ⟨[]⟩
  | (low, high) :: rest => ⟨joinFrom low high rest⟩

def ofChars (ranges : List (Char × Char)) : CharSet :=
  ofRanges (ranges.map fun (first, last) => (first.toNat, last.toNat))

def gapsFrom (low : Nat) : List (Nat × Nat) → List (Nat × Nat)
  | [] => if low ≤ maxCode then [(low, maxCode)] else []
  | (first, last) :: rest =>
    if low < first then (low, first - 1) :: gapsFrom (last + 1) rest else gapsFrom (last + 1) rest

def complement (set : CharSet) : CharSet :=
  ⟨gapsFrom 0 set.ranges⟩

def shifted (low high : Nat) (move : Nat → Nat) (range : Nat × Nat) : List (Nat × Nat) :=
  let first := max low range.1
  let last := min high range.2
  if first ≤ last then [(move first, move last)] else []

def bothCases (set : CharSet) : CharSet :=
  ofRanges (set.ranges ++ set.ranges.flatMap (shifted 'a'.toNat 'z'.toNat (· - 32)) ++
    set.ranges.flatMap (shifted 'A'.toNat 'Z'.toNat (· + 32)))

def named? : String → Option CharSet
  | "alnum" => some (ofChars [('0', '9'), ('A', 'Z'), ('a', 'z')])
  | "alpha" => some (ofChars [('A', 'Z'), ('a', 'z')])
  | "ascii" => some (ofRanges [(0, 0x7f)])
  | "blank" => some (ofChars [('\t', '\t'), (' ', ' ')])
  | "cntrl" => some (ofRanges [(0, 0x1f), (0x7f, 0x7f)])
  | "digit" => some digits
  | "graph" => some (ofChars [('!', '~')])
  | "lower" => some (ofChars [('a', 'z')])
  | "print" => some (ofChars [(' ', '~')])
  | "punct" => some (ofRanges [(0x21, 0x2f), (0x3a, 0x40), (0x5b, 0x60), (0x7b, 0x7e)])
  | "space" => some spaces
  | "upper" => some (ofChars [('A', 'Z')])
  | "word" => some wordChars
  | "xdigit" => some (ofChars [('0', '9'), ('A', 'F'), ('a', 'f')])
  | _ => none
where
  digits := ofChars [('0', '9')]
  spaces := ofRanges [(0x09, 0x0d), (0x20, 0x20)]
  wordChars := ofChars [('0', '9'), ('A', 'Z'), ('_', '_'), ('a', 'z')]

end CharSet

end CrateAtlas
