import CrateAtlas.Regex.CharSet
import CrateAtlas.Text.Marks

/-!
Regular expressions and the texts they match. An expression leads from positions of a text to other
positions; it matches if it leads anywhere from anywhere.
-/

namespace CrateAtlas

inductive Look where
  | textStart
  | textEnd
  | lineStart
  | lineEnd
  /-- The start of a line that a carriage return may end, too. -/
  | lineStartCrlf
  /-- The end of a line that a carriage return may end, too. -/
  | lineEndCrlf
  | wordEdge
  | noWordEdge
  | wordStart
  | wordEnd
  /-- No word character stands before. -/
  | wordStartHalf
  /-- No word character stands behind. -/
  | wordEndHalf
  deriving DecidableEq, Repr, Inhabited

inductive Regex where
  | empty
  | char (c : Char)
  | set (chars : CharSet)
  | look (look : Look)
  | repetition (least : Nat) (most : Option Nat) (inner : Regex)
  | capture (inner : Regex)
  | sequence (parts : List Regex)
  | choice (parts : List Regex)
  deriving Repr, Inhabited

namespace Look

def isWord (c? : Option Char) : Bool :=
  c?.any fun c => c.isAlphanum || c == '_'

def holds (before after : Option Char) : Look → Bool
  | textStart => before.isNone
  | textEnd => after.isNone
  | lineStart => before.isNone || before == some '\n'
  | lineEnd => after.isNone || after == some '\n'
  | lineStartCrlf =>
    before.isNone || before == some '\n' || (before == some '\r' && after != some '\n')
  | lineEndCrlf =>
    after.isNone || after == some '\r' || (after == some '\n' && before != some '\r')
  | wordEdge => isWord before != isWord after
  | noWordEdge => isWord before == isWord after
  | wordStart => !isWord before && isWord after
  | wordEnd => isWord before && !isWord after
  | wordStartHalf => !isWord before
  | wordEndHalf => !isWord after

/-- The marked positions at which the condition holds, given the character before the first. -/
def filter (look : Look) (before : Option Char) : List Char → List Bool → List Bool
  | c :: text, mark :: marks => (mark && look.holds before (some c)) :: look.filter (some c) text marks
  | [], mark :: marks => (mark && look.holds before none) :: marks
  | _, [] => []

end Look

namespace Regex

mutual

def advance (text : List Char) : Regex → List Bool → List Bool
  | empty, marks => marks
  | char c, marks => Text.afterChar (· == c) text marks
  | set chars, marks => Text.afterChar chars.contains text marks
  | look condition, marks => condition.filter none text marks
  | repetition 0 none (char c), marks => Text.afterRun (· == c) false text marks
  | repetition 0 none (set chars), marks => Text.afterRun chars.contains false text marks
  | repetition least most inner, marks =>
    let rounds := ((most.map (· - least)).getD marks.length).min marks.length
    Text.afterAtMost (inner.advance text) rounds (Text.afterExactly (inner.advance text) least marks)
  | capture inner, marks => inner.advance text marks
  | sequence parts, marks => advanceThrough text parts marks
  | choice parts, marks => advanceAny text parts marks

def advanceThrough (text : List Char) : List Regex → List Bool → List Bool
  | [], marks => marks
  | part :: rest, marks => advanceThrough text rest (part.advance text marks)

def advanceAny (text : List Char) : List Regex → List Bool → List Bool
  | [], marks => marks.map fun _ => false
  | part :: rest, marks => Text.union (part.advance text marks) (advanceAny text rest marks)

end

def isMatch (regex : Regex) (text : List Char) : Bool :=
  (regex.advance text (List.replicate (text.length + 1) true)).any id

mutual

def height : Regex → Nat
  | empty | char _ | set _ | look _ => 0
  | repetition _ _ inner => inner.height + 1
  | capture inner => inner.height + 1
  | sequence parts => heights parts + 1
  | choice parts => heights parts + 1

def heights : List Regex → Nat
  | [] => 0
  | part :: rest => max part.height (heights rest)

end

mutual

/-- Whether an expression may match nothing between two characters. -/
def isNullable : Regex → Bool
  | empty | look _ => true
  | char _ | set _ => false
  | repetition least _ inner => least == 0 || inner.isNullable
  | capture inner => inner.isNullable
  | sequence parts => allNullable parts
  | choice parts => anyNullable parts

def allNullable : List Regex → Bool
  | [] => true
  | part :: rest => part.isNullable && allNullable rest

def anyNullable : List Regex → Bool
  | [] => false
  | part :: rest => part.isNullable || anyNullable rest

end

def stateCost : Nat := 32

def forkCost : Nat := stateCost + 8

mutual

/-- What the machine for an expression takes, in which repeated expressions are copied. -/
def cost : Regex → Nat
  | empty | char _ | look _ => stateCost
  | set chars => stateCost + 8 * chars.ranges.length
  | repetition least none inner =>
    if least = 0 then
      if inner.isNullable then inner.cost + 2 * forkCost + stateCost else inner.cost + forkCost
    else least * inner.cost + forkCost
  | repetition least (some most) inner =>
    if least = most then least * inner.cost
    else max stateCost (least * inner.cost) + stateCost + (most - least) * (inner.cost + forkCost)
  | capture inner => inner.cost + 2 * stateCost
  | sequence parts => costs parts
  | choice parts => costs parts + 2 * stateCost + 4 * parts.length

def costs : List Regex → Nat
  | [] => 0
  | part :: rest => part.cost + costs rest

end

def maxCost : Nat := 10 * Nat.pow 2 20

def maxHeight : Nat := 50

def ofParts : List Regex → Regex
  | [] => empty
  | [part] => part
  | parts => sequence parts

def ofChoices : List Regex → Regex
  | [] => set ⟨[]⟩
  | [part] => part
  | parts => choice parts

/-- An expression repeated, unless it is repeated exactly once or never. -/
def repeated (inner : Regex) (least : Nat) (most : Option Nat) : Regex :=
  if least = 0 ∧ most = some 0 then empty
  else if least = 1 ∧ most = some 1 then inner
  else repetition least most inner

end Regex

end CrateAtlas
