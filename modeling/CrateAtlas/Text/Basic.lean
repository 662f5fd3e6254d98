/-!
Texts: their ends, the parts between double colons, blanks and lines.
-/

namespace CrateAtlas

/-- What stands in a message for details that are not kept. -/
def elided : String := "*"

namespace Text

def dropEnd? (text ending : String) : Option String :=
  if ending.toList.isSuffixOf text.toList then
    some (String.ofList (text.toList.take (text.length - ending.length)))
  else none

def swapChar (old new : Char) (text : String) : String :=
  text.map fun c => if c = old then new else c

def splitColons : List Char → List (List Char)
  | ':' :: ':' :: rest => [] :: splitColons rest
  | c :: rest =>
    match splitColons rest with
    | [] => [[c]]
    | part :: parts => (c :: part) :: parts
  | [] => [[]]

def isBlank (c : Char) : Bool :=
  let code := c.toNat
  decide (0x09 ≤ code ∧ code ≤ 0x0d) || code == 0x20 || code == 0x85 || code == 0xa0 ||
    code == 0x1680 || decide (0x2000 ≤ code ∧ code ≤ 0x200a) || code == 0x2028 ||
    code == 0x2029 || code == 0x202f || code == 0x205f || code == 0x3000

def trim (text : List Char) : List Char :=
  ((text.dropWhile isBlank).reverse.dropWhile isBlank).reverse

def consLine (c : Char) : List (List Char) → List (List Char)
  | [] => [[c]]
  | line :: lines => if c = '\n' then [] :: line :: lines else (c :: line) :: lines

/-- The pieces of a text between line feeds; one more than there are line feeds. -/
def splitLines (text : List Char) : List (List Char) :=
  text.foldr consLine [[]]

def chompReturn (line : List Char) : List Char :=
  if line.getLast? = some '\r' then line.dropLast else line

/-- The lines of a text. A line feed ends a line, a carriage return before it is no part of the
line, and what follows the last line feed is a line unless it is empty. -/
def lines (text : List Char) : List (List Char) :=
  let pieces := splitLines text
  let full := pieces.dropLast.map chompReturn
  match pieces.getLast? with
  | none | some [] => full
  | some last => full ++ [last]

def lineCount (text : String) : Nat :=
  (lines text.toList).length

end Text

end CrateAtlas
