/-!
Names of files and arguments of programs. They are sequences of bytes: a text has the bytes of its UTF-8
form, but a sequence of bytes need not be that of a text. Bytes that stand for no character are shown as
one replacement character for each run of bytes that could still have become a character.
-/

namespace CrateAtlas

abbrev Bytes := List UInt8

namespace Bytes

def ofText (text : String) : Bytes :=
  text.toByteArray.data.toList

instance : Coe String Bytes := ⟨ofText⟩

def isContinuation (byte : UInt8) : Bool :=
  decide (0x80 ≤ byte) && decide (byte ≤ 0xBF)

def canFollow (first second : UInt8) : Bool :=
  if first = 0xE0 then decide (0xA0 ≤ second) && decide (second ≤ 0xBF)
  else if first = 0xED then decide (0x80 ≤ second) && decide (second ≤ 0x9F)
  else if first = 0xF0 then decide (0x90 ≤ second) && decide (second ≤ 0xBF)
  else if first = 0xF4 then decide (0x80 ≤ second) && decide (second ≤ 0x8F)
  else decide (0xE1 ≤ first) && decide (first ≤ 0xF3) && isContinuation second

/-- How many of the first bytes are given up together, if they do not start with a character. -/
def brokenLength : Bytes → Nat
  | first :: second :: third :: _ =>
    if canFollow first second then
      if decide (0xF0 ≤ first) && isContinuation third then 3 else 2
    else 1
  | [first, second] => if canFollow first second then 2 else 1
  | _ => 1

/-- The characters of bytes, with nothing for bytes that are given up. So many bytes are passed over
first. -/
def charsFrom : Nat → Bytes → List (Option Char)
  | _, [] => []
  | skipped + 1, _ :: rest => charsFrom skipped rest
  | 0, byte :: rest =>
    match (byte :: rest).toByteArray.utf8DecodeChar? 0 with
    | some c => some c :: charsFrom (c.utf8Size - 1) rest
    | none => none :: charsFrom (brokenLength (byte :: rest) - 1) rest

def chars (bytes : Bytes) : List (Option Char) :=
  charsFrom 0 bytes

def display (bytes : Bytes) : String :=
  String.ofList (bytes.chars.map (·.getD '�'))

def text? (bytes : Bytes) : Option String :=
  (bytes.chars.mapM id).map String.ofList

end Bytes

end CrateAtlas
