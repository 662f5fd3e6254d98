import CrateAtlas.Decimal.Shortest

/-!
JSON values and their text form, indented by two blanks. A value may hold something that has no text form;
it is written up to there then.
-/

namespace CrateAtlas.Json

/-- A number: an integer of at most 64 bits, or a number with a point or an exponent. -/
inductive Number where
  | natural (value : Nat)
  | negative (value : Nat)
  | double (value : Double)
  deriving DecidableEq, Repr, Inhabited

inductive Value where
  | null
  | bool (value : Bool)
  | number (value : Number)
  | string (value : String)
  | array (items : List Value)
  | object (members : List (String × Value))
  /-- Something that has no text. -/
  | unwritable
  deriving Inhabited

namespace Number

/-- The text of a number. A double that is not finite is written as `null`. -/
def render : Number → String
  | natural value => toString value
  | negative value => "-" ++ toString value
  | double value => if value.isFinite then value.shortest else "null"

def toDouble : Number → Double
  | natural value => .ofNat value
  | negative value => (Double.ofNat value).neg
  | double value => value

end Number

def hexDigit (value : Nat) : Char :=
  if value < 10 then Char.ofNat (48 + value) else Char.ofNat (87 + value)

def escapeChar (c : Char) : List Char :=
  if c = '"' then ['\\', '"']
  else if c = '\\' then ['\\', '\\']
  else if c = '\n' then ['\\', 'n']
  else if c = '\r' then ['\\', 'r']
  else if c = '\t' then ['\\', 't']
  else if c.val = 8 then ['\\', 'b']
  else if c.val = 12 then ['\\', 'f']
  else if c.val < 32 then ['\\', 'u', '0', '0', hexDigit (c.toNat / 16), hexDigit (c.toNat % 16)]
  else [c]

def quote (text : String) : String :=
  "\"" ++ String.ofList (text.toList.flatMap escapeChar) ++ "\""

namespace Value

def newLine (level : Nat) : String :=
  "\n" ++ String.ofList (List.replicate (2 * level) ' ')

mutual

def renderAt (level : Nat) : Value → String
  | null => "null"
  | bool true => "true"
  | bool false => "false"
  | number value => value.render
  | string value => quote value
  | array [] => "[]"
  | array (item :: rest) =>
    "[" ++ newLine (level + 1) ++ item.renderAt (level + 1) ++ renderItems (level + 1) rest ++
      newLine level ++ "]"
  | object [] => "\x7b\x7d"
  | object ((key, value) :: rest) =>
    "\x7b" ++ newLine (level + 1) ++ quote key ++ ": " ++ value.renderAt (level + 1) ++
      renderMembers (level + 1) rest ++ newLine level ++ "\x7d"
  | unwritable => ""

def renderItems (level : Nat) : List Value → String
  | [] => ""
  | item :: rest => "," ++ newLine level ++ item.renderAt level ++ renderItems level rest

def renderMembers (level : Nat) : List (String × Value) → String
  | [] => ""
  | (key, value) :: rest =>
    "," ++ newLine level ++ quote key ++ ": " ++ value.renderAt level ++ renderMembers level rest

end

mutual

/-- What is written of a value before something in it that has no text; nothing if all of it has. -/
def cutAt (level : Nat) : Value → Option String
  | array (item :: rest) =>
    (item.cutAt (level + 1) <|> (cutItems (level + 1) rest).map (item.renderAt (level + 1) ++ ·)).map
      ("[" ++ newLine (level + 1) ++ ·)
  | object ((key, value) :: rest) =>
    (value.cutAt (level + 1) <|> (cutMembers (level + 1) rest).map (value.renderAt (level + 1) ++ ·)).map
      ("\x7b" ++ newLine (level + 1) ++ quote key ++ ": " ++ ·)
  | unwritable => some ""
  | _ => none

def cutItems (level : Nat) : List Value → Option String
  | [] => none
  | item :: rest =>
    (item.cutAt level <|> (cutItems level rest).map (item.renderAt level ++ ·)).map
      ("," ++ newLine level ++ ·)

def cutMembers (level : Nat) : List (String × Value) → Option String
  | [] => none
  | (key, value) :: rest =>
    (value.cutAt level <|> (cutMembers level rest).map (value.renderAt level ++ ·)).map
      ("," ++ newLine level ++ quote key ++ ": " ++ ·)

end

def render (value : Value) : String :=
  value.renderAt 0

/-- The text of a value, or how much of it is written. -/
def write (value : Value) : Except String String :=
  match value.cutAt 0 with
  | some part => .error part
  | none => .ok value.render

def list {α : Type} (f : α → Value) (items : List α) : Value :=
  array (items.map f)

def natural (value : Nat) : Value :=
  number (.natural value)

end Value

end CrateAtlas.Json
