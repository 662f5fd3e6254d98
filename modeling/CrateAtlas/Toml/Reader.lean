import CrateAtlas.Json.Reader
import CrateAtlas.Toml.Value

/-!
The text of TOML documents.
-/

namespace CrateAtlas.Toml

/-- A reader of characters. It gives nothing if they do not fit. -/
abbrev Reader := StateT (List Char) Option

def maxDepth : Nat := 79

def isBlank (c : Char) : Bool :=
  c == ' ' || c == '\t'

def isPlain (c : Char) : Bool :=
  c == '\t' || (' ' ≤ c && c != '\x7f')

def isBareKey (c : Char) : Bool :=
  c.isAlphanum || c == '-' || c == '_'

def isHex (c : Char) : Bool :=
  (Json.hexDigit? c).isSome

def joinLineEnds : List Char → List Char
  | '\r' :: '\n' :: rest => '\n' :: joinLineEnds rest
  | c :: rest => c :: joinLineEnds rest
  | [] => []

def afterTrivia : (inComment : Bool) → List Char → List Char
  | _, [] => []
  | true, c :: rest =>
    if c = '\n' then afterTrivia false rest
    else if isPlain c then afterTrivia true rest
    else c :: rest
  | false, c :: rest =>
    if c = '\n' || isBlank c then afterTrivia false rest
    else if c = '#' then afterTrivia true rest
    else c :: rest

def digitsTail (isDigit : Char → Bool) : List Char → List Char × List Char
  | '_' :: c :: rest =>
    if isDigit c then
      let (digits, after) := digitsTail isDigit rest
      (c :: digits, after)
    else ([], '_' :: c :: rest)
  | c :: rest =>
    if isDigit c then
      let (digits, after) := digitsTail isDigit rest
      (c :: digits, after)
    else ([], c :: rest)
  | [] => ([], [])

def natural (base : Nat) (digits : List Char) : Nat :=
  digits.foldl (fun value c => value * base + (Json.hexDigit? c).getD 0) 0

namespace Reader

variable {α : Type}

def blanks : Reader Unit :=
  modify (List.dropWhile isBlank)

def mark (c : Char) : Reader Unit := do
  match ← get with
  | d :: rest => if c = d then set rest else failure
  | [] => failure

def mark? (c : Char) : Reader Bool := do
  match ← get with
  | d :: rest => if c = d then set rest; return true else return false
  | [] => return false

def word (text : String) : Reader Unit :=
  text.toList.forM mark

def lineEnd : Reader Unit := do
  blanks
  match ← get with
  | '#' :: rest => set (rest.dropWhile isPlain)
  | _ => pure ()
  match ← get with
  | [] => pure ()
  | '\n' :: rest => set rest
  | _ => failure

def code (count : Nat) : Reader Char := do
  let chars ← get
  let digits := chars.take count
  let value := natural 16 digits
  if digits.length = count ∧ digits.all isHex ∧ value.isValidChar then
    set (chars.drop count)
    return Char.ofNat value
  failure

def escaped : Reader Char := do
  match ← get with
  | [] => failure
  | c :: rest =>
    set rest
    match c with
    | 'b' => return '\x08'
    | 't' => return '\t'
    | 'n' => return '\n'
    | 'f' => return '\x0c'
    | 'r' => return '\r'
    | '"' => return '"'
    | '\\' => return '\\'
    | 'u' => code 4
    | 'U' => code 8
    | _ => failure

def lineText (quote : Char) : Nat → List Char → Reader String
  | 0, _ => failure
  | fuel + 1, found => do
    match ← get with
    | [] => failure
    | c :: rest =>
      set rest
      if c = quote then return String.ofList found.reverse
      else if c = '\\' ∧ quote = '"' then lineText quote fuel ((← escaped) :: found)
      else if isPlain c then lineText quote fuel (c :: found)
      else failure

/-- The rest of a text over several lines. Up to two quotes may stand before the three that end it. -/
def blockText (quote : Char) : Nat → List Char → Reader String
  | 0, _ => failure
  | fuel + 1, found => do
    match ← get with
    | [] => failure
    | c :: rest =>
      if c = quote then
        let count := 1 + (rest.takeWhile (· == quote)).length
        if count < 3 then
          set (rest.drop (count - 1))
          blockText quote fuel (List.replicate count quote ++ found)
        else
          let kept := min (count - 3) 2
          set (rest.drop (kept + 2))
          return String.ofList (List.replicate kept quote ++ found).reverse
      else if c = '\\' ∧ quote = '"' then
        match rest.dropWhile isBlank with
        | '\n' :: after =>
          set (after.dropWhile fun c => isBlank c || c == '\n')
          blockText quote fuel found
        | _ =>
          set rest
          blockText quote fuel ((← escaped) :: found)
      else if isPlain c ∨ c = '\n' then
        set rest
        blockText quote fuel (c :: found)
      else failure

def quoted (quote : Char) : Reader String := do
  let chars ← get
  match chars with
  | a :: b :: rest =>
    if a = quote ∧ b = quote then
      match rest with
      | '\n' :: rest => set rest
      | rest => set rest
      blockText quote (chars.length + 1) []
    else lineText quote (chars.length + 1) []
  | _ => lineText quote (chars.length + 1) []

def keyPart : Reader String := do
  match ← get with
  | '"' :: rest =>
    set rest
    lineText '"' (rest.length + 1) []
  | '\'' :: rest =>
    set rest
    lineText '\'' (rest.length + 1) []
  | chars =>
    let name := chars.takeWhile isBareKey
    if name.isEmpty then failure
    set (chars.dropWhile isBareKey)
    return String.ofList name

/-- The parts of a key, the last of them apart from the others. -/
def keyParts : Nat → List String → Reader (List String × String)
  | 0, _ => failure
  | fuel + 1, found => do
    blanks
    let part ← keyPart
    blanks
    if ← mark? '.' then keyParts fuel (part :: found) else return (found.reverse, part)

def key : Reader (List String × String) :=
  keyParts maxDepth []

def digits (isDigit : Char → Bool) : Reader (List Char) := do
  match ← get with
  | c :: rest =>
    if isDigit c then
      let (digits, after) := digitsTail isDigit rest
      set after
      return c :: digits
    failure
  | [] => failure

def sign : Reader Bool := do
  if ← mark? '-' then return true
  let _ ← mark? '+'
  return false

/-- The digits of a decimal integer. There are no leading zeros. -/
def decimal : Reader (List Char) := do
  if ← mark? '0' then return ['0']
  digits Char.isDigit

def integer : Reader Value := do
  let based := fun (base : Nat) (isDigit : Char → Bool) => do
    let value := natural base (← digits isDigit)
    if value < Nat.pow 2 63 then return .integer value else failure
  match ← get with
  | '0' :: 'x' :: rest => set rest; based 16 isHex
  | '0' :: 'o' :: rest => set rest; based 8 fun c => '0' ≤ c && c ≤ '7'
  | '0' :: 'b' :: rest => set rest; based 2 fun c => c == '0' || c == '1'
  | _ =>
    let negative ← sign
    let value := natural 10 (← decimal)
    if negative ∧ value ≤ Nat.pow 2 63 then return .integer (-value)
    if ¬negative ∧ value < Nat.pow 2 63 then return .integer value
    failure

/-- The number `± value · 10 ^ power`. A power beyond the range of doubles is not carried out. -/
def scaled (negative : Bool) (value : Nat) (power : Int) : Double :=
  let size : Int := (Nat.toDigits 10 value).length + power
  if value = 0 ∨ size < -400 then .ofRatio negative 0 1
  else if 400 < size then .ofRatio negative (Nat.pow 10 400) 1
  else if power < 0 then .ofRatio negative value (Nat.pow 10 power.natAbs)
  else .ofRatio negative (value * Nat.pow 10 power.natAbs) 1

def power? : Reader (Option Int) := do
  match ← get with
  | c :: rest =>
    if c = 'e' ∨ c = 'E' then
      set rest
      let negative ← sign
      let size : Int := natural 10 (← digits Char.isDigit)
      return some (if negative then -size else size)
    return none
  | [] => return none

/-- A float with a fraction or an exponent. One above all doubles is refused. -/
def float : Reader Value := do
  let negative ← sign
  let whole ← decimal
  let fraction ← (if ← mark? '.' then digits Char.isDigit else pure [])
  let power ← power?
  if fraction.isEmpty ∧ power.isNone then failure
  let value := scaled negative (natural 10 (whole ++ fraction)) (power.getD 0 - fraction.length)
  if value.isFinite ∨ negative then return .float value else failure

def specialFloat : Reader Value := do
  let negative ← sign
  match ← get with
  | 'i' :: 'n' :: 'f' :: rest => set rest; return .float (.ofRatio negative (Nat.pow 10 400) 1)
  | 'n' :: 'a' :: 'n' :: rest => set rest; return .float ⟨0x7ff8000000000000⟩
  | _ => failure

def field (count low high : Nat) : Reader Nat := do
  let chars ← get
  let digits := chars.take count
  let value := natural 10 digits
  if digits.length = count ∧ digits.all Char.isDigit ∧ low ≤ value ∧ value ≤ high then
    set (chars.drop count)
    return value
  failure

def monthLength (year month : Nat) : Nat :=
  if month = 2 then (if year % 4 = 0 ∧ (year % 100 ≠ 0 ∨ year % 400 = 0) then 29 else 28)
  else if month = 4 ∨ month = 6 ∨ month = 9 ∨ month = 11 then 30
  else 31

def date : Reader Unit := do
  let year ← field 4 0 9999
  mark '-'
  let month ← field 2 1 12
  mark '-'
  let _ ← field 2 1 (monthLength year month)

def time : Reader Unit := do
  let _ ← field 2 0 23
  mark ':'
  let _ ← field 2 0 59
  mark ':'
  let _ ← field 2 0 60
  match ← get with
  | '.' :: c :: rest => if c.isDigit then set (rest.dropWhile Char.isDigit)
  | _ => pure ()

def zone : Reader Unit := do
  match ← get with
  | c :: rest =>
    if c = 'Z' ∨ c = 'z' then set rest
    else if c = '+' ∨ c = '-' then
      set rest
      let _ ← field 2 0 23
      mark ':'
      let _ ← field 2 0 59
  | [] => pure ()

def timeOfDate : Reader Unit := do
  match ← get with
  | c :: rest =>
    if c = 'T' ∨ c = 't' ∨ c = ' ' then
      set rest
      time
      zone
    else failure
  | [] => failure

def moment : Reader Value := do
  (do date; timeOfDate <|> pure ()) <|> time
  return .moment

def scalar : Reader Value := do
  match ← get with
  | '"' :: rest => set rest; return .text (← quoted '"')
  | '\'' :: rest => set rest; return .text (← quoted '\'')
  | 't' :: _ => word "true"; return .boolean true
  | 'f' :: _ => word "false"; return .boolean false
  | _ => moment <|> float <|> specialFloat <|> integer

/-- The rest of a list. A comma may stand behind the last item. -/
def listRest (item : Reader Value) : Nat → List Value → Reader Value
  | 0, _ => failure
  | fuel + 1, found => do
    modify (afterTrivia false)
    if ← mark? ']' then return .list found.reverse
    let next ← item
    modify (afterTrivia false)
    if ← mark? ',' then listRest item fuel (next :: found)
    else
      mark ']'
      return .list (next :: found).reverse

def setting (item : Reader Value) : Reader (List String × String × Value) := do
  let (path, last) ← key
  mark '='
  blanks
  return (path, last, ← item)

def inlineRest (item : Reader Value) : Nat → Entries → Reader Value
  | 0, _ => failure
  | fuel + 1, entries => do
    let (path, last, value) ← setting item
    let entries ← StateT.lift (entries.put last value path)
    blanks
    if ← mark? ',' then inlineRest item fuel entries
    else
      mark '}'
      return .table .inline entries

def value : Nat → Reader Value
  | 0 => scalar
  | depth + 1 => do
    match ← get with
    | '[' :: rest =>
      set rest
      listRest (value depth) (rest.length + 1) []
    | '{' :: rest =>
      set rest
      blanks
      if ← mark? '}' then return .table .inline []
      inlineRest (value depth) (rest.length + 1) []
    | _ => scalar

def statements : Nat → List Statement → Reader (List Statement)
  | 0, _ => failure
  | fuel + 1, found => do
    blanks
    match ← get with
    | [] => return found.reverse
    | '#' :: _ | '\n' :: _ =>
      lineEnd
      statements fuel found
    | '[' :: '[' :: rest =>
      set rest
      let (path, last) ← key
      word "]]"
      lineEnd
      statements fuel (.listHeader path last :: found)
    | '[' :: rest =>
      set rest
      let (path, last) ← key
      mark ']'
      lineEnd
      statements fuel (.header path last :: found)
    | _ =>
      let (path, last, value) ← setting (value maxDepth)
      lineEnd
      statements fuel (.setting path last value :: found)

end Reader

def read? (text : String) : Option Entries :=
  let chars := joinLineEnds text.toList
  let chars :=
    match chars with
    | '\uFEFF' :: rest => rest
    | chars => chars
  match Reader.statements (chars.length + 1) [] chars with
  | some (statements, _) => assemble? statements
  | none => none

end CrateAtlas.Toml
