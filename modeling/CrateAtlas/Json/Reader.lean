import CrateAtlas.Json.Number

/-!
Reading JSON text, character by character. The result is a tree also if the text breaks off or goes
wrong: it then holds all that comes before, and the place of the fault. So a decoder that goes
through the tree from front to back meets faults of form and faults of content in the order of the
text.
-/

namespace CrateAtlas.Json

inductive Node where
  | null
  | bool (value : Bool)
  /-- A number; without a value if it is too large. -/
  | number (value : Option Number)
  /-- A string; without a value if an escape in it stands for no character. -/
  | string (value : Option String)
  /-- A list, and whether it was read to its end. -/
  | array (items : List Node) (whole : Bool)
  /-- An object, and whether it was read to its end. -/
  | object (members : List (Option String × Node)) (whole : Bool)
  /-- A place where a value is expected and none is found. -/
  | fault
  deriving Inhabited

structure Reading where
  value : Node
  trailing : Bool
  deriving Inhabited

/-- A list or object that is not closed yet, with what it holds so far, last item first. -/
inductive Frame where
  | array (items : List Node)
  | object (members : List (Option String × Node))
  /-- An object with a key whose value is still to come. -/
  | member (members : List (Option String × Node)) (key : Option String)

inductive NumberMode where
  | sign | zero | whole | point | fraction | mark | powerSign | power
  deriving DecidableEq, Repr

inductive Unit16 where
  | char (c : Char)
  | code (value : Nat)
  deriving DecidableEq, Repr

inductive StringMode where
  | plain
  | escape
  | code (left : Nat) (value : Nat)
  deriving DecidableEq, Repr

inductive Mode where
  | value
  | firstItem
  | firstKey
  | key
  | colon
  | afterValue
  /-- In a string, which may be a key, with what it holds so far, last character first. -/
  | string (isKey : Bool) (mode : StringMode) (units : List Unit16)
  | number (mode : NumberMode) (text : NumberText)
  /-- In a word, with the letters still to come. -/
  | word (left : List Char) (node : Node)
  /-- Behind a fault, which stands in place of a value or not. -/
  | faulty (atValue : Bool)

structure State where
  stack : List Frame
  mode : Mode
  result : Option Node
  trailing : Bool

namespace State

def start : State :=
  ⟨[], .value, none, false⟩

def push (state : State) (node : Node) : State :=
  match state.stack with
  | [] => { state with mode := .afterValue, result := some node }
  | .array items :: outer => { state with mode := .afterValue, stack := .array (node :: items) :: outer }
  | .member members key :: outer =>
    { state with mode := .afterValue, stack := .object ((key, node) :: members) :: outer }
  | .object _ :: _ => { state with mode := .faulty false }

end State

def isBlank (c : Char) : Bool :=
  c == ' ' || c == '\n' || c == '\t' || c == '\r'

def digit? (c : Char) : Option Nat :=
  if c.isDigit then some (c.toNat - '0'.toNat) else none

def hexDigit? (c : Char) : Option Nat :=
  if c.isDigit then some (c.toNat - '0'.toNat)
  else if 'a' ≤ c ∧ c ≤ 'f' then some (c.toNat - 'a'.toNat + 10)
  else if 'A' ≤ c ∧ c ≤ 'F' then some (c.toNat - 'A'.toNat + 10)
  else none

def isHighSurrogate (code : Nat) : Bool :=
  decide (0xD800 ≤ code) && decide (code ≤ 0xDBFF)

def isLowSurrogate (code : Nat) : Bool :=
  decide (0xDC00 ≤ code) && decide (code ≤ 0xDFFF)

/-- The characters of a string; nothing if a code stands alone that is half a character. -/
def characters? : List Unit16 → Option (List Char)
  | [] => some []
  | .char c :: rest => (characters? rest).map (c :: ·)
  | .code high :: .code low :: rest =>
    if isHighSurrogate high then
      if isLowSurrogate low then
        (characters? rest).map
          (Char.ofNat (0x10000 + (high - 0xD800) * 0x400 + (low - 0xDC00)) :: ·)
      else none
    else if isLowSurrogate high then none
    else (characters? (.code low :: rest)).map (Char.ofNat high :: ·)
  | .code code :: rest =>
    if isHighSurrogate code || isLowSurrogate code then none
    else (characters? rest).map (Char.ofNat code :: ·)

def unescape? : Char → Option Char
  | '"' => some '"'
  | '\\' => some '\\'
  | '/' => some '/'
  | 'b' => some (Char.ofNat 8)
  | 'f' => some (Char.ofNat 12)
  | 'n' => some '\n'
  | 'r' => some '\r'
  | 't' => some '\t'
  | _ => none

def stringOf (units : List Unit16) : Option String :=
  (characters? units.reverse).map String.ofList

namespace NumberMode

def isComplete : NumberMode → Bool
  | zero | whole | fraction | power => true
  | sign | point | mark | powerSign => false

def next? (text : NumberText) (c : Char) : NumberMode → Option (NumberMode × NumberText)
  | sign =>
    match digit? c with
    | some 0 => some (zero, { text with whole := [0] })
    | some digit => some (whole, { text with whole := [digit] })
    | none => none
  | zero => afterWhole
  | whole =>
    match digit? c with
    | some digit => some (whole, { text with whole := text.whole ++ [digit] })
    | none => afterWhole
  | point =>
    match digit? c with
    | some digit => some (fraction, { text with fraction := some [digit] })
    | none => none
  | fraction =>
    match digit? c with
    | some digit => some (fraction, { text with fraction := some (text.fraction.getD [] ++ [digit]) })
    | none => if c == 'e' || c == 'E' then some (mark, text) else none
  | mark =>
    if c == '+' then some (powerSign, { text with power := some (false, []) })
    else if c == '-' then some (powerSign, { text with power := some (true, []) })
    else (digit? c).map fun digit => (power, { text with power := some (false, [digit]) })
  | powerSign | power =>
    (digit? c).map fun digit =>
      let (negative, digits) := text.power.getD (false, [])
      (power, { text with power := some (negative, digits ++ [digit]) })
where
  afterWhole : Option (NumberMode × NumberText) :=
    if c == '.' then some (point, text)
    else if c == 'e' || c == 'E' then some (mark, text)
    else none

end NumberMode

namespace State

def openValue (state : State) (c : Char) : State :=
  match c with
  | '"' => { state with mode := .string false .plain [] }
  | '[' => { state with mode := .firstItem, stack := .array [] :: state.stack }
  | '{' => { state with mode := .firstKey, stack := .object [] :: state.stack }
  | '-' => { state with mode := .number .sign ⟨true, [], none, none⟩ }
  | 't' => { state with mode := .word ['r', 'u', 'e'] (.bool true) }
  | 'f' => { state with mode := .word ['a', 'l', 's', 'e'] (.bool false) }
  | 'n' => { state with mode := .word ['u', 'l', 'l'] .null }
  | _ =>
    match NumberMode.next? ⟨false, [], none, none⟩ c .sign with
    | some (mode, text) => { state with mode := .number mode text }
    | none => { state with mode := .faulty true }

def closeArray (state : State) : State :=
  match state.stack with
  | .array items :: outer => push { state with stack := outer } (.array items.reverse true)
  | _ => { state with mode := .faulty false }

def closeObject (state : State) : State :=
  match state.stack with
  | .object members :: outer => push { state with stack := outer } (.object members.reverse true)
  | _ => { state with mode := .faulty false }

def afterValue (state : State) (c : Char) : State :=
  if isBlank c then state
  else
    match state.stack with
    | [] => { state with trailing := true }
    | .array _ :: _ =>
      if c == ',' then { state with mode := .value }
      else if c == ']' then closeArray state
      else { state with mode := .faulty false }
    | .object _ :: _ =>
      if c == ',' then { state with mode := .key }
      else if c == '}' then closeObject state
      else { state with mode := .faulty false }
    | .member _ _ :: _ => { state with mode := .faulty false }

def closeString (state : State) (isKey : Bool) (units : List Unit16) : State :=
  if isKey then
    match state.stack with
    | .object members :: outer =>
      { state with mode := .colon, stack := .member members (stringOf units) :: outer }
    | _ => { state with mode := .faulty false }
  else push state (.string (stringOf units))

def inString (state : State) (isKey : Bool) (units : List Unit16) (c : Char) : StringMode → State
  | .plain =>
    if c == '"' then closeString state isKey units
    else if c == '\\' then { state with mode := .string isKey .escape units }
    else if c.val < 32 then { state with mode := .faulty (!isKey) }
    else { state with mode := .string isKey .plain (.char c :: units) }
  | .escape =>
    if c == 'u' then { state with mode := .string isKey (.code 4 0) units }
    else
      match unescape? c with
      | some d => { state with mode := .string isKey .plain (.char d :: units) }
      | none => { state with mode := .faulty (!isKey) }
  | .code left value =>
    match hexDigit? c with
    | none => { state with mode := .faulty (!isKey) }
    | some digit =>
      if left ≤ 1 then { state with mode := .string isKey .plain (.code (value * 16 + digit) :: units) }
      else { state with mode := .string isKey (.code (left - 1) (value * 16 + digit)) units }

def step (state : State) (c : Char) : State :=
  match state.mode with
  | .value => if isBlank c then state else openValue state c
  | .firstItem =>
    if isBlank c then state
    else if c == ']' then closeArray state
    else openValue state c
  | .firstKey =>
    if isBlank c then state
    else if c == '"' then { state with mode := .string true .plain [] }
    else if c == '}' then closeObject state
    else { state with mode := .faulty false }
  | .key =>
    if isBlank c then state
    else if c == '"' then { state with mode := .string true .plain [] }
    else { state with mode := .faulty false }
  | .colon =>
    if isBlank c then state
    else if c == ':' then { state with mode := .value }
    else { state with mode := .faulty true }
  | .afterValue => afterValue state c
  | .string isKey mode units => inString state isKey units c mode
  | .number mode text =>
    match mode.next? text c with
    | some (mode, text) => { state with mode := .number mode text }
    | none =>
      if mode.isComplete && !(mode == .zero && c.isDigit) then
        afterValue (push state (.number text.value?)) c
      else { state with mode := .faulty true }
  | .word left node =>
    match left with
    | [] => afterValue (push state node) c
    | expected :: rest =>
      if c == expected then
        if rest.isEmpty then push state node else { state with mode := .word rest node }
      else { state with mode := .faulty true }
  | .faulty _ => state

/-- Closes what is still open around a faulty value. -/
def unwind (fault : Option Node) : List Frame → Node
  | [] => fault.getD .fault
  | .array items :: outer => unwind (some (.array ((fault.toList ++ items).reverse) false)) outer
  | .object members :: outer => unwind (some (.object members.reverse false)) outer
  | .member members key :: outer =>
    unwind (some (.object (((key, fault.getD .fault) :: members).reverse) false)) outer

def finish (state : State) : Reading :=
  match state.mode with
  | .afterValue =>
    match state.result with
    | some node => ⟨node, state.trailing⟩
    | none => ⟨unwind none state.stack, false⟩
  | .number mode text =>
    if mode.isComplete then
      let state := push state (.number text.value?)
      match state.result with
      | some node => ⟨node, state.trailing⟩
      | none => ⟨unwind none state.stack, false⟩
    else ⟨unwind (some .fault) state.stack, false⟩
  | .value | .colon | .word _ _ => ⟨unwind (some .fault) state.stack, false⟩
  | .firstItem | .firstKey | .key => ⟨unwind none state.stack, false⟩
  | .string isKey _ _ => ⟨unwind (if isKey then none else some .fault) state.stack, false⟩
  | .faulty atValue => ⟨unwind (if atValue then some .fault else none) state.stack, false⟩

end State

def read (text : String) : Reading :=
  (text.toList.foldl State.step State.start).finish

end CrateAtlas.Json
