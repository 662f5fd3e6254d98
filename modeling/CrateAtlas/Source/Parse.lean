import CrateAtlas.Source.Token
import CrateAtlas.Source.UseTree

/-!
Readers of token lists: tests on the tokens ahead, and readers that take tokens off the front.
-/

namespace CrateAtlas.Source

/-- A reader of tokens. It gives nothing if the tokens do not fit. -/
abbrev Parse := StateT (List Token) Option

def atWord (word : String) : List Token → Bool
  | .ident name :: _ => name.text == word
  | _ => false

def atAnyWord (words : List String) : List Token → Bool
  | .ident name :: _ => words.contains name.text
  | _ => false

def atName : List Token → Bool
  | .ident _ :: _ => true
  | _ => false

def atIdent : List Token → Bool
  | .ident name :: _ => !isReserved name.text
  | _ => false

/-- The tokens after a mark of one or more punctuation characters. All but the last of them have to
be followed directly by the next. -/
def afterMark? : List Char → List Token → Option (List Token)
  | [], tokens => some tokens
  | [c], .punct d _ :: rest => if c = d then some rest else none
  | c :: mark, .punct d joint :: rest => if c = d ∧ joint then afterMark? mark rest else none
  | _, _ => none

def atMark (mark : String) (tokens : List Token) : Bool :=
  (afterMark? mark.toList tokens).isSome

/-- Whether a mark is ahead that none of some longer marks covers. -/
def atMarkNot (mark : String) (longer : List String) (tokens : List Token) : Bool :=
  atMark mark tokens && longer.all fun other => !atMark other tokens

def atGroup (delimiter : Delimiter) : List Token → Bool
  | .group d _ :: _ => d == delimiter
  | _ => false

def atLifetime : List Token → Bool
  | .lifetime _ :: _ => true
  | _ => false

def atLiteral : List Token → Bool
  | .literal _ :: _ => true
  | .ident name :: _ => name.text == "true" || name.text == "false"
  | .punct '-' _ :: .literal value :: _ =>
    match value with
    | .integer _ _ | .float _ => true
    | _ => false
  | _ => false

namespace Parse

variable {α β : Type}

def word (text : String) : Parse Unit := do
  if atWord text (← get) then modify List.tail else failure

def word? (text : String) : Parse Bool := do
  if atWord text (← get) then
    modify List.tail
    return true
  return false

def name : Parse String := do
  match ← get with
  | .ident name :: rest => set rest; return name.text
  | _ => failure

def ident : Parse String := do
  match ← get with
  | .ident name :: rest => if isReserved name.text then failure else set rest; return name.text
  | _ => failure

def pathWord : Parse PathWord := do
  match ← get with
  | .ident name :: rest =>
    if usable : name.isUsable = true then set rest; return ⟨name, usable⟩ else failure
  | _ => failure

def mark (text : String) : Parse Unit := do
  match afterMark? text.toList (← get) with
  | some rest => set rest
  | none => failure

def mark? (text : String) : Parse Bool := do
  match afterMark? text.toList (← get) with
  | some rest => set rest; return true
  | none => return false

def lifetime : Parse Unit := do
  match ← get with
  | .lifetime _ :: rest => set rest
  | _ => failure

def literal : Parse Unit := do
  let tokens ← get
  if !atLiteral tokens then failure
  match tokens with
  | .punct _ _ :: _ :: rest => set rest
  | _ => set tokens.tail

def string? : Parse Unit := do
  match ← get with
  | .literal .string :: rest => set rest
  | _ => return

def content (delimiter : Delimiter) : Parse (List Token) := do
  match ← get with
  | .group d content :: rest => if d = delimiter then set rest; return content else failure
  | _ => failure

def anyGroup : Parse Delimiter := do
  match ← get with
  | .group d _ :: rest => set rest; return d
  | _ => failure

def all (p : Parse α) (tokens : List Token) : Parse α :=
  match p tokens with
  | some (value, []) => pure value
  | _ => failure

def inside (delimiter : Delimiter) (p : Parse α) : Parse α := do
  p.all (← content delimiter)

def iterate (step : α → Parse (Option α)) : Nat → α → Parse α
  | 0, _ => failure
  | fuel + 1, value => do
    match ← step value with
    | none => return value
    | some next => iterate step fuel next

/-- Repeats a step that takes at least one token each time, until it has nothing to add. -/
def loop (step : α → Parse (Option α)) (value : α) : Parse α := do
  iterate step ((← get).length + 1) value

def whileAt (test : List Token → Bool) (p : Parse α) : Parse (List α) := do
  let values ← loop (fun (values : List α) => do
    if test (← get) then return some ((← p) :: values) else return none) []
  return values.reverse

/-- Reads values with a comma between them, up to where a test holds. A comma may come last. -/
def separated (stop : List Token → Bool) (p : Parse α) : Parse (List α) := do
  let (values, _) ← loop (fun ((values, done) : List α × Bool) => do
    if done || stop (← get) then return none
    let value ← p
    if stop (← get) then return some (value :: values, true)
    mark ","
    return some (value :: values, false)) ([], false)
  return values.reverse

def commas (delimiter : Delimiter) (p : Parse α) : Parse (List α) :=
  inside delimiter (separated List.isEmpty p)

end Parse

end CrateAtlas.Source
