import CrateAtlas.Json.Reader

/-!
Decoders of JSON values. They go through a value from front to back and stop at the first fault.
-/

namespace CrateAtlas.Json

inductive DecodeError where
  | malformed
  /-- The text is JSON, but not of the form that is asked for. -/
  | mismatched
  deriving DecidableEq, Repr, Inhabited

abbrev Decode := Except DecodeError

def maxDepth : Nat := 127

namespace Node

variable {α σ : Type}

/-- The fault of a value that is not of the form that is asked for. Strings, numbers and words are
read before they are rejected, lists and objects are not. -/
def reject : Node → Decode α
  | .fault | .number none | .string none => throw .malformed
  | _ => throw .mismatched

mutual

def skip : Node → Decode Unit
  | .null | .bool _ | .number _ | .string _ => return
  | .fault => throw .malformed
  | .array items whole => do
    skipItems items
    if !whole then throw .malformed
  | .object members whole => do
    skipMembers members
    if !whole then throw .malformed

def skipItems : List Node → Decode Unit
  | [] => return
  | item :: rest => do
    item.skip
    skipItems rest

def skipMembers : List (Option String × Node) → Decode Unit
  | [] => return
  | (_, value) :: rest => do
    value.skip
    skipMembers rest

end

mutual

/-- The value that a node stands for. Lists and objects may nest as deeply as `depth` says. -/
def strict (depth : Nat) : Node → Decode Value
  | .null => return .null
  | .bool value => return .bool value
  | .number (some value) => return .number value
  | .string (some value) => return .string value
  | .fault | .number none | .string none => throw .malformed
  | .array items whole => do
    if depth = 0 then throw .malformed
    let items ← strictItems (depth - 1) items
    if whole then return .array items else throw .malformed
  | .object members whole => do
    if depth = 0 then throw .malformed
    let members ← strictMembers (depth - 1) members
    if whole then return .object members else throw .malformed

def strictItems (depth : Nat) : List Node → Decode (List Value)
  | [] => return []
  | item :: rest => do
    let item ← item.strict depth
    return item :: (← strictItems depth rest)

def strictMembers (depth : Nat) : List (Option String × Node) → Decode (List (String × Value))
  | [] => return []
  | (none, _) :: _ => throw .malformed
  | (some key, value) :: rest => do
    let value ← value.strict depth
    return (key, value) :: (← strictMembers depth rest)

end

def text : Node → Decode String
  | .string (some value) => return value
  | other => other.reject

def natural : Node → Decode Nat
  | .number (some (.natural value)) => return value
  | other => other.reject

def double : Node → Decode Double
  | .number (some value) => return value.toDouble
  | other => other.reject

def orNull (decode : Node → Decode α) : Node → Decode (Option α)
  | .null => return none
  | other => some <$> decode other

def list (decode : Node → Decode α) : Node → Decode (List α)
  | .array items whole => do
    let values ← items.mapM decode
    if whole then return values else throw .malformed
  | other => other.reject

def foldMembers (step : σ → String → Node → Decode σ) (draft : σ)
    (members : List (Option String × Node)) : Decode σ :=
  members.foldlM
    (fun draft (key, value) =>
      match key with
      | some key => step draft key value
      | none => throw .malformed)
    draft

/-- Decodes a record from an object, or from the list of its fields in order. The step notes one
field; at the end the draft is completed. -/
def struct (fields : List String) (step : σ → String → Node → Decode σ) (start : σ)
    (complete : σ → Option α) : Node → Decode α
  | .object members whole => do
    let draft ← foldMembers step start members
    if !whole then throw .malformed
    match complete draft with
    | some value => return value
    | none => throw .mismatched
  | .array items whole => do
    let draft ← foldMembers step start ((fields.map some).zip items)
    if !whole then throw .malformed
    match complete draft with
    | some value => if items.length ≤ fields.length then return value else throw .malformed
    | none => throw .mismatched
  | other => other.reject

/-- Notes a field, which may occur only once. -/
def once (slot : Option α) (decode : Decode α) : Decode (Option α) :=
  if slot.isSome then throw .mismatched else some <$> decode

end Node

def decode {α : Type} (decoder : Node → Decode α) (text : String) : Decode α := do
  let reading := read text
  let value ← decoder reading.value
  if reading.trailing then throw .malformed
  return value

end CrateAtlas.Json
