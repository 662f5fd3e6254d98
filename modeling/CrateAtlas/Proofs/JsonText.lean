import CrateAtlas.Proofs.JsonNumber
import Mathlib.Data.List.Forall2

/-!
Reading written text back. Reading goes character by character, so the text of a value inside another
one is read as the text of a value by itself, in a state with more on its stack. Only a number does
not know its own end: behind it the state is still that of the number, and the comma or the new line
that follows completes it. `Reads` says what is left of a text once it is read, in any state.
-/

namespace CrateAtlas.Json

/-- A unit of a string stands for a character, as the character itself or as its code. -/
inductive Stands : Unit16 → Char → Prop where
  | char (c : Char) : Stands (.char c) c
  | code {c : Char} (control : c.toNat < 32) : Stands (.code c.toNat) c

private theorem characters?_of_stands {units : List Unit16} {chars : List Char}
    (stand : List.Forall₂ Stands units chars) : characters? units = some chars := by
  induction stand with
  | nil => rfl
  | @cons unit c units chars first rest ih =>
    cases first with
    | char => simp [characters?, ih]
    | code control =>
      have low : isLowSurrogate c.toNat = false := by simp [isLowSurrogate]; omega
      have high : isHighSurrogate c.toNat = false := by simp [isHighSurrogate]; omega
      -- a code may be the first half of a character, so reading it looks at the unit behind it
      cases rest with
      | nil => simp [characters?, low, high, Char.ofNat_toNat]
      | @cons next d units chars second rest =>
        cases second with
        | char => simp [characters?, low, high, Char.ofNat_toNat] at ih ⊢; simp [ih]
        | code => simp [characters?, low, high, Char.ofNat_toNat, ih]

theorem toList_quote (text : String) :
    (quote text).toList = '"' :: (text.toList.flatMap escapeChar ++ ['"']) := by
  simp [quote]

private theorem hexDigit?_hexDigit {digit : Nat} (small : digit < 16) :
    hexDigit? (hexDigit digit) = some digit := by
  revert digit
  decide

namespace State

private theorem foldl_letter {letter c : Char} (stands : unescape? letter = some c) (isKey : Bool)
    (units : List Unit16) (state : State) :
    ['\\', letter].foldl step { state with mode := .string isKey .plain units } =
      { state with mode := .string isKey .plain (.char c :: units) } := by
  have short : letter ≠ 'u' := by
    rintro rfl
    cases stands
  simp [step, inString, stands, short]

/-- An escaped character adds one unit to a string, which stands for the character. -/
theorem foldl_escapeChar (c : Char) (isKey : Bool) (units : List Unit16) (state : State) :
    ∃ unit, Stands unit c ∧
      (escapeChar c).foldl step { state with mode := .string isKey .plain units } =
        { state with mode := .string isKey .plain (unit :: units) } := by
  unfold escapeChar
  split
  next equal => exact ⟨_, .char c, foldl_letter (by simp [unescape?, equal]) isKey units state⟩
  split
  next equal => exact ⟨_, .char c, foldl_letter (by simp [unescape?, equal]) isKey units state⟩
  split
  next equal => exact ⟨_, .char c, foldl_letter (by simp [unescape?, equal]) isKey units state⟩
  split
  next equal => exact ⟨_, .char c, foldl_letter (by simp [unescape?, equal]) isKey units state⟩
  split
  next equal => exact ⟨_, .char c, foldl_letter (by simp [unescape?, equal]) isKey units state⟩
  split
  next equal =>
    have backspace : c = Char.ofNat 8 := Char.ext equal
    exact ⟨_, .char c, foldl_letter (by simp [unescape?, backspace]) isKey units state⟩
  split
  next equal =>
    have formFeed : c = Char.ofNat 12 := Char.ext equal
    exact ⟨_, .char c, foldl_letter (by simp [unescape?, formFeed]) isKey units state⟩
  split
  next control =>
    have below : c.toNat < 32 := control
    have high := hexDigit?_hexDigit (by omega : c.toNat / 16 < 16)
    have low := hexDigit?_hexDigit (by omega : c.toNat % 16 < 16)
    have zero : hexDigit? '0' = some 0 := rfl
    have code : c.toNat / 16 * 16 + c.toNat % 16 = c.toNat := by omega
    exact ⟨_, .code below, by simp [step, inString, zero, high, low, code]⟩
  next quote backslash _ _ _ _ _ printable =>
    exact ⟨_, .char c, by simp [step, inString, quote, backslash, printable]⟩

private theorem foldl_escaped (text : List Char) (isKey : Bool) (units : List Unit16) (state : State) :
    ∃ added, List.Forall₂ Stands added text ∧
      (text.flatMap escapeChar).foldl step { state with mode := .string isKey .plain units } =
        { state with mode := .string isKey .plain (added.reverse ++ units) } := by
  induction text generalizing units with
  | nil => exact ⟨[], .nil, rfl⟩
  | cons c rest ih =>
    obtain ⟨unit, stands, stepped⟩ := foldl_escapeChar c isKey units state
    obtain ⟨added, stand, folded⟩ := ih (unit :: units)
    refine ⟨unit :: added, .cons stands stand, ?_⟩
    rw [List.flatMap_cons, List.foldl_append, stepped, folded]
    simp

theorem push_mode (state : State) (mode : Mode) (node : Node) :
    push { state with mode } node = push state node := by
  unfold push
  cases state.stack with
  | nil => rfl
  | cons frame outer => cases frame <;> rfl

private theorem closeString_mode (state : State) (mode : Mode) (isKey : Bool) (units : List Unit16) :
    closeString { state with mode } isKey units = closeString state isKey units := by
  unfold closeString
  rw [push_mode]

/-- A quoted text is read to its end, where the string is closed with that text. -/
theorem foldl_quoted (text : String) (isKey : Bool) (state : State) :
    ∃ units, stringOf units = some text ∧
      (text.toList.flatMap escapeChar ++ ['"']).foldl step
          { state with mode := .string isKey .plain [] } = closeString state isKey units := by
  obtain ⟨added, stand, folded⟩ := foldl_escaped text.toList isKey [] state
  refine ⟨added.reverse, ?_, ?_⟩
  · simp [stringOf, characters?_of_stands stand]
  · rw [List.foldl_append, folded, List.append_nil, ← closeString_mode]
    simp [step, inString]
    rfl

end State

def Mode.skipsBlanks : Mode → Bool
  | value | firstItem | firstKey | key | colon | afterValue => true
  | _ => false

namespace State

theorem step_blank {state : State} {c : Char} (skips : state.mode.skipsBlanks = true)
    (blank : isBlank c = true) : step state c = state := by
  unfold step
  split <;> simp_all [Mode.skipsBlanks, afterValue]

theorem foldl_blanks {chars : List Char} {state : State} (skips : state.mode.skipsBlanks = true)
    (blank : ∀ c ∈ chars, isBlank c = true) : chars.foldl step state = state := by
  induction chars with
  | nil => rfl
  | cons c rest ih =>
    rw [List.foldl_cons, step_blank skips (blank c List.mem_cons_self)]
    exact ih fun other member => blank other (List.mem_cons_of_mem c member)

theorem blank_of_mem_indentation {level : Nat} {c : Char}
    (member : c ∈ List.replicate (2 * level) ' ') : isBlank c = true := by
  rw [List.eq_of_mem_replicate member]
  rfl

theorem toList_newLine (level : Nat) :
    (Value.newLine level).toList = '\n' :: List.replicate (2 * level) ' ' := by
  simp [Value.newLine]

theorem foldl_newLine (level : Nat) {state : State} (skips : state.mode.skipsBlanks = true) :
    (Value.newLine level).toList.foldl step state = state := by
  rw [toList_newLine, List.foldl_cons, step_blank skips rfl]
  exact foldl_blanks skips fun c member => blank_of_mem_indentation member

/-- A state that goes on as another one does behind a value: at the end of the text, at a comma and at
a new line. -/
def Pending (state complete : State) : Prop :=
  complete.mode = .afterValue →
    state.finish = complete.finish ∧
      ∀ c, c = ',' ∨ c = '\n' → state.step c = complete.afterValue c

private theorem Pending.refl (state : State) : Pending state state := by
  intro after
  exact ⟨rfl, fun c ends => by simp [step, after]⟩

theorem Pending.comma {state complete : State} (pending : Pending state complete)
    (after : complete.mode = .afterValue) : ",".toList.foldl step state = complete.afterValue ',' :=
  (pending after).2 ',' (.inl rfl)

theorem Pending.newLine {state complete : State} (pending : Pending state complete)
    (after : complete.mode = .afterValue) (level : Nat) :
    (Value.newLine level).toList.foldl step state = complete := by
  have ended : state.step '\n' = complete := (pending after).2 '\n' (.inr rfl)
  rw [toList_newLine, List.foldl_cons, ended]
  exact foldl_blanks (by rw [after]; rfl) fun c member => blank_of_mem_indentation member

private theorem pending_number {mode : NumberMode} (complete : mode.isComplete = true) (text : NumberText)
    (state : State) :
    Pending { state with mode := .number mode text } (state.push (.number text.value?)) := by
  intro after
  constructor
  · simp only [finish, complete, if_true, push_mode, after]
  · intro c ends
    have stops : mode.next? text c = none := by
      rcases ends with rfl | rfl <;> cases mode <;> rfl
    have digit : c.isDigit = false := by
      rcases ends with rfl | rfl <;> rfl
    simp [step, stops, complete, digit, push_mode]

end State

open State (Pending)

/-- Some characters are read as a value wherever a value may stand. -/
def Reads (chars : List Char) (node : Node) : Prop :=
  ∃ first rest, chars = first :: rest ∧ isBlank first = false ∧ first ≠ ']' ∧
    ∀ state : State, Pending (rest.foldl State.step (state.openValue first)) (state.push node)

namespace Reads

theorem foldl {chars : List Char} {node : Node} (reads : Reads chars node) (state : State)
    (expects : state.mode = .value ∨ state.mode = .firstItem) :
    Pending (chars.foldl State.step state) (state.push node) := by
  obtain ⟨first, rest, rfl, solid, unclosed, pending⟩ := reads
  have opened : state.step first = state.openValue first := by
    rcases expects with value | item
    · simp [State.step, value, solid]
    · simp [State.step, item, solid, unclosed]
  rw [List.foldl_cons, opened]
  exact pending state

theorem of_push {first : Char} {rest : List Char} {node : Node} (solid : isBlank first = false)
    (unclosed : first ≠ ']')
    (pushed : ∀ state, rest.foldl State.step (State.openValue state first) = state.push node) :
    Reads (first :: rest) node :=
  ⟨first, rest, rfl, solid, unclosed, fun state => pushed state ▸ .refl _⟩

theorem of_spells {chars : List Char} {number : Option Number} (spells : Spells chars number) :
    Reads chars (.number number) := by
  cases spells with
  | @intro first rest mode final text whole begins scanned complete =>
    refine ⟨first, rest, rfl, ?_, ?_, fun state => ?_⟩
    · exact not_blank_of_isNumberChar (isNumberChar_of_begins begins)
    · rintro rfl
      cases begins
    · rw [State.openValue_number begins, State.foldl_number scanned]
      exact State.pending_number complete whole state

theorem null : Reads ['n', 'u', 'l', 'l'] .null :=
  .of_push rfl (by decide) fun state => by simp [State.openValue, State.step, State.push_mode]

theorem quote (text : String) : Reads (quote text).toList (.string (some text)) := by
  rw [toList_quote]
  refine .of_push rfl (by decide) fun state => ?_
  obtain ⟨units, read, folded⟩ := State.foldl_quoted text false state
  simpa [State.openValue, State.closeString, read] using folded

end Reads

namespace Value

/-- A value is written so that it is read as a node, at any level of indentation. -/
def ReadsAs (value : Value) (node : Node) : Prop :=
  ∀ level, Reads (value.renderAt level).toList node

/-- A member is written so that its name and its value are read. -/
def MemberReadsAs (member : String × Value) (node : Option String × Node) : Prop :=
  node.1 = some member.1 ∧ member.2.ReadsAs node.2

private theorem foldl_renderItems {items : List Value} {nodes : List Node}
    (reads : List.Forall₂ ReadsAs items nodes) (level : Nat) {state : State}
    {before : List Node} {outer : List Frame} {result : Option Node} {trailing : Bool}
    (pending : Pending state ⟨.array before :: outer, .afterValue, result, trailing⟩) :
    Pending ((renderItems level items).toList.foldl State.step state)
      ⟨.array (nodes.reverse ++ before) :: outer, .afterValue, result, trailing⟩ := by
  induction reads generalizing state before with
  | nil => simpa [renderItems] using pending
  | @cons item node items nodes first rest ih =>
    have comma : ",".toList.foldl State.step state =
        ⟨.array before :: outer, .value, result, trailing⟩ := pending.comma rfl
    have added := (first level).foldl ⟨.array before :: outer, .value, result, trailing⟩ (.inl rfl)
    simp only [renderItems, String.toList_append, List.foldl_append]
    rw [comma, State.foldl_newLine level rfl]
    simpa using ih added

/-- A key is read up to its value. -/
theorem foldl_key (key : String) (state : State)
    (expects : state.mode = .key ∨ state.mode = .firstKey)
    {members : List (Option String × Node)} {outer : List Frame}
    (inside : state.stack = .object members :: outer) :
    ": ".toList.foldl State.step ((quote key).toList.foldl State.step state) =
      { state with mode := .value, stack := .member members (some key) :: outer } := by
  obtain ⟨units, read, folded⟩ := State.foldl_quoted key true state
  have opened : state.step '"' = { state with mode := .string true .plain [] } := by
    rcases expects with key | key <;> simp [State.step, key, isBlank]
  rw [toList_quote, List.foldl_cons, opened, folded]
  simp [State.closeString, inside, read, State.step, isBlank]

private theorem foldl_renderMembers {members : List (String × Value)} {nodes : List (Option String × Node)}
    (reads : List.Forall₂ MemberReadsAs members nodes) (level : Nat) {state : State}
    {before : List (Option String × Node)} {outer : List Frame} {result : Option Node}
    {trailing : Bool}
    (pending : Pending state ⟨.object before :: outer, .afterValue, result, trailing⟩) :
    Pending ((renderMembers level members).toList.foldl State.step state)
      ⟨.object (nodes.reverse ++ before) :: outer, .afterValue, result, trailing⟩ := by
  induction reads generalizing state before with
  | nil => simpa [renderMembers] using pending
  | @cons member node members nodes first rest ih =>
    obtain ⟨key, value⟩ := member
    obtain ⟨name, node⟩ := node
    obtain ⟨rfl, first⟩ := first
    have comma : ",".toList.foldl State.step state =
        ⟨.object before :: outer, .key, result, trailing⟩ := pending.comma rfl
    have named := foldl_key key ⟨.object before :: outer, .key, result, trailing⟩ (.inl rfl) rfl
    have added := (first level).foldl ⟨.member before (some key) :: outer, .value, result, trailing⟩
      (.inl rfl)
    simp only [renderMembers, String.toList_append, List.foldl_append]
    rw [comma, State.foldl_newLine level rfl, named]
    simpa using ih added

theorem readsAs_array {items : List Value} {nodes : List Node}
    (reads : List.Forall₂ ReadsAs items nodes) : ReadsAs (.array items) (.array nodes true) := by
  intro level
  cases reads with
  | nil =>
    have written : (renderAt level (.array [])).toList = ['[', ']'] := by simp [renderAt]
    rw [written]
    refine .of_push rfl (by decide) fun state => ?_
    simp [State.openValue, State.step, isBlank, State.closeArray, State.push_mode]
  | @cons item node items nodes first rest =>
    have written : (renderAt level (.array (item :: items))).toList =
        '[' :: ((newLine (level + 1)).toList ++ ((item.renderAt (level + 1)).toList ++
          ((renderItems (level + 1) items).toList ++ ((newLine level).toList ++ [']'])))) := by
      simp [renderAt]
    rw [written]
    refine .of_push rfl (by decide) fun state => ?_
    have added := (first (level + 1)).foldl
      { state with mode := .firstItem, stack := .array [] :: state.stack } (.inr rfl)
    have all := foldl_renderItems rest (level + 1) added
    simp only [List.foldl_append, State.openValue]
    rw [State.foldl_newLine (level + 1) rfl, all.newLine rfl level]
    simp [State.step, isBlank, State.afterValue, State.closeArray, State.push_mode]

theorem readsAs_object {members : List (String × Value)} {nodes : List (Option String × Node)}
    (reads : List.Forall₂ MemberReadsAs members nodes) :
    ReadsAs (.object members) (.object nodes true) := by
  intro level
  cases reads with
  | nil =>
    have written : (renderAt level (.object [])).toList = ['{', '}'] := by simp [renderAt]
    rw [written]
    refine .of_push rfl (by decide) fun state => ?_
    simp [State.openValue, State.step, isBlank, State.closeObject, State.push_mode]
  | @cons member node members nodes first rest =>
    obtain ⟨key, value⟩ := member
    obtain ⟨name, node⟩ := node
    obtain ⟨rfl, first⟩ := first
    have written : (renderAt level (.object ((key, value) :: members))).toList =
        '{' :: ((newLine (level + 1)).toList ++ ((quote key).toList ++ (": ".toList ++
          ((value.renderAt (level + 1)).toList ++ ((renderMembers (level + 1) members).toList ++
            ((newLine level).toList ++ ['}'])))))) := by
      simp [renderAt]
    rw [written]
    refine .of_push rfl (by decide) fun state => ?_
    have named := foldl_key key { state with mode := .firstKey, stack := .object [] :: state.stack }
      (.inr rfl) rfl
    have added := (first (level + 1)).foldl
      { state with mode := .value, stack := .member [] (some key) :: state.stack } (.inl rfl)
    have all := foldl_renderMembers rest (level + 1) added
    simp only [List.foldl_append, State.openValue]
    rw [State.foldl_newLine (level + 1) rfl, named, all.newLine rfl level]
    simp [State.step, isBlank, State.afterValue, State.closeObject, State.push_mode]

/-- A written value is decoded as what is read, and so is the text with a new line at its end. -/
theorem decode_render {α : Type} {value : Value} {node : Node} {decoder : Node → Decode α} {x : α}
    (reads : value.ReadsAs node) (decoded : decoder node = .ok x) :
    decode decoder value.render = .ok x ∧ decode decoder (value.render ++ "\n") = .ok x := by
  have pending := (reads 0).foldl .start (.inl rfl)
  obtain ⟨finished, goesOn⟩ := pending rfl
  constructor
  · refine decode_eq_ok_iff.mpr ?_
    unfold read render
    rw [finished]
    exact ⟨decoded, rfl⟩
  · refine decode_eq_ok_iff.mpr ?_
    unfold read render
    rw [String.toList_append, List.foldl_append]
    have ended := goesOn '\n' (.inr rfl)
    rw [show "\n".toList = ['\n'] from rfl, List.foldl_cons, List.foldl_nil, ended]
    exact ⟨decoded, rfl⟩

end Value

end CrateAtlas.Json
