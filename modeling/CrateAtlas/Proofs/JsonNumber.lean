import CrateAtlas.Json.Decode

/-!
Reading numbers back. A number is scanned character by character, and only the character behind it
tells that it is complete. What is written for a natural number of at most 64 bits is scanned to that
number; what is written for a double holds nothing that could end a number early.
-/

namespace CrateAtlas.Json

namespace NumberMode

def scan : List Char → NumberMode → NumberText → Option (NumberMode × NumberText)
  | [], mode, text => some (mode, text)
  | c :: rest, mode, text => (mode.next? text c).bind fun (mode, text) => scan rest mode text

private theorem scan_append (first second : List Char) (mode : NumberMode) (text : NumberText) :
    scan (first ++ second) mode text =
      (scan first mode text).bind fun (mode, text) => scan second mode text := by
  induction first generalizing mode text with
  | nil => rfl
  | cons c rest ih =>
    simp only [List.cons_append, scan, Option.bind_assoc]
    congr 1
    funext ⟨mode, text⟩
    exact ih mode text

end NumberMode

private theorem digit?_digitChar {digit : Nat} (small : digit < 10) :
    digit? digit.digitChar = some digit := by
  rw [digit?, Nat.isDigit_digitChar, decide_eq_true small, if_pos rfl]
  exact congrArg some (Nat.toNat_digitChar_sub_48_of_lt_ten small)

private theorem gather_append {limit value total digit : Nat} {digits : List Nat}
    (gathered : gather limit value digits = (total, [])) (fits : total * 10 + digit ≤ limit) :
    gather limit value (digits ++ [digit]) = (total * 10 + digit, []) := by
  induction digits generalizing value with
  | nil =>
    cases gathered
    simp [gather, fits]
  | cons first rest ih =>
    rw [gather] at gathered
    split at gathered
    next within =>
      rw [List.cons_append, gather, if_pos within]
      exact ih gathered
    next beyond => simp at gathered

/-- The digits of a natural number are scanned to that number. -/
theorem scan_toDigits (value : Nat) :
    ∃ mode digits, NumberMode.scan (Nat.toDigits 10 value) .sign ⟨false, [], none, none⟩ =
        some (mode, ⟨false, digits, none, none⟩) ∧
      (mode = .whole ∨ mode = .zero ∧ value = 0) ∧
      ∀ limit, value ≤ limit → gather limit 0 digits = (value, []) := by
  induction value using Nat.base_induction 10 (by decide) with
  | single digit small =>
    have read := digit?_digitChar small
    rw [Nat.toDigits_of_lt_base small]
    cases digit with
    | zero =>
      refine ⟨.zero, [0], ?_, .inr ⟨rfl, rfl⟩, ?_⟩
      · simp [NumberMode.scan, NumberMode.next?, read]
      · intro limit fits
        simp [gather]
    | succ digit =>
      refine ⟨.whole, [digit + 1], ?_, .inl rfl, ?_⟩
      · simp [NumberMode.scan, NumberMode.next?, read]
      · intro limit fits
        simp [gather, fits]
  | digit start digit small positive ih =>
    obtain ⟨mode, digits, scanned, shape, gathered⟩ := ih
    have whole : mode = .whole := by
      rcases shape with whole | ⟨_, zero⟩
      · exact whole
      · omega
    subst whole
    refine ⟨.whole, digits ++ [digit], ?_, .inl rfl, ?_⟩
    · rw [← Nat.toDigits_append_toDigits (by decide) positive small, NumberMode.scan_append, scanned,
        Nat.toDigits_of_lt_base small]
      simp [NumberMode.scan, NumberMode.next?, digit?_digitChar small]
    · intro limit fits
      have appended := gather_append (gathered limit (by omega)) (by omega : start * 10 + digit ≤ limit)
      rw [appended, Nat.mul_comm]

def begin? (c : Char) : Option (NumberMode × NumberText) :=
  if c = '-' then some (.sign, ⟨true, [], none, none⟩)
  else NumberMode.sign.next? ⟨false, [], none, none⟩ c

/-- Some characters are those of a number, which has a value or is too large. -/
inductive Spells : List Char → Option Number → Prop where
  | intro {first : Char} {rest : List Char} {mode final : NumberMode} {text whole : NumberText}
      (begins : begin? first = some (mode, text))
      (scanned : NumberMode.scan rest mode text = some (final, whole))
      (complete : final.isComplete = true) : Spells (first :: rest) whole.value?

theorem spells_natural {value : Nat} (fits : value ≤ maxNatural) :
    Spells (toString value).toList (some (.natural value)) := by
  obtain ⟨mode, digits, scanned, shape, gathered⟩ := scan_toDigits value
  have number : NumberText.value? ⟨false, digits, none, none⟩ = some (.natural value) := by
    simp [NumberText.value?, gathered maxNatural fits]
  have complete : mode.isComplete = true := by
    rcases shape with rfl | ⟨rfl, _⟩ <;> rfl
  rw [← number]
  change Spells (Nat.repr value).toList _
  rw [Nat.toList_repr]
  cases written : Nat.toDigits 10 value with
  | nil => exact absurd written Nat.toDigits_ne_nil
  | cons first rest =>
    rw [written, NumberMode.scan] at scanned
    obtain ⟨⟨begun, text⟩, begins, scanned⟩ := Option.bind_eq_some_iff.mp scanned
    have digit : first.isDigit = true :=
      Nat.isDigit_of_mem_toDigits (by decide) (by decide) (written ▸ List.mem_cons_self)
    have unsigned : first ≠ '-' := by
      rintro rfl
      cases digit
    exact .intro (by rw [begin?, if_neg unsigned, begins]) scanned complete

def isNumberChar (c : Char) : Bool :=
  c.isDigit || c == '-' || c == '+' || c == '.' || c == 'e'

theorem isNumberChar_of_begins {c : Char} {begun : NumberMode × NumberText}
    (begins : begin? c = some begun) : isNumberChar c = true := by
  unfold begin? at begins
  split at begins
  next sign => simp [isNumberChar, sign]
  next unsigned =>
    cases digit : c.isDigit with
    | true => simp [isNumberChar, digit]
    | false => simp [NumberMode.next?, digit?, digit] at begins

theorem not_blank_of_isNumberChar {c : Char} (numeric : isNumberChar c = true) :
    isBlank c = false := by
  rw [Bool.eq_false_iff]
  intro blank
  simp only [isBlank, Bool.or_eq_true, beq_iff_eq] at blank
  rcases blank with ((rfl | rfl) | rfl) | rfl <;> cases numeric

def Numeric (text : String) : Prop :=
  ∀ c ∈ text.toList, isNumberChar c = true

theorem Numeric.append {first second : String} (left : Numeric first) (right : Numeric second) :
    Numeric (first ++ second) := by
  intro c member
  rw [String.toList_append, List.mem_append] at member
  rcases member with early | late
  · exact left c early
  · exact right c late

private theorem Numeric.part {text : String} {chars : List Char} (numeric : Numeric text)
    (within : chars ⊆ text.toList) : Numeric (String.ofList chars) := by
  intro c member
  rw [String.toList_ofList] at member
  exact numeric c (within member)

theorem numeric_natural (value : Nat) : Numeric (toString value) := by
  intro c member
  have digit : c ∈ Nat.toDigits 10 value := Nat.toList_repr ▸ member
  simp [isNumberChar, Nat.isDigit_of_mem_toDigits (by decide) (by decide) digit]

private theorem numeric_integer (value : Int) : Numeric (toString value) := by
  cases value with
  | ofNat value => exact numeric_natural value
  | negSucc value =>
    have sign : Numeric "-" := by
      intro c member
      simp_all [isNumberChar]
    exact sign.append (numeric_natural (value + 1))

private theorem numeric_zeros (count : Nat) : Numeric (Double.zeros count) := by
  intro c member
  rw [Double.zeros, String.toList_ofList] at member
  rw [List.eq_of_mem_replicate member]
  decide

private theorem numeric_render (digits : Double.Digits) : Numeric digits.render := by
  have text := numeric_natural digits.digits
  have point : Numeric "." := by simp [Numeric, isNumberChar]
  have single {c : Char} (member : c ∈ (toString digits.digits).toList) :
      Numeric (String.singleton c) := by
    simpa [Numeric] using text c member
  unfold Double.Digits.render
  simp only
  split
  · exact (text.append (numeric_zeros _)).append (by simp [Numeric, isNumberChar])
  split
  · exact ((text.part (List.take_subset _ _)).append point).append
      (text.part (List.drop_subset _ _))
  split
  · exact (Numeric.append (by simp [Numeric, isNumberChar]) (numeric_zeros _)).append text
  · have mark (exponent : Int) :
        Numeric ((if 0 < exponent then "e+" else "e") ++ toString (exponent - 1)) := by
      refine Numeric.append ?_ (numeric_integer _)
      split <;> simp [Numeric, isNumberChar]
    split
    next => simp [Numeric]
    next first written => exact (single (written ▸ List.mem_cons_self)).append (mark _)
    next first rest more written =>
      have others : rest ⊆ (toString digits.digits).toList := written ▸ List.subset_cons_self _ _
      have head := single (written ▸ List.mem_cons_self)
      exact ((head.append point).append (text.part others)).append (mark _)

theorem numeric_shortest (x : Double) : Numeric x.shortest := by
  have sign : Numeric (if x.isNegative then "-" else "") := by
    split <;> simp [Numeric, isNumberChar]
  unfold Double.shortest
  simp only
  split
  · exact sign.append (by simp [Numeric, isNumberChar])
  · exact sign.append (numeric_render _)

namespace State

theorem foldl_number {chars : List Char} {mode final : NumberMode} {text whole : NumberText}
    (scanned : NumberMode.scan chars mode text = some (final, whole)) (state : State) :
    chars.foldl step { state with mode := .number mode text } =
      { state with mode := .number final whole } := by
  induction chars generalizing mode text with
  | nil =>
    cases scanned
    rfl
  | cons c rest ih =>
    obtain ⟨⟨next, longer⟩, goes, scanned⟩ := Option.bind_eq_some_iff.mp scanned
    rw [List.foldl_cons]
    have stepped : step { state with mode := .number mode text } c =
        { state with mode := .number next longer } := by
      simp [step, goes]
    rw [stepped]
    exact ih scanned

theorem foldl_faulty (chars : List Char) (state : State) (atValue : Bool) :
    chars.foldl step { state with mode := .faulty atValue } =
      { state with mode := .faulty atValue } := by
  induction chars with
  | nil => rfl
  | cons c rest ih => exact ih

theorem openValue_number {c : Char} {mode : NumberMode} {text : NumberText}
    (begins : begin? c = some (mode, text)) (state : State) :
    openValue state c = { state with mode := .number mode text } := by
  unfold openValue
  split
  -- the other characters that a value may begin with are not those of a number
  case h_4 =>
    cases begins
    rfl
  case h_8 unsigned _ _ _ =>
    rw [begin?, if_neg unsigned] at begins
    rw [begins]
  all_goals cases begins

private theorem openValue_faulty {c : Char} (numeric : isNumberChar c = true) (stops : begin? c = none)
    (state : State) : openValue state c = { state with mode := .faulty true } := by
  unfold openValue
  split
  case h_4 => cases stops
  case h_8 unsigned _ _ _ =>
    rw [begin?, if_neg unsigned] at stops
    rw [stops]
  all_goals cases numeric

private theorem foldl_trailing (chars : List Char) (node : Node) :
    chars.foldl step ⟨[], .afterValue, some node, true⟩ = ⟨[], .afterValue, some node, true⟩ := by
  induction chars with
  | nil => rfl
  | cons c rest ih =>
    have stepped : step ⟨[], .afterValue, some node, true⟩ c = ⟨[], .afterValue, some node, true⟩ := by
      simp [step, afterValue]
    rw [List.foldl_cons, stepped, ih]

/-- A whole text that goes on where a number cannot go on is refused. -/
theorem finish_of_scan_none {chars : List Char} {mode : NumberMode} {text : NumberText}
    (numeric : ∀ c ∈ chars, isNumberChar c = true)
    (stops : NumberMode.scan chars mode text = none) :
    (chars.foldl step { start with mode := .number mode text }).finish.trailing = true ∨
      (chars.foldl step { start with mode := .number mode text }).finish.value = .fault := by
  induction chars generalizing mode text with
  | nil => cases stops
  | cons c rest ih =>
    have blank := not_blank_of_isNumberChar (numeric c List.mem_cons_self)
    rw [List.foldl_cons]
    cases goes : mode.next? text c with
    | some next =>
      have stepped : step { start with mode := .number mode text } c =
          { start with mode := .number next.1 next.2 } := by
        simp [step, goes]
      rw [NumberMode.scan, goes] at stops
      rw [stepped]
      exact ih (fun other member => numeric other (List.mem_cons_of_mem c member)) stops
    | none =>
      by_cases ended : (mode.isComplete && !(mode == .zero && c.isDigit)) = true
      · have stepped : step { start with mode := .number mode text } c =
            ⟨[], .afterValue, some (.number text.value?), true⟩ := by
          simp only [step, goes, ended, if_true]
          simp [afterValue, push, start, blank]
        rw [stepped, foldl_trailing]
        exact .inl rfl
      · have stepped : step { start with mode := .number mode text } c =
            { start with mode := .faulty true } := by
          simp only [step, goes, ended, Bool.false_eq_true, if_false]
        rw [stepped, foldl_faulty]
        exact .inr rfl

end State

theorem decode_eq_ok_iff {α : Type} {decoder : Node → Decode α} {text : String} {result : α} :
    decode decoder text = .ok result ↔
      decoder (read text).value = .ok result ∧ (read text).trailing = false := by
  simp only [decode]
  generalize read text = reading
  cases decoder reading.value with
  | error error => simp [bind, Except.bind]
  | ok value =>
    cases reading.trailing with
    | true => simp [bind, Except.bind, throw, throwThe, MonadExceptOf.throw]
    | false => simp [bind, Except.bind, pure, Except.pure]

theorem double_eq_ok_iff {node : Node} {x : Double} :
    node.double = .ok x ↔ ∃ number, node = .number (some number) ∧ number.toDouble = x := by
  cases node with
  | number value =>
    cases value with
    | none => simp [Node.double, Node.reject, throw, throwThe, MonadExceptOf.throw]
    | some number => simp [Node.double, pure, Except.pure]
  | string value => cases value <;> simp [Node.double, Node.reject, throw, throwThe, MonadExceptOf.throw]
  | _ => simp [Node.double, Node.reject, throw, throwThe, MonadExceptOf.throw]

/-- The text of a number that reads as a double by itself spells that double. -/
theorem spells_of_decode {text : String} {x : Double} (numeric : Numeric text)
    (decoded : decode Node.double text = .ok x) :
    ∃ number, Spells text.toList (some number) ∧ number.toDouble = x := by
  obtain ⟨decoded, alone⟩ := decode_eq_ok_iff.mp decoded
  obtain ⟨number, value, equal⟩ := double_eq_ok_iff.mp decoded
  refine ⟨number, ?_, equal⟩
  unfold read at value alone
  unfold Numeric at numeric
  cases chars : text.toList with
  | nil =>
    rw [chars] at value
    cases value
  | cons first rest =>
    rw [chars] at value alone numeric
    have blank := not_blank_of_isNumberChar (numeric first List.mem_cons_self)
    have opened : State.step .start first = State.openValue .start first := by
      simp [State.step, State.start, blank]
    rw [List.foldl_cons, opened] at value alone
    cases begins : begin? first with
    | none =>
      rw [State.openValue_faulty (numeric first List.mem_cons_self) begins, State.foldl_faulty] at value
      cases value
    | some begun =>
      rw [State.openValue_number begins] at value alone
      cases scanned : NumberMode.scan rest begun.1 begun.2 with
      | none =>
        have rejected := State.finish_of_scan_none
          (fun c member => numeric c (List.mem_cons_of_mem first member)) scanned
        rw [value, alone] at rejected
        simp at rejected
      | some result =>
        obtain ⟨final, whole⟩ := result
        rw [State.foldl_number scanned] at value
        cases complete : final.isComplete with
        | false => simp [State.finish, complete, State.start, State.unwind] at value
        | true =>
          have spelled : whole.value? = some number := by
            simpa [State.finish, complete, State.start, State.push] using value
          exact spelled ▸ .intro begins scanned complete

end CrateAtlas.Json
