import CrateAtlas.Proofs.AtlasWellFormed
import CrateAtlas.Proofs.FiniteNumbers

/-!
Coverage is finite. Reading a text keeps all numbers of the tree that is being built finite, and the
percentages of a report, of a map and of an atlas are such numbers.
-/

namespace CrateAtlas

namespace Json

inductive Node.Finite : Node → Prop where
  | null : Finite .null
  | bool (value : Bool) : Finite (.bool value)
  | number {value : Option Number} (finite : ∀ number ∈ value, number.toDouble.isFinite = true) :
      Finite (.number value)
  | string (value : Option String) : Finite (.string value)
  | array {items : List Node} (whole : Bool) (finite : ∀ item ∈ items, item.Finite) :
      Finite (.array items whole)
  | object {members : List (Option String × Node)} (whole : Bool)
      (finite : ∀ member ∈ members, member.2.Finite) : Finite (.object members whole)
  | fault : Finite .fault

def Frame.Finite : Frame → Prop
  | array items => ∀ item ∈ items, item.Finite
  | object members => ∀ member ∈ members, member.2.Finite
  | member members _ => ∀ member ∈ members, member.2.Finite

namespace State

structure Finite (state : State) : Prop where
  stack : ∀ frame ∈ state.stack, frame.Finite
  result : ∀ node ∈ state.result, node.Finite
  word : ∀ left node, state.mode = .word left node → node.Finite

namespace Finite

variable {state : State}

private theorem start : State.start.Finite :=
  ⟨List.forall_mem_nil _, fun _ => nofun, fun _ _ => nofun⟩

/-- Nothing but the mode changes, and no word is begun. -/
theorem goOn (finite : state.Finite) {mode : Mode} (plain : ∀ left node, mode ≠ .word left node) :
    ({ state with mode } : State).Finite :=
  ⟨finite.stack, finite.result, fun left node same => absurd same (plain left node)⟩

theorem push (finite : state.Finite) {node : Node} (finite' : node.Finite) :
    (state.push node).Finite := by
  have stack := finite.stack
  unfold State.push
  split
  · exact ⟨finite.stack, fun _ same => Option.some.inj same ▸ finite', fun _ _ => nofun⟩
  · next items outer shape =>
    rw [shape, List.forall_mem_cons] at stack
    refine ⟨List.forall_mem_cons.mpr ⟨?_, stack.2⟩, finite.result, fun _ _ => nofun⟩
    exact List.forall_mem_cons.mpr ⟨finite', stack.1⟩
  · next members key outer shape =>
    rw [shape, List.forall_mem_cons] at stack
    refine ⟨List.forall_mem_cons.mpr ⟨?_, stack.2⟩, finite.result, fun _ _ => nofun⟩
    exact List.forall_mem_cons.mpr ⟨finite', stack.1⟩
  · exact finite.goOn nofun

private theorem openValue (finite : state.Finite) (c : Char) : (state.openValue c).Finite := by
  unfold State.openValue
  split
  · exact finite.goOn nofun
  · refine ⟨List.forall_mem_cons.mpr ⟨?_, finite.stack⟩, finite.result, fun _ _ => nofun⟩
    exact List.forall_mem_nil _
  · refine ⟨List.forall_mem_cons.mpr ⟨?_, finite.stack⟩, finite.result, fun _ _ => nofun⟩
    exact List.forall_mem_nil _
  · exact finite.goOn nofun
  · exact ⟨finite.stack, finite.result, fun _ _ same => (Mode.word.inj same).2 ▸ .bool true⟩
  · exact ⟨finite.stack, finite.result, fun _ _ same => (Mode.word.inj same).2 ▸ .bool false⟩
  · exact ⟨finite.stack, finite.result, fun _ _ same => (Mode.word.inj same).2 ▸ .null⟩
  · split
    · exact finite.goOn nofun
    · exact finite.goOn nofun

theorem closeArray (finite : state.Finite) : state.closeArray.Finite := by
  have stack := finite.stack
  unfold State.closeArray
  split
  · next items outer shape =>
    rw [shape, List.forall_mem_cons] at stack
    have inner : ({ state with stack := outer } : State).Finite := ⟨stack.2, finite.result, finite.word⟩
    exact inner.push (.array true fun item member => stack.1 item (List.mem_reverse.mp member))
  · exact finite.goOn nofun

theorem closeObject (finite : state.Finite) : state.closeObject.Finite := by
  have stack := finite.stack
  unfold State.closeObject
  split
  · next members outer shape =>
    rw [shape, List.forall_mem_cons] at stack
    have inner : ({ state with stack := outer } : State).Finite := ⟨stack.2, finite.result, finite.word⟩
    exact inner.push (.object true fun member there => stack.1 member (List.mem_reverse.mp there))
  · exact finite.goOn nofun

private theorem afterValue (finite : state.Finite) (c : Char) : (state.afterValue c).Finite := by
  unfold State.afterValue
  split
  · exact finite
  · split
    · exact ⟨finite.stack, finite.result, finite.word⟩
    · split
      · exact finite.goOn nofun
      · split
        · exact finite.closeArray
        · exact finite.goOn nofun
    · split
      · exact finite.goOn nofun
      · split
        · exact finite.closeObject
        · exact finite.goOn nofun
    · exact finite.goOn nofun

private theorem closeString (finite : state.Finite) (isKey : Bool) (units : List Unit16) :
    (state.closeString isKey units).Finite := by
  have stack := finite.stack
  unfold State.closeString
  split
  · split
    · next members outer shape =>
      rw [shape, List.forall_mem_cons] at stack
      exact ⟨List.forall_mem_cons.mpr stack, finite.result, fun _ _ => nofun⟩
    · exact finite.goOn nofun
  · exact finite.push (.string _)

private theorem inString (finite : state.Finite) (isKey : Bool) (units : List Unit16) (c : Char)
    (mode : StringMode) : (state.inString isKey units c mode).Finite := by
  cases mode with
  | plain =>
    rw [State.inString]
    split
    · exact finite.closeString isKey units
    · split
      · exact finite.goOn nofun
      · split <;> exact finite.goOn nofun
  | escape =>
    rw [State.inString]
    split
    · exact finite.goOn nofun
    · split <;> exact finite.goOn nofun
  | code left value =>
    rw [State.inString]
    split
    · exact finite.goOn nofun
    · split <;> exact finite.goOn nofun

/-- A character keeps all numbers finite, also where it ends one. -/
theorem step (finite : state.Finite) (c : Char) : (state.step c).Finite := by
  unfold State.step
  split
  · split
    · exact finite
    · exact finite.openValue c
  · split
    · exact finite
    · split
      · exact finite.closeArray
      · exact finite.openValue c
  · split
    · exact finite
    · split
      · exact finite.goOn nofun
      · split
        · exact finite.closeObject
        · exact finite.goOn nofun
  · split
    · exact finite
    · split <;> exact finite.goOn nofun
  · split
    · exact finite
    · split <;> exact finite.goOn nofun
  · exact finite.afterValue c
  · exact finite.inString _ _ c _
  · split
    · exact finite.goOn nofun
    · split
      · exact (finite.push (.number fun _ => NumberText.value?_finite)).afterValue c
      · exact finite.goOn nofun
  · next left node mode =>
    have word := finite.word left node mode
    split
    · exact (finite.push word).afterValue c
    · split
      · split
        · exact finite.push word
        · exact ⟨finite.stack, finite.result, fun _ _ same => (Mode.word.inj same).2 ▸ word⟩
      · exact finite.goOn nofun
  · exact finite

private theorem foldl (finite : state.Finite) (text : List Char) : (text.foldl State.step state).Finite := by
  induction text generalizing state with
  | nil => exact finite
  | cons c rest ih => exact ih (finite.step c)

private theorem unwind {fault : Option Node} {stack : List Frame} (finite : ∀ node ∈ fault, node.Finite)
    (frames : ∀ frame ∈ stack, frame.Finite) : (State.unwind fault stack).Finite := by
  have broken : (fault.getD .fault).Finite := by
    cases fault with
    | none => exact .fault
    | some node => exact finite node rfl
  induction stack generalizing fault with
  | nil => exact broken
  | cons frame outer ih =>
    rw [List.forall_mem_cons] at frames
    cases frame with
    | array items =>
      have inner : (Node.array (fault.toList ++ items).reverse false).Finite := by
        refine .array false fun item member => ?_
        rcases List.mem_append.mp (List.mem_reverse.mp member) with faulty | before
        · exact finite item (Option.mem_toList.mp faulty)
        · exact frames.1 item before
      exact ih (fun _ same => Option.some.inj same ▸ inner) frames.2 inner
    | object members =>
      have inner : (Node.object members.reverse false).Finite :=
        .object false fun member there => frames.1 member (List.mem_reverse.mp there)
      exact ih (fun _ same => Option.some.inj same ▸ inner) frames.2 inner
    | member members key =>
      have inner : (Node.object ((key, fault.getD .fault) :: members).reverse false).Finite := by
        refine .object false fun member there => ?_
        rcases List.mem_cons.mp (List.mem_reverse.mp there) with rfl | before
        · exact broken
        · exact frames.1 member before
      exact ih (fun _ same => Option.some.inj same ▸ inner) frames.2 inner

private theorem finish (finite : state.Finite) : state.finish.value.Finite := by
  have faulty : ∀ node ∈ some Node.fault, node.Finite := fun _ same => Option.some.inj same ▸ .fault
  have clean : ∀ node ∈ (none : Option Node), node.Finite := fun _ => nofun
  unfold State.finish
  split
  · split
    · next node found => exact finite.result node found
    · exact unwind clean finite.stack
  · next mode text _ =>
    split
    · have number : (Node.number text.value?).Finite := .number fun _ => NumberText.value?_finite
      have pushed := finite.push number
      dsimp only
      split
      · next node found => exact pushed.result node found
      · exact unwind clean pushed.stack
    · exact unwind faulty finite.stack
  · exact unwind faulty finite.stack
  · exact unwind faulty finite.stack
  · exact unwind faulty finite.stack
  · exact unwind clean finite.stack
  · exact unwind clean finite.stack
  · exact unwind clean finite.stack
  · split
    · exact unwind clean finite.stack
    · exact unwind faulty finite.stack
  · split
    · exact unwind faulty finite.stack
    · exact unwind clean finite.stack

end Finite

end State

inductive Value.Finite : Value → Prop where
  | null : Finite .null
  | bool (value : Bool) : Finite (.bool value)
  | number {value : Number} (finite : value.toDouble.isFinite = true) : Finite (.number value)
  | string (value : String) : Finite (.string value)
  | array {items : List Value} (finite : ∀ item ∈ items, item.Finite) : Finite (.array items)
  | object {members : List (String × Value)} (finite : ∀ member ∈ members, member.2.Finite) :
      Finite (.object members)

private theorem Node.strictItems_finite {depth : Nat} {items : List Node} {values : List Value}
    (finite : ∀ item ∈ items, ∀ value, item.strict depth = .ok value → value.Finite)
    (kept : strictItems depth items = .ok values) : ∀ value ∈ values, value.Finite := by
  induction items generalizing values with
  | nil =>
    cases kept
    exact List.forall_mem_nil _
  | cons item rest ih =>
    rw [List.forall_mem_cons] at finite
    obtain ⟨value, first, kept⟩ := bind_ok kept
    obtain ⟨values, others, kept⟩ := bind_ok kept
    cases kept
    exact List.forall_mem_cons.mpr ⟨finite.1 value first, ih finite.2 others⟩

private theorem Node.strictMembers_finite {depth : Nat} {members : List (Option String × Node)}
    {values : List (String × Value)}
    (finite : ∀ member ∈ members, ∀ value, member.2.strict depth = .ok value → value.Finite)
    (kept : strictMembers depth members = .ok values) : ∀ member ∈ values, member.2.Finite := by
  induction members generalizing values with
  | nil =>
    cases kept
    exact List.forall_mem_nil _
  | cons member rest ih =>
    obtain ⟨key, node⟩ := member
    rw [List.forall_mem_cons] at finite
    cases key with
    | none => cases kept
    | some key =>
      obtain ⟨value, first, kept⟩ := bind_ok kept
      obtain ⟨values, others, kept⟩ := bind_ok kept
      cases kept
      exact List.forall_mem_cons.mpr ⟨finite.1 value first, ih finite.2 others⟩

private theorem Node.Finite.strict {node : Node} (finite : node.Finite) {depth : Nat} {value : Value}
    (kept : node.strict depth = .ok value) : value.Finite := by
  induction finite generalizing depth value with
  | null =>
    cases kept
    exact .null
  | bool value =>
    cases kept
    exact .bool _
  | @number number finite =>
    cases number with
    | none => cases kept
    | some number =>
      cases kept
      exact .number (finite number rfl)
  | string text =>
    cases text with
    | none => cases kept
    | some text =>
      cases kept
      exact .string text
  | array whole finite ih =>
    rw [Node.strict] at kept
    split at kept
    · cases kept
    · obtain ⟨values, items, kept⟩ := bind_ok kept
      cases whole with
      | false => cases kept
      | true =>
        cases kept
        exact .array (strictItems_finite (fun item member value => ih item member) items)
  | object whole finite ih =>
    rw [Node.strict] at kept
    split at kept
    · cases kept
    · obtain ⟨values, members, kept⟩ := bind_ok kept
      cases whole with
      | false => cases kept
      | true =>
        cases kept
        exact .object (strictMembers_finite (fun member there value => ih member there) members)
  | fault => cases kept

namespace Value.Finite

variable {value : Value}

private theorem of_lookup {members : List (String × Value)} (finite : ∀ member ∈ members, member.2.Finite)
    {field : String} (found : members.lookup field = some value) : value.Finite := by
  obtain ⟨front, back, rfl, _⟩ := List.lookup_eq_some_iff.mp found
  exact finite (field, value) (by simp)

theorem record? {fields : List String} {get : String → Option Value} (finite : value.Finite)
    (known : value.record? fields = some get) {field : String} {inner : Value}
    (found : get field = some inner) : inner.Finite := by
  cases finite with
  | array finite =>
    rw [Value.record?] at known
    split at known
    · cases known
      refine of_lookup (fun member there => ?_) found
      exact finite _ (List.of_mem_zip there).2
    · cases known
  | object finite =>
    rw [Value.record?] at known
    split at known
    · cases known
      exact of_lookup finite found
    · cases known
  | _ => cases known

theorem only? {field : String} {inner : Value} (finite : value.Finite)
    (found : value.only? field = some inner) : inner.Finite := by
  obtain ⟨get, known, found⟩ := Option.bind_eq_some_iff.mp found
  exact finite.record? known found

theorem items? {items : List Value} (finite : value.Finite) (listed : value.items? = some items) :
    ∀ item ∈ items, item.Finite := by
  cases finite with
  | array finite =>
    cases listed
    exact finite
  | _ => cases listed

theorem double? {x : Double} (finite : value.Finite) (measured : value.double? = some x) :
    x.isFinite = true := by
  cases finite with
  | number finite =>
    cases measured
    exact finite
  | _ => cases measured

end Value.Finite

end Json

namespace CoverageReport

open Json

variable {value : Json.Value}

def Finite (report : CoverageReport) : Prop :=
  ∀ entry ∈ report.percentages, entry.2.isFinite = true

/-- A text is read as an export or else as a summary. -/
theorem ofText_ok {text : String} {report : CoverageReport} (read : ofText text = .ok report) :
    ∃ value, (Json.read text).value.strict maxDepth = .ok value ∧
      (export? value = some report ∨ summary? value = some report) := by
  unfold ofText at read
  cases decoded : decode ofJson text with
  | error error =>
    rw [decoded] at read
    cases read
  | ok known =>
    rw [decoded] at read
    cases read
    obtain ⟨result, made, rest⟩ := bind_ok decoded
    obtain ⟨value, kept, made⟩ := bind_ok made
    have same : result = report := by
      split at rest
      · cases rest
      · exact Except.ok.inj rest
    subst same
    refine ⟨value, kept, ?_⟩
    split at made
    · next report found =>
      cases made
      cases exported : export? value with
      | some first =>
        rw [exported] at found
        exact .inl found
      | none =>
        rw [exported] at found
        exact .inr found
    · cases made

end CoverageReport

namespace CoverageMap

def Finite (coverage : CoverageMap) : Prop :=
  ∀ entry ∈ coverage.entries, entry.2.isFinite = true

private theorem Finite.insert {coverage : CoverageMap} (finite : coverage.Finite) (path : Path)
    {percent : Double} (finite' : percent.isFinite = true) : (coverage.insert path percent).Finite := by
  intro entry member
  unfold CoverageMap.insert at member
  split at member
  · obtain ⟨old, there, rfl⟩ := List.mem_map.mp member
    split
    · exact finite'
    · exact finite old there
  · rcases List.mem_append.mp member with before | last
    · exact finite entry before
    · rw [List.mem_singleton.mp last]
      exact finite'

private theorem Finite.get? {coverage : CoverageMap} (finite : coverage.Finite) {path : Path}
    {percent : Double} (found : coverage.get? path = some percent) : percent.isFinite = true := by
  obtain ⟨entry, there, rfl⟩ := Option.map_eq_some_iff.mp found
  exact finite entry (List.mem_of_find?_eq_some there)

end CoverageMap

end CrateAtlas
