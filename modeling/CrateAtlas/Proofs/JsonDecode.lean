import CrateAtlas.Proofs.JsonText

/-!
Decoding what was written. Each way to write a value goes with a decoder: numbers, texts and lists
with those of their kind, and an object with a step that notes one member after the other in a draft.
-/

namespace CrateAtlas.Json

variable {α β σ : Type}

attribute [local simp] Value.renderAt

/-- A value is written so that a decoder gets something out of what is read. -/
def Decodes (value : Value) (decoder : Node → Decode α) (x : α) : Prop :=
  ∃ node, value.ReadsAs node ∧ decoder node = .ok x

theorem decodes_natural {value : Nat} (fits : value ≤ maxNatural) :
    Decodes (.natural value) Node.natural value := by
  refine ⟨.number (some (.natural value)), fun level => ?_, rfl⟩
  simpa [Value.natural, Number.render] using Reads.of_spells (spells_natural fits)

theorem readsAs_string (text : String) : Value.ReadsAs (.string text) (.string (some text)) := by
  intro level
  simpa using Reads.quote text

theorem decodes_text (text : String) : Decodes (.string text) Node.text text :=
  ⟨_, readsAs_string text, rfl⟩

theorem decodes_strict (text : String) (depth : Nat) :
    Decodes (.string text) (Node.strict depth) (.string text) :=
  ⟨_, readsAs_string text, by simp [Node.strict, pure, Except.pure]⟩

/-- A number that reads back by itself is decoded as itself. -/
theorem decodes_double {x : Double} (finite : x.isFinite = true)
    (readsBack : decode Node.double x.shortest = .ok x) :
    Decodes (.number (.double x)) Node.double x := by
  obtain ⟨number, spells, equal⟩ := spells_of_decode (numeric_shortest x) readsBack
  refine ⟨.number (some number), fun level => ?_, double_eq_ok_iff.mpr ⟨number, rfl, equal⟩⟩
  simpa [Number.render, finite] using Reads.of_spells spells

theorem decodes_infinite {x : Double} (infinite : x.isFinite = false)
    (decoder : Node → Decode α) :
    Decodes (.number (.double x)) (Node.orNull decoder) none := by
  refine ⟨.null, fun level => ?_, rfl⟩
  simpa [Number.render, infinite] using Reads.null

/-- A decoder that does not take `null` gets the same value where `null` is possible. -/
theorem Decodes.orNull {value : Value} {decoder : Node → Decode α} {x : α}
    (decodes : Decodes value decoder x) (refuses : decoder .null = .error .mismatched) :
    Decodes value (Node.orNull decoder) (some x) := by
  obtain ⟨node, reads, decoded⟩ := decodes
  refine ⟨node, reads, ?_⟩
  cases node with
  | null => cases refuses.symm.trans decoded
  | _ => simp [Node.orNull, decoded]

theorem decodes_list {write : β → Value} {decoder : Node → Decode α} {f : β → α} {items : List β}
    (each : ∀ item ∈ items, Decodes (write item) decoder (f item)) :
    Decodes (.list write items) (Node.list decoder) (items.map f) := by
  have nodes : ∃ nodes, List.Forall₂ Value.ReadsAs (items.map write) nodes ∧
      nodes.mapM decoder = .ok (items.map f) := by
    induction items with
    | nil => exact ⟨[], .nil, rfl⟩
    | cons item items ih =>
      obtain ⟨node, reads, decoded⟩ := each item List.mem_cons_self
      obtain ⟨nodes, all, mapped⟩ := ih fun other member => each other (List.mem_cons_of_mem item member)
      refine ⟨node :: nodes, .cons reads all, ?_⟩
      simp [decoded, mapped, bind, Except.bind, pure, Except.pure]
  obtain ⟨nodes, reads, mapped⟩ := nodes
  refine ⟨.array nodes true, Value.readsAs_array reads, ?_⟩
  simp [Node.list, mapped, bind, Except.bind, pure, Except.pure]

theorem decodes_list_self {write : α → Value} {decoder : Node → Decode α} {items : List α}
    (each : ∀ item ∈ items, Decodes (write item) decoder item) :
    Decodes (.list write items) (Node.list decoder) items := by
  have mapped : Decodes (.list write items) (Node.list decoder) (items.map id) := decodes_list each
  rwa [List.map_id] at mapped

def Notes (step : σ → String → Node → Decode σ) (draft : σ) (members : List (String × Value))
    (final : σ) : Prop :=
  ∃ nodes, List.Forall₂ Value.MemberReadsAs members nodes ∧
    Node.foldMembers step draft nodes = .ok final

namespace Notes

variable {step : σ → String → Node → Decode σ} {draft middle final : σ}

theorem nil (step : σ → String → Node → Decode σ) (draft : σ) : Notes step draft [] draft :=
  ⟨[], .nil, rfl⟩

theorem append {first second : List (String × Value)} (left : Notes step draft first middle)
    (right : Notes step middle second final) : Notes step draft (first ++ second) final := by
  obtain ⟨before, readBefore, foldedBefore⟩ := left
  obtain ⟨behind, readBehind, foldedBehind⟩ := right
  refine ⟨before ++ behind, List.rel_append readBefore readBehind, ?_⟩
  simp only [Node.foldMembers, List.foldlM_append] at foldedBefore foldedBehind ⊢
  rw [foldedBefore]
  exact foldedBehind

theorem cons {key : String} {value : Value} {members : List (String × Value)}
    (first : Decodes value (step draft key) middle) (rest : Notes step middle members final) :
    Notes step draft ((key, value) :: members) final := by
  obtain ⟨node, reads, noted⟩ := first
  have single : Notes step draft [(key, value)] middle :=
    ⟨[(some key, node)], .cons ⟨rfl, reads⟩ .nil, by simp [Node.foldMembers, noted]⟩
  exact single.append rest

end Notes

/-- A member whose slot is empty is noted. -/
theorem Decodes.once {step : σ → String → Node → Decode σ} {draft : σ} {key : String} {value : Value}
    {decoder : Node → Decode α} {x : α} (decodes : Decodes value decoder x)
    (put : σ → Option α → σ)
    (noted : ∀ node, step draft key node = do return put draft (← Node.once none (decoder node))) :
    Decodes value (step draft key) (put draft (some x)) := by
  obtain ⟨node, reads, decoded⟩ := decodes
  refine ⟨node, reads, ?_⟩
  rw [noted, decoded]
  rfl

theorem decodes_struct {fields : List String} {step : σ → String → Node → Decode σ} {start : σ}
    {complete : σ → Option α} {members : List (String × Value)} {x : α} (final : σ)
    (notes : Notes step start members final) (completed : complete final = some x) :
    Decodes (.object members) (Node.struct fields step start complete) x := by
  obtain ⟨nodes, reads, folded⟩ := notes
  refine ⟨.object nodes true, Value.readsAs_object reads, ?_⟩
  simp [Node.struct, folded, completed, bind, Except.bind, pure, Except.pure]

theorem Decodes.decode_render {value : Value} {decoder : Node → Decode α} {x : α}
    (decodes : Decodes value decoder x) :
    decode decoder value.render = .ok x ∧ decode decoder (value.render ++ "\n") = .ok x := by
  obtain ⟨node, reads, decoded⟩ := decodes
  exact Value.decode_render reads decoded

end CrateAtlas.Json
