import CrateAtlas.Source.Parse

/-!
What readers of tokens give. A reader that is made of others inherits this from them: a sequence, a
choice, a group, a list and a loop are treated once here, for any readers of their parts.
-/

namespace CrateAtlas.Source

variable {α β : Type} {P : α → Prop} {Q : β → Prop}

def Gives (p : Parse α) (P : α → Prop) : Prop :=
  ∀ tokens value rest, p tokens = some (value, rest) → P value

namespace Gives

protected theorem pure {value : α} (fits : P value) : Gives (pure value) P := by
  intro tokens other rest read
  cases read
  exact fits

protected theorem failure : Gives (failure : Parse α) P := by
  intro tokens value rest read
  cases read

section Sequence

variable {first : Parse β} {next : β → Parse α}

protected theorem bind (gives : Gives first Q) (rest : ∀ value, Q value → Gives (next value) P) :
    Gives (first >>= next) P := by
  intro tokens value remaining read
  obtain ⟨⟨middle, between⟩, readFirst, readNext⟩ := Option.bind_eq_some_iff.mp read
  exact rest middle (gives _ _ _ readFirst) _ _ _ readNext

/-- Nothing is asked of what is read first. -/
theorem after (rest : ∀ value, Gives (next value) P) : Gives (first >>= next) P :=
  .bind (Q := fun _ => True) (fun _ _ _ _ => trivial) fun value _ => rest value

protected theorem map {f : β → α} (gives : Gives first fun value => P (f value)) : Gives (f <$> first) P := by
  intro tokens value rest read
  obtain ⟨⟨middle, between⟩, readFirst, given⟩ := Option.bind_eq_some_iff.mp read
  cases given
  exact gives _ _ _ readFirst

end Sequence

section Choice

variable {c : Prop} [Decidable c] {p q : Parse α}

protected theorem ite (yes : Gives p P) (no : Gives q P) : Gives (if c then p else q) P := by
  split
  · exact yes
  · exact no

variable {first second : Parse β} {next : β → Parse α}

/-- One of two readers goes first, and both are followed by the same. -/
theorem ite_bind (yes : Gives first Q) (no : Gives second Q)
    (rest : ∀ value, Q value → Gives (next value) P) :
    Gives (if c then first >>= next else second >>= next) P :=
  .ite (yes.bind rest) (no.bind rest)

theorem ite_after (rest : ∀ value, Gives (next value) P) :
    Gives (if c then first >>= next else second >>= next) P :=
  .ite (.after rest) (.after rest)

/-- A reader may go first, and what follows it follows in any case. -/
theorem when {first : Parse Unit} {next : Unit → Parse α} (rest : ∀ done, Gives (next done) P) :
    Gives (if c then first >>= next else next ()) P :=
  .ite (.after rest) (rest ())

end Choice

protected theorem all {p : Parse α} (gives : Gives p P) (tokens : List Token) : Gives (p.all tokens) P := by
  unfold Parse.all
  split
  · next value read => exact .pure (gives _ _ _ read)
  · exact .failure

protected theorem inside {p : Parse α} (gives : Gives p P) (delimiter : Delimiter) :
    Gives (Parse.inside delimiter p) P :=
  .after fun content => gives.all content

section Loop

theorem stop : Gives (pure none) fun next => ∀ value ∈ next, P value :=
  .pure fun _ absent => nomatch absent

theorem go {value : α} (fits : P value) :
    Gives (pure (some value)) fun next => ∀ value ∈ next, P value :=
  .pure fun _ same => Option.mem_some.mp same ▸ fits

theorem map_some {p : Parse α} (gives : Gives p P) :
    Gives (some <$> p) fun next => ∀ value ∈ next, P value :=
  .map fun _ _ _ read _ same => Option.mem_some.mp same ▸ gives _ _ _ read

variable {step : α → Parse (Option α)} {value : α}

protected theorem iterate (keeps : ∀ value, P value → Gives (step value) fun next => ∀ value ∈ next, P value)
    (fuel : Nat) (start : P value) : Gives (Parse.iterate step fuel value) P := by
  induction fuel generalizing value with
  | zero => exact .failure
  | succ fuel ih =>
    refine (keeps value start).bind fun next fits => ?_
    cases next with
    | none => exact .pure start
    | some next => exact ih (fits next rfl)

/-- What each step keeps, a loop keeps. -/
protected theorem loop (start : P value)
    (keeps : ∀ value, P value → Gives (step value) fun next => ∀ value ∈ next, P value) :
    Gives (Parse.loop step value) P :=
  .after fun _ => .iterate keeps _ start

/-- A loop that gathers values, and notes whether it goes on. -/
theorem gather {step : List α × Bool → Parse (Option (List α × Bool))} {flag : Bool}
    (keeps : ∀ values flag, (∀ value ∈ values, P value) →
      Gives (step (values, flag)) fun next => ∀ pair ∈ next, ∀ value ∈ pair.1, P value) :
    Gives (Parse.loop step ([], flag)) fun pair => ∀ value ∈ pair.1, P value :=
  .loop (List.forall_mem_nil _) fun pair fits => keeps pair.1 pair.2 fits

end Loop

section Lists

variable {p : Parse α}

protected theorem whileAt (each : Gives p P) (test : List Token → Bool) :
    Gives (Parse.whileAt test p) fun values => ∀ value ∈ values, P value := by
  refine .bind (Q := fun values => ∀ value ∈ values, P value)
    (.loop (List.forall_mem_nil P) fun values fits => ?_) fun values fits => .pure ?_
  · refine .after fun tokens => .ite (each.bind fun value fitsValue => .go ?_) .stop
    exact List.forall_mem_cons.mpr ⟨fitsValue, fits⟩
  · simpa using fits

protected theorem separated (each : Gives p P) (stop : List Token → Bool) :
    Gives (Parse.separated stop p) fun values => ∀ value ∈ values, P value := by
  refine .bind (gather (P := P) fun values done fits => ?_) fun (values, _) fits => .pure ?_
  · refine .after fun tokens => .ite .stop (each.bind fun value fitsValue => ?_)
    have more : ∀ other ∈ value :: values, P other := List.forall_mem_cons.mpr ⟨fitsValue, fits⟩
    exact .after fun ahead => .ite (.go more) (.after fun _ => .go more)
  · simpa using fits

protected theorem commas (each : Gives p P) (delimiter : Delimiter) :
    Gives (Parse.commas delimiter p) fun values => ∀ value ∈ values, P value :=
  (each.separated _).inside delimiter

end Lists

end Gives

end CrateAtlas.Source
