import CrateAtlas.Proofs.TidyExpressions

/-!
Statements and items are imports or tidy. With this the circle of the phrases is closed: whatever the
grammar reads, an import stands loose only as a statement of a block.
-/

namespace CrateAtlas.Source

open Construct Parse

structure TypeRead.Tidy (type : TypeRead) : Prop where
  generics : AllTidy type.generics
  value : ∀ value ∈ type.value, value.Tidy

namespace Rules

variable {rules : Rules} (sound : Sound rules)

include sound

/-! ## Statements -/

omit sound in
private theorem placed_of_tidy {p : Parse Construct} (tidy : Gives p Tidy) : Gives p Placed :=
  fun _ _ _ read => .inr (tidy _ _ _ read)

private theorem tidy_exprStatement {attrs : List Construct} (tidy : AllTidy attrs) :
    Gives (rules.exprStatement attrs) fun read => read.construct.Tidy := by
  refine .after fun before => sound.statementExpr.bind fun value tidyValue => ?_
  refine .after fun after => .after fun ended => ?_
  have tidyStatement := tidyValue.addLeftmost tidy
  split
  · exact .ite (.pure (.listed rfl)) (.pure tidyStatement)
  · exact .pure tidyStatement

omit sound in
private theorem tidy_letStatement (attrs : List Construct) : Gives (rules.letStatement attrs) Tidy := by
  refine .after fun _ => .after fun pattern => .after fun typed => ?_
  extract_lets rest
  have tidy (bound : Construct) : Gives (rest bound) Tidy := by
    refine .after fun valued => ?_
    extract_lets ending
    have tidyEnding (init : List Construct) : Gives (ending init) Tidy :=
      .after fun _ => .pure (.listed rfl)
    refine .ite (.after fun _ => .after fun value => .after fun _ => .ite ?_ ?_) (.after tidyEnding)
    · exact .after fun _ => .after fun stmts => .after tidyEnding
    · exact .after tidyEnding
  exact .ite (.after fun type => .after tidy) (.after tidy)

private theorem placed_statement : Gives rules.statement fun read => read.construct.Placed := by
  refine (tidy_outerAttributes sound).bind fun attrs tidyAttrs => .after fun tokens => ?_
  have item : Gives (rules .item) fun item => (item.addAttributes attrs).Placed :=
    fun _ _ _ read => (sound.item _ _ _ read).addAttributes tidyAttrs
  split
  · refine .after fun _ => .after fun _ => .after fun _ => .after fun _ => ?_
    exact .pure (.inr (.leaf tidyAttrs))
  · exact item.bind fun item placed => .pure placed
  · refine .ite ?_ (.ite (item.bind fun item placed => .pure placed) ?_)
    · exact (tidy_letStatement attrs).bind fun stmt tidy => .pure (.inr tidy)
    · exact fun _ _ _ read => .inr (tidy_exprStatement sound tidyAttrs _ _ _ read)

private theorem placed_statements : Gives rules.statements fun stmts => ∀ stmt ∈ stmts, Placed stmt := by
  refine .bind (.gather (P := Placed) fun values complete placed => ?_)
    fun (values, _) placed => .pure (by simpa using placed)
  refine .after fun separator => .ite (.ite (.go placed) .failure) (.after fun tokens => ?_)
  refine .ite .stop (.when fun _ => (placed_statement sound).bind fun stmt placedStmt => ?_)
  exact .go (List.forall_mem_cons.mpr ⟨placedStmt, placed⟩)

/-! ## Items without an outline -/

private theorem tidy_typeMember (before after : Bool) :
    Gives (rules.typeMember before after) TypeRead.Tidy := by
  refine .after fun _ => .after fun _ => (tidy_generics sound).bind fun generics tidyGenerics => ?_
  refine .after fun bounds => .after fun tokens => ?_
  extract_lets early
  refine .ite_bind (tidy_whereClause sound) (.pure .nil) fun conditions tidyConditions => ?_
  refine .after fun equals => .ite_bind (sound.type true).map_some .stop fun value tidyValue => ?_
  refine .ite_bind (tidy_whereClause sound) (.pure .nil) fun late tidyLate => .after fun _ => ?_
  exact .pure ⟨(tidyGenerics.append tidyConditions).append tidyLate, tidyValue⟩

private theorem tidy_typeItem : Gives rules.typeItem Tidy := by
  refine (tidy_typeMember sound true false).bind fun type tidy => ?_
  split
  · next value _ found =>
    exact .pure (.plain (tidy.generics.append (.single (tidy.value value found))))
  · exact .pure .raw

private theorem tidy_namedField : Gives rules.namedField Tidy := by
  refine (tidy_outerAttributes sound).bind fun attrs tidyAttrs => .after fun _ => ?_
  refine .after fun unnamed => .when fun _ => .after fun _ => .after fun tokens => .ite ?_ ?_
  · exact .after fun _ => .after fun _ => .pure (.leaf tidyAttrs)
  · exact (sound.type true).bind fun type tidy => .pure (.node tidyAttrs (.single tidy))

private theorem tidy_fields : Gives rules.fields AllTidy :=
  (tidy_namedField sound).commas _

private theorem tidy_unionItem : Gives rules.unionItem Tidy := by
  refine .after fun _ => .after fun _ => (tidy_generics sound).bind fun generics tidyGenerics => ?_
  refine (tidy_whereClause sound).bind fun conditions tidyConditions => ?_
  refine sound.fields.bind fun fields tidyFields => ?_
  exact .pure (.plain ((tidyGenerics.append tidyConditions).append tidyFields))

omit sound in
private theorem tidy_traitRest (generics : List Construct) : Gives (rules.traitRest generics) Tidy :=
  .after fun _ => .after fun _ => .after fun (_, _) => .pure (.listed rfl)

theorem tidy_traitItem : Gives rules.traitItem Tidy := by
  refine .after fun isUnsafe => .after fun isAuto => .after fun _ => .after fun _ => ?_
  refine (tidy_generics sound).bind fun generics tidyGenerics => .after fun tokens => ?_
  refine .ite (tidy_traitRest generics) (.after fun _ => ?_)
  extract_lets stop
  refine .bind (tidy_loop fun bounds done tidy => ?_) fun (bounds, _) tidyBounds => ?_
  · refine .after fun tokens => .ite .stop ?_
    refine (sound.bound false true).bind fun bound tidyBound => .after fun tokens => ?_
    have more : AllTidy (bound :: bounds) := .cons tidyBound tidy
    exact .ite (.go more) (.after fun _ => .go more)
  · refine (tidy_whereClause sound).bind fun conditions tidyConditions => .after fun _ => ?_
    exact .pure (.plain ((tidyGenerics.append tidyConditions).append tidyBounds.reverse))

omit sound in
private theorem tidy_externCrate : Gives externCrate Tidy := by
  refine .after fun _ => .after fun _ => .after fun isSelf => .when fun _ => .after fun renamed => ?_
  extract_lets ending
  have tidy (done : Unit) : Gives (ending done) Tidy :=
    .after fun _ => .pure (.leaf .nil)
  exact .ite (.after fun _ => .when tidy) (tidy ())

/-! ## Other items -/

omit sound in
private theorem tidy_fnItem (place : FnPlace) : Gives (rules.fnItem place) Tidy := by
  refine .after fun sig => .after fun bodiless => .ite (.pure .raw) ?_
  exact .after fun (_, _) => .pure (.of_hidden rfl rfl)

omit sound in
private theorem tidy_constItem : Gives (rules.constItem .constItem) Tidy := by
  refine .after fun read => ?_
  split
  · exact .pure (.listed rfl)
  · exact .pure .raw

private theorem tidy_staticItem : Gives rules.staticItem Tidy := by
  refine .after fun _ => .after fun _ => .after fun _ => .after fun untyped => .ite ?_ ?_
  · exact .after fun _ => .after fun _ => .pure .raw
  · refine .after fun _ => (sound.type true).bind fun type tidyType => .after fun valueless => ?_
    refine .ite (.pure .raw) (.after fun _ => (sound.expr true).bind fun value tidyValue => ?_)
    exact .after fun _ => .pure (.plain (.cons tidyType (.single tidyValue)))

omit sound in
private theorem tidy_structItem : Gives rules.structItem Tidy := by
  refine .after fun _ => .after fun _ => .after fun generics => .after fun tokens => ?_
  refine .after fun conditions => .after fun tokens => .ite ?_ ?_
  · exact .after fun fields => .after fun conditions => .after fun _ => .pure (.listed rfl)
  · exact .after fun tokens => .ite_after fun fields => .pure (.listed rfl)

omit sound in
private theorem tidy_enumItem : Gives rules.enumItem Tidy :=
  .after fun _ => .after fun _ => .after fun _ => .after fun _ => .after fun _ =>
    .pure (.listed rfl)

omit sound in
theorem tidy_implItem (isPublic : Bool) : Gives (rules.implItem isPublic) Tidy := by
  refine .after fun _ => .after fun isUnsafe => .after fun _ => .after fun tokens => ?_
  refine .ite_after fun generics => .after fun tokens => ?_
  extract_lets isConst rest
  have tidy (done : Unit) : Gives (rest done) Tidy := by
    refine .after fun head => .after fun conditions => .after fun (attrs, members) => ?_
    refine .ite (.pure .raw) ?_
    cases head with
    | unclear => exact .pure .raw
    | inherent self => exact .pure (.of_hidden rfl rfl)
    | ofTrait path self => exact .pure (.of_hidden rfl rfl)
  exact .ite (.after fun _ => .after tidy) (tidy ())

omit sound in
theorem tidy_foreignBlock : Gives rules.foreignBlock Tidy :=
  .after fun _ => .after fun _ => .when fun _ => .after fun (_, _) => .pure (.listed rfl)

omit sound in
private theorem tidy_macroDefinition : Gives macroDefinition Tidy :=
  .after fun _ => .after fun _ => .after fun _ => .when fun _ => .after fun _ => .pure .raw

omit sound in
private theorem tidy_macroItem : Gives macroItem Tidy := by
  refine .after fun _ => .after fun _ => .after fun tokens => .when fun _ => .after fun delimiter => ?_
  exact .when fun _ => .pure (.leaf .nil)

omit sound in
private theorem tidy_externItem (isPublic : Bool) : Gives (rules.externItem isPublic) Tidy :=
  .after fun _ => .ite tidy_externCrate (.ite .failure tidy_foreignBlock)

omit sound in
theorem placed_modItem : Gives rules.modItem Placed := by
  refine .after fun _ => .after fun _ => .after fun tokens => .when fun _ => .after fun name => ?_
  refine .after fun declared => .ite (.pure (.inl rfl)) ?_
  exact .after fun (_, _) => .pure (.inr (.of_hidden rfl rfl))

omit sound in
private theorem placed_useItem : Gives rules.useItem Placed := by
  refine .after fun _ => .after fun global => .after fun tree => .after fun _ => ?_
  split
  · exact .pure (.inl rfl)
  · exact .pure (.inr .raw)

private theorem placed_unsafeItem (isPublic : Bool) : Gives (rules.unsafeItem isPublic) Placed := by
  refine .after fun tokens => ?_
  extract_lets next
  exact .ite (placed_of_tidy (tidy_traitItem sound)) (.ite (placed_of_tidy (tidy_implItem isPublic))
    (.ite (.ite .failure (placed_of_tidy tidy_foreignBlock)) (.ite placed_modItem .failure)))

private theorem placed_item : Gives rules.item Placed := by
  refine (tidy_outerAttributes sound).bind fun attrs tidyAttrs => ?_
  refine .after fun isPublic => .after fun tokens => ?_
  extract_lets next given
  have placed (item : Construct) (placed : item.Placed) : Gives (given item) Placed :=
    .pure (placed.addAttributes tidyAttrs)
  have tidy (item : Construct) (tidy : item.Tidy) : Gives (given item) Placed :=
    placed item (.inr tidy)
  exact .ite ((tidy_fnItem .free).bind tidy) (.ite ((tidy_externItem isPublic).bind tidy)
    (.ite (placed_useItem.bind placed) (.ite ((tidy_staticItem sound).bind tidy)
      (.ite (tidy_constItem.bind tidy) (.ite ((placed_unsafeItem sound isPublic).bind placed)
        (.ite (placed_modItem.bind placed) (.ite ((tidy_typeItem sound).bind tidy)
          (.ite (tidy_structItem.bind tidy) (.ite (tidy_enumItem.bind tidy)
            (.ite ((tidy_unionItem sound).bind tidy) (.ite ((tidy_traitItem sound).bind tidy)
              (.ite ((tidy_implItem isPublic).bind tidy) (.ite (tidy_macroDefinition.bind tidy)
                (.ite (tidy_macroItem.bind tidy) (.bind .failure placed)))))))))))))))

end Rules

/-- Rules are sound if those of the phrases inside are. -/
theorem Sound.rule {rules : Rules} (sound : Sound rules) : Sound (Phrase.rule rules) where
  expr := Rules.tidy_expr sound
  unary := Rules.tidy_unary sound
  operators := Rules.tidy_operators sound
  statementExpr := Rules.tidy_statementExpr sound
  type := Rules.tidy_type sound
  bound := Rules.tidy_bound sound
  genericParam := Rules.tidy_genericParam sound
  pattern := Rules.tidy_pattern sound
  statements := Rules.placed_statements sound
  item := Rules.placed_item sound
  fields := Rules.tidy_fields sound

/-- The grammar is sound, however deeply phrases nest. -/
theorem Sound.read (fuel : Nat) : Sound (Phrase.read fuel) := by
  induction fuel with
  | zero => constructor <;> intros <;> exact .failure
  | succ fuel ih => exact ih.rule

namespace SourceFile

private theorem placed_read {rules : Rules} (sound : Sound rules) :
    Gives (read rules) fun file => ∀ item ∈ file.items, item.Placed :=
  .after fun _ => (sound.item.whileAt _).bind fun _ placed => .pure placed

/-- The items of a file are imports or tidy. -/
theorem placed_of_parse? {text : String} {file : SourceFile} (parsed : parse? text = some file) :
    ∀ item ∈ file.items, item.Placed := by
  simp only [parse?, Option.bind_eq_bind, Option.bind_eq_some_iff] at parsed
  obtain ⟨tokens, _, ⟨read, rest⟩, taken, complete⟩ := parsed
  split at complete
  · cases complete
    exact placed_read (.read _) _ _ _ taken
  · cases complete

end SourceFile

end CrateAtlas.Source
