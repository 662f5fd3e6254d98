import CrateAtlas.Proofs.LooseImports
import CrateAtlas.Proofs.Readers

/-!
The grammar gives tidy syntax. Each rule of types, patterns and expressions is shown to give tidy
constructs if the readers of the phrases inside it do: its proof goes through what the rule reads, and
ends where it gives a construct. Imports come from items only, and of the constructs without an outline
only blocks hold items.
-/

namespace CrateAtlas.Source

open Construct Parse

namespace Construct

namespace Tidy

variable {form : Form} {attrs parts : List Construct}

theorem raw : Tidy raw :=
  .of_hidden rfl rfl

private theorem plainAttribute (path : List String) (tokens : List Token) :
    Tidy (plainAttribute path tokens) :=
  .of_hidden rfl rfl

private theorem valueAttribute (path : List String) {value : Construct} (tidy : value.Tidy) :
    Tidy (valueAttribute path value) :=
  .of_parts rfl (.single tidy)

theorem traitBound (path : PathName) (tidy : AllTidy parts) : Tidy (traitBound path parts) :=
  .of_parts rfl tidy

/-- A node without attributes. -/
theorem plain (tidy : AllTidy parts) : Tidy (Construct.node form [] parts) :=
  .node .nil tidy

theorem leaf (tidy : AllTidy attrs) : Tidy (Construct.node form attrs []) :=
  .node tidy .nil

end Tidy

theorem tidy_traitObject {parts : List Construct} : Tidy (traitObject parts) ↔ AllTidy parts :=
  tidy_iff_of_whole rfl rfl

theorem tidy_path {name : PathName} {attrs parts : List Construct} :
    Tidy (path name attrs parts) ↔ AllTidy attrs ∧ AllTidy parts := by
  rw [tidy_iff_of_whole rfl rfl, ← List.forall_mem_append]
  rfl

end Construct

abbrev Segment.Tidy (segment : Segment) : Prop :=
  AllTidy segment.args

structure PathRead.Tidy (path : PathRead) : Prop where
  qualifier : AllTidy path.qualifier
  segments : ∀ segment ∈ path.segments, segment.Tidy

namespace PathRead.Tidy

variable {path : PathRead}

theorem parts (tidy : path.Tidy) : AllTidy path.parts := by
  refine tidy.qualifier.append fun part among => ?_
  obtain ⟨segment, listed, applied⟩ := List.mem_flatMap.mp among
  exact tidy.segments segment listed part applied

theorem construct (tidy : path.Tidy) : path.construct.Tidy :=
  tidy_path.mpr ⟨.nil, tidy.parts⟩

end PathRead.Tidy

/-- What the readers of phrases give is tidy, apart from items and statements, which may be imports. -/
structure Sound (rules : Rules) : Prop where
  expr (structs : Bool) : Gives (rules (.expr structs)) Tidy
  unary (structs : Bool) : Gives (rules (.unary structs)) Tidy
  operators {left : Construct} (tidy : left.Tidy) (structs : Bool) (base : Precedence) :
    Gives (rules (.operators left structs base)) Tidy
  statementExpr : Gives (rules .statementExpr) Tidy
  type (plus : Bool) : Gives (rules (.type plus)) Tidy
  bound (captures consts : Bool) : Gives (rules (.bound captures consts)) Tidy
  genericParam : Gives (rules .genericParam) Tidy
  pattern : Gives (rules .pattern) Tidy
  statements : Gives (rules .statements) fun stmts => ∀ stmt ∈ stmts, Placed stmt
  item : Gives (rules .item) Placed
  fields : Gives (rules .fields) AllTidy

namespace Rules

variable {rules : Rules} (sound : Sound rules)

theorem tidy_loop {step : List Construct × Bool → Parse (Option (List Construct × Bool))} {flag : Bool}
    (keeps : ∀ parts flag, AllTidy parts →
      Gives (step (parts, flag)) fun next => ∀ pair ∈ next, AllTidy pair.1) :
    Gives (loop step ([], flag)) fun pair => AllTidy pair.1 :=
  .gather keeps

theorem tidy_singleton {p : Parse Construct} (each : Gives p Tidy) :
    Gives (List.singleton <$> p) AllTidy :=
  .map fun _ _ _ read => .single (each _ _ _ read)

theorem tidy_plusUntil {p : Parse Construct} (each : Gives p Tidy) (stop : List Token → Bool) :
    Gives (plusUntil stop p) AllTidy := by
  unfold plusUntil
  refine .bind (tidy_loop fun values done tidy => ?_) fun (values, _) tidy => .pure tidy.reverse
  refine .after fun tokens => .ite .stop ?_
  exact each.bind fun value tidyValue => .after fun more => .go (.cons tidyValue tidy)

private theorem tidy_of_asBound? {type bound : Construct} (tidy : type.Tidy)
    (same : asBound? type = some bound) : bound.Tidy := by
  unfold asBound? at same
  split at same
  · split at same
    · cases same
    · cases same
      exact .traitBound _ (tidy_path.mp tidy).2
  · cases same
    exact tidy_traitObject.mp tidy _ (List.mem_singleton_self _)
  · cases same

include sound

/-! ## Attributes and blocks -/

theorem tidy_attributeBody : Gives rules.attributeBody Tidy := by
  refine .after fun isUnsafe => .ite_after fun path => .after fun tokens => ?_
  split
  · exact .after fun _ => .pure (.plainAttribute _ _)
  · refine .after fun valued => .ite ?_ (.pure (.plainAttribute _ _))
    refine .after fun tokens => .when fun _ => ?_
    exact (sound.expr true).bind fun value tidy => .pure (.valueAttribute _ tidy)

theorem tidy_outerAttributes : Gives rules.outerAttributes AllTidy :=
  .whileAt (.after fun _ => (tidy_attributeBody sound).inside _) _

private theorem tidy_innerAttributes : Gives rules.innerAttributes AllTidy :=
  .whileAt (.after fun _ => .after fun _ => (tidy_attributeBody sound).inside _) _

private theorem placed_block :
    Gives rules.block fun read => AllTidy read.1 ∧ ∀ stmt ∈ read.2, Placed stmt := by
  refine .inside ?_ _
  refine (tidy_innerAttributes sound).bind fun attrs tidyAttrs => ?_
  exact sound.statements.bind fun stmts placed => .pure ⟨tidyAttrs, placed⟩

theorem placed_plainBlock : Gives rules.plainBlock fun stmts => ∀ stmt ∈ stmts, Placed stmt :=
  sound.statements.inside _

omit sound in
/-- A block as an expression has an outline of its own. -/
theorem tidy_blockExpr : Gives rules.blockExpr Tidy :=
  .after fun _ => .after fun (_, _) => .pure (.listed rfl)

theorem tidy_constBlock : Gives rules.constBlock Tidy := by
  refine (tidy_outerAttributes sound).bind fun outer tidyOuter => .after fun _ => ?_
  refine (placed_block sound).bind fun (inner, stmts) ⟨tidyInner, placed⟩ => ?_
  exact .pure (.block (.inl rfl) (tidyOuter.append tidyInner) placed)

/-! ## Paths and types -/

omit sound in
theorem tidy_constArgument : Gives rules.constArgument Tidy := by
  refine .after fun tokens => .ite ?_ (.ite ?_ (.ite tidy_blockExpr .failure))
  · exact .after fun _ => .pure (.leaf .nil)
  · exact .after fun name => .pure (tidy_path.mpr ⟨.nil, .nil⟩)

private theorem tidy_genericArgument : Gives rules.genericArgument Tidy := by
  refine .after fun tokens => .ite ?_ (.ite ?_ ?_)
  · exact .after fun _ => .pure (.leaf .nil)
  · exact tidy_constArgument.bind fun value tidy => .pure (.plain (.single tidy))
  · refine (sound.type true).bind fun type tidy => ?_
    split
    · next name style attrs args =>
      have tidyArgs := (tidy_path.mp tidy).2
      refine .ite (.pure (.plain (.single tidy))) (.after fun equals => .ite ?_ ?_)
      · refine .after fun tokens => .ite_bind tidy_constArgument (sound.type true) ?_
        exact fun value tidyValue => .pure (.plain (tidyArgs.append (.single tidyValue)))
      · refine .after fun colon => .ite ?_ (.pure (.plain (.single tidy)))
        refine (tidy_plusUntil (sound.bound false true) _).bind fun bounds tidyBounds => ?_
        exact .pure (.plain (tidyArgs.append tidyBounds))
    · exact .pure (.plain (.single tidy))

theorem tidy_angleArguments : Gives rules.angleArguments AllTidy := by
  refine .after fun _ => ((tidy_genericArgument sound).separated _).bind fun args tidy => ?_
  exact .after fun _ => .pure tidy

theorem tidy_returnType (plus : Bool) : Gives (rules.returnType plus) AllTidy :=
  .after fun _ => .ite ((sound.type plus).bind fun _ tidy => .pure (.single tidy)) (.pure .nil)

private theorem tidy_callArguments : Gives rules.callArguments AllTidy := by
  refine .after fun _ => ((sound.type true).commas _).bind fun args tidyArgs => ?_
  exact (tidy_returnType sound false).bind fun result tidy => .pure (AllTidy.append tidyArgs tidy)

theorem tidy_segment (inExpr : Bool) :
    Gives (rules.segment inExpr) Segment.Tidy := by
  refine .after fun tokens => .ite (.after fun name => .pure .nil) (.ite_after fun text => ?_)
  refine .after fun tokens => .ite (.after fun _ => ?_) (.pure .nil)
  exact (tidy_angleArguments sound).bind fun args tidy => .pure tidy

theorem tidy_plainSegments (inExpr : Bool) : Gives (rules.plainSegments inExpr) PathRead.Tidy := by
  have segment := tidy_segment sound inExpr
  refine .after fun global => segment.bind fun first tidyFirst => ?_
  refine .bind (.whileAt (.after fun _ => segment) _) fun rest tidyRest => ?_
  exact .pure ⟨.nil, List.forall_mem_cons.mpr ⟨tidyFirst, tidyRest⟩⟩

theorem tidy_qualifiedPath (inExpr : Bool) : Gives (rules.qualifiedPath inExpr) PathRead.Tidy := by
  have segment := tidy_segment sound inExpr
  refine .after fun angled => .ite (tidy_plainSegments sound inExpr) ?_
  refine (sound.type true).bind fun type tidyType => .after fun asTrait => ?_
  refine .ite_bind (tidy_plainSegments sound false).map_some .stop fun before tidyBefore => ?_
  refine .after fun _ => .after fun _ => segment.bind fun first tidyFirst => ?_
  refine .bind (.whileAt (.after fun _ => segment) _) fun rest tidyRest => ?_
  have tidySegments := List.forall_mem_cons.mpr ⟨tidyFirst, tidyRest⟩
  cases before with
  | none => exact .pure ⟨.single tidyType, tidySegments⟩
  | some path =>
    exact .pure ⟨.single tidyType,
      List.forall_mem_append.mpr ⟨(tidyBefore path rfl).segments, tidySegments⟩⟩

theorem tidy_withCall {path : PathRead} (tidy : path.Tidy) :
    Gives (rules.withCall path) PathRead.Tidy := by
  refine .after fun tokens => ?_
  split
  · exact .failure
  · next last _ =>
    refine .ite ?_ (.pure tidy)
    refine (tidy_callArguments sound).bind fun args tidyArgs => .pure ⟨tidy.qualifier, ?_⟩
    have before : ∀ segment ∈ path.segments.dropLast, segment.Tidy := fun segment among =>
      tidy.segments segment (List.dropLast_subset _ among)
    exact List.forall_mem_append.mpr ⟨before, List.forall_mem_singleton.mpr tidyArgs⟩

theorem tidy_binder? : Gives rules.binder? fun binder => AllTidy (binder.getD []) := by
  refine .after fun bound => .ite (.pure .nil) (.after fun _ => ?_)
  exact (sound.genericParam.separated _).bind fun params tidy => .after fun _ => .pure tidy

omit sound in
private theorem tidy_capture : Gives capture Tidy :=
  .after fun _ => .after fun _ => .after fun _ => .after fun _ => .pure (.leaf .nil)

theorem tidy_traitBound (consts : Bool) : Gives (rules.traitBound consts) Tidy := by
  refine (tidy_binder? sound).bind fun outer tidyOuter => .after fun tokens => ?_
  extract_lets bounded
  have tidy (isConst : Bool) : Gives (bounded isConst) Tidy := by
    refine .when fun _ => .after fun maybe => ?_
    refine .ite_bind (tidy_binder? sound) (.pure tidyOuter) fun binder tidyBinder => ?_
    refine (tidy_plainSegments sound false).bind fun path tidyPath => ?_
    refine (tidy_withCall sound tidyPath).bind fun path tidyPath => .when fun _ => ?_
    exact .ite (.pure .raw) (.pure (.traitBound _ (tidyBinder.append tidyPath.parts)))
  exact .ite (.after fun _ => .after fun isConst => tidy isConst) (.after fun isConst => tidy isConst)

theorem tidy_bound (captures consts : Bool) : Gives (rules.bound captures consts) Tidy := by
  have traitBound := tidy_traitBound sound consts
  refine .after fun tokens => .ite ?_ (.ite ?_ (.ite (traitBound.inside _) traitBound))
  · exact .after fun _ => .pure (.leaf .nil)
  · exact tidy_capture.bind fun captured tidy => .ite (.pure tidy) .failure

theorem tidy_bounds (plus captures consts : Bool) :
    Gives (rules.bounds plus captures consts) AllTidy := by
  refine .bind (tidy_loop fun values done tidy => ?_) fun (values, _) tidy => .pure tidy.reverse
  refine .ite .stop ((sound.bound captures consts).bind fun value tidyValue => ?_)
  exact .ite_after fun more => .after fun tokens => .go (.cons tidyValue tidy)

theorem tidy_objectBounds (plus : Bool) : Gives (rules.objectBounds plus) AllTidy :=
  (tidy_bounds sound plus false false).bind fun _ tidy => .ite (.pure tidy) .failure

private theorem tidy_moreBounds : Gives rules.moreBounds AllTidy :=
  .whileAt (.after fun _ => sound.bound false false) _

private theorem tidy_parenType (plus : Bool) : Gives (rules.parenType plus) Tidy := by
  refine .after fun inner => .ite (.pure (.leaf .nil)) (.ite ?_ (.ite ?_ ?_))
  · refine ((tidy_objectBounds sound true).all inner).bind fun bounds tidy => ?_
    exact .pure (.plain (.single (tidy_traitObject.mpr tidy)))
  · refine ((tidy_traitBound sound false).all inner).bind fun first tidyFirst => ?_
    refine (tidy_moreBounds sound).bind fun rest tidyRest => ?_
    exact .pure (tidy_traitObject.mpr (.cons tidyFirst tidyRest))
  · have elements : Gives (α := Construct × Bool × List Construct) (do
        let first ← rules (.type true)
        if ← mark? "," then return (first, true, ← separated List.isEmpty (rules (.type true)))
        return (first, false, [])) fun read => read.1.Tidy ∧ AllTidy read.2.2 := by
      refine (sound.type true).bind fun first tidyFirst => .after fun comma => ?_
      refine .ite ?_ (.pure ⟨tidyFirst, .nil⟩)
      exact ((sound.type true).separated _).bind fun rest tidyRest => .pure ⟨tidyFirst, tidyRest⟩
    refine (elements.all inner).bind fun (first, tuple, rest) ⟨tidyFirst, tidyRest⟩ => ?_
    refine .ite (.pure (.plain (.cons tidyFirst tidyRest))) (.after fun tokens => ?_)
    refine .ite ?_ (.pure (.plain (.single tidyFirst)))
    split
    · next bound found =>
      refine (tidy_moreBounds sound).bind fun rest tidyRest => ?_
      exact .pure (tidy_traitObject.mpr (.cons (tidy_of_asBound? tidyFirst found) tidyRest))
    · exact .pure (.plain (.single tidyFirst))

private theorem tidy_bareParam (first : Bool) : Gives (rules.bareParam first) Tidy := by
  refine (tidy_outerAttributes sound).bind fun attrs tidyAttrs => .after fun tokens => ?_
  extract_lets marked
  refine .when fun _ => .after fun tokens => ?_
  extract_lets isSelf named typed
  have tidy (done : Unit) : Gives (typed done) Tidy := by
    refine .after fun tokens => .ite ?_ (.ite ?_ ?_)
    · exact .after fun _ => .after fun _ => .pure (.leaf tidyAttrs)
    · exact .after fun _ => .pure (.leaf tidyAttrs)
    · refine (sound.type true).bind fun type tidyType => .pure (.node tidyAttrs ?_)
      split
      · exact .nil
      · exact .single tidyType
  exact .ite (.after fun _ => .after tidy) (tidy ())

private theorem tidy_bareParams : Gives rules.bareParams AllTidy := by
  refine .bind (tidy_loop fun params done tidy => ?_) fun (params, _) tidy => .pure tidy.reverse
  refine .after fun tokens => .ite .stop ?_
  refine (tidy_outerAttributes sound).bind fun attrs tidyAttrs => .after fun tokens => .ite ?_ ?_
  · refine .after fun tokens => ?_
    extract_lets variadic
    have rest (done : Unit) : Gives (variadic done) fun next => ∀ pair ∈ next, AllTidy pair.1 :=
      .after fun _ => .after fun _ => .go (.cons (.leaf tidyAttrs) tidy)
    exact .ite (.after fun _ => .after rest) (rest ())
  · refine (tidy_bareParam sound params.isEmpty).bind fun param tidyParam => .after fun tokens => ?_
    have more : AllTidy (param.addAttributes attrs :: params) :=
      .cons (tidyParam.addAttributes tidyAttrs) tidy
    exact .ite (.go more) (.after fun _ => .go more)

private theorem tidy_bareFn {binder : List Construct} (tidy : AllTidy binder) :
    Gives (rules.bareFn binder) Tidy := by
  refine (tidy_binder? sound).bind fun inner tidyInner => ?_
  refine .after fun _ => .after fun _ => .after fun _ => ?_
  refine ((tidy_bareParams sound).inside _).bind fun params tidyParams => ?_
  refine (tidy_returnType sound false).bind fun result tidyResult => ?_
  exact .pure (.plain (((tidy.append tidyInner).append tidyParams).append tidyResult))

private theorem tidy_pathType (plus : Bool) {binder : Option (List Construct)}
    (tidy : AllTidy (binder.getD [])) : Gives (rules.pathType plus binder) Tidy := by
  refine (tidy_qualifiedPath sound false).bind fun path tidyPath => ?_
  refine (tidy_withCall sound tidyPath).bind fun path tidyPath => ?_
  refine .ite (.pure tidyPath.construct) (.after fun tokens => .ite ?_ (.after fun tokens => ?_))
  · exact .after fun _ => .after fun _ => .pure (.leaf .nil)
  · refine .ite ?_ (.pure tidyPath.construct)
    have tidyFirst : (Construct.traitBound path.pathName (binder.getD [] ++ path.parts)).Tidy :=
      .traitBound _ (tidy.append tidyPath.parts)
    have alone := tidy_traitObject.mpr (.single tidyFirst)
    refine .ite (.pure alone) (.after fun more => .ite (.pure alone) (.after fun tokens => ?_))
    refine .ite_bind (tidy_bounds sound true false false) (.pure .nil) fun rest tidyRest => ?_
    exact .pure (tidy_traitObject.mpr (.cons tidyFirst tidyRest))

theorem tidy_type (plus : Bool) : Gives (rules.type plus) Tidy := by
  refine (tidy_binder? sound).bind fun binder tidyBinder => .after fun tokens => .when fun _ => ?_
  refine .ite (tidy_parenType sound plus) (.ite (tidy_bareFn sound tidyBinder)
    (.ite (tidy_pathType sound plus tidyBinder) (.ite ?object (.ite ?array (.ite ?pointer (.ite ?reference
      (.ite ?never (.ite ?impl (.ite ?infer (.ite ?lifetime .failure))))))))))
  case object =>
    refine .after fun _ => .after fun starred => ?_
    refine (tidy_objectBounds sound plus).bind fun bounds tidy => .pure ?_
    split
    · exact .raw
    · exact tidy_traitObject.mpr tidy
  case array =>
    refine .inside ((sound.type true).bind fun element tidyElement => .after fun sized => ?_) _
    refine .ite ?_ (.pure (.plain (.single tidyElement)))
    exact (sound.expr true).bind fun size tidySize =>
      .pure (.plain (.cons tidyElement (.single tidySize)))
  case pointer =>
    refine .after fun _ => .after fun constant => .when fun _ => ?_
    exact (sound.type false).bind fun target tidy => .pure (.plain (.single tidy))
  case reference =>
    refine .after fun _ => .after fun tokens => .when fun _ => .after fun _ => ?_
    exact (sound.type false).bind fun target tidy => .pure (.plain (.single tidy))
  case never => exact .after fun _ => .pure (.leaf .nil)
  case impl =>
    refine .after fun _ => (tidy_bounds sound plus true true).bind fun bounds tidy => ?_
    exact .ite (.pure (.plain tidy)) .failure
  case infer => exact .after fun _ => .pure (.leaf .nil)
  case lifetime =>
    exact (tidy_objectBounds sound true).bind fun bounds tidy => .pure (tidy_traitObject.mpr tidy)

theorem tidy_genericParam : Gives rules.genericParam Tidy := by
  refine (tidy_outerAttributes sound).bind fun attrs tidyAttrs => .after fun tokens => ?_
  refine .ite ?lifetime (.ite ?type (.ite ?const .failure))
  case lifetime =>
    refine .after fun _ => .after fun colon => ?_
    exact .ite (.after fun _ => .pure (.leaf tidyAttrs)) (.pure (.leaf tidyAttrs))
  case type =>
    refine .after fun _ => .after fun colon => ?_
    refine .ite_bind (tidy_plusUntil (sound.bound false true) _) (.pure .nil) fun bounds tidyBounds => ?_
    refine .after fun equals => .ite_bind (tidy_singleton (sound.type true)) (.pure .nil) ?_
    exact fun value tidyValue => .pure (.node tidyAttrs (tidyBounds.append tidyValue))
  case const =>
    refine .after fun _ => .after fun _ => .after fun _ => ?_
    refine (sound.type true).bind fun type tidyType => .after fun equals => ?_
    refine .ite_bind (tidy_singleton tidy_constArgument) (.pure .nil) fun value tidyValue => ?_
    exact .pure (.node tidyAttrs (.cons tidyType tidyValue))

theorem tidy_generics : Gives rules.generics AllTidy := by
  refine .after fun angled => .ite (.pure .nil) ?_
  refine .bind (.separated ?_ _) fun params tidy => .after fun _ => .pure tidy
  refine (tidy_outerAttributes sound).bind fun attrs tidyAttrs => .after fun hole => ?_
  refine .ite (.pure (.leaf tidyAttrs)) (sound.genericParam.bind fun param tidy => ?_)
  exact .pure (tidy.addAttributes tidyAttrs)

private theorem tidy_wherePredicate : Gives rules.wherePredicate AllTidy := by
  refine .after fun tokens => .ite ?_ ?_
  · exact .after fun _ => .after fun _ => .after fun _ => .pure .nil
  · refine (tidy_binder? sound).bind fun binder tidyBinder => ?_
    refine (sound.type true).bind fun type tidyType => .after fun _ => ?_
    refine (tidy_plusUntil (sound.bound false true) _).bind fun bounds tidyBounds => ?_
    exact .pure (tidyBinder.append (.cons tidyType tidyBounds))

theorem tidy_whereClause : Gives rules.whereClause AllTidy := by
  refine .after fun conditional => .ite (.pure .nil) (.after fun tokens => .when fun _ => ?_)
  refine .bind (tidy_loop fun parts done tidy => ?_) fun (parts, _) tidy => .pure tidy
  refine .after fun tokens => .ite .stop ?_
  refine (tidy_wherePredicate sound).bind fun predicate tidyPredicate => .after fun more => ?_
  exact .go (AllTidy.append tidy tidyPredicate)

/-! ## Patterns -/

theorem tidy_patterns : Gives rules.patterns Tidy := by
  refine .after fun leading => sound.pattern.bind fun first tidyFirst => .after fun tokens => ?_
  refine .ite (.pure tidyFirst) (.bind (.whileAt (.after fun _ => sound.pattern) _) ?_)
  exact fun rest tidyRest => .pure (.plain (.cons tidyFirst tidyRest))

theorem tidy_rangeBound : Gives rules.rangeBound AllTidy := by
  refine .after fun tokens => .ite (.pure .nil) (.ite ?literal (.ite ?path (.ite ?const .failure)))
  case literal => exact .after fun _ => .pure (.single (.leaf .nil))
  case path =>
    exact (tidy_qualifiedPath sound true).bind fun path tidy => .pure (.single tidy.construct)
  case const => exact (tidy_constBlock sound).bind fun block tidy => .pure (.single tidy)

theorem tidy_rangePattern {start : List Construct} (tidy : AllTidy start) :
    Gives (rules.rangePattern start) Tidy := by
  refine .after fun closed => (tidy_rangeBound sound).bind fun bound tidyBound => ?_
  exact .when fun _ => .pure (.plain (tidy.append tidyBound))

private theorem tidy_fieldPattern : Gives rules.fieldPattern Tidy := by
  refine .after fun boxed => .after fun byRef => .after fun mutable => .ite ?_ ?_
  · exact .after fun _ => .pure (.leaf .nil)
  · refine .after fun named => .after fun tokens => .ite (.after fun _ => ?_) (.pure (.leaf .nil))
    exact (tidy_patterns sound).bind fun pattern tidy => .pure (.plain (.single tidy))

private theorem tidy_structPattern {path : PathRead} (tidy : path.Tidy) :
    Gives (rules.structPattern path) Tidy := by
  refine .bind (.inside (tidy_loop fun fields done tidyFields => ?_) _)
    fun (fields, _) tidyFields => .pure (.plain (tidy.parts.append tidyFields.reverse))
  refine .after fun tokens => .ite .stop ?_
  refine (tidy_outerAttributes sound).bind fun attrs tidyAttrs => .after fun rest => ?_
  refine .ite (.go (.cons (.leaf tidyAttrs) tidyFields)) ?_
  refine (tidy_fieldPattern sound).bind fun field tidyField => .after fun tokens => ?_
  have more : AllTidy (field.addAttributes attrs :: fields) :=
    .cons (tidyField.addAttributes tidyAttrs) tidyFields
  exact .ite (.go more) (.after fun _ => .go more)

private theorem tidy_pathPattern : Gives rules.pathPattern Tidy := by
  refine (tidy_qualifiedPath sound true).bind fun path tidy => .after fun tokens => .ite ?_ ?_
  · exact .after fun _ => .after fun _ => .pure (.leaf .nil)
  · refine .ite (tidy_structPattern sound tidy) (.ite ?_ (.ite ?_ (.pure tidy.construct)))
    · refine ((tidy_patterns sound).commas _).bind fun elements tidyElements => ?_
      exact .pure (.plain (tidy.parts.append tidyElements))
    · exact tidy_rangePattern sound (.single tidy.construct)

private theorem tidy_parenPattern : Gives rules.parenPattern Tidy := by
  refine .after fun inner => ?_
  refine .bind (Q := fun read => AllTidy read.1) (.all ?_ inner) fun (elements, comma) tidy => ?_
  · exact ((tidy_patterns sound).separated _).bind fun elements tidy => .pure tidy
  · dsimp only
    split
    · exact .ite (.pure (.plain tidy)) (.pure (.plain tidy))
    · exact .pure (.plain tidy)

private theorem tidy_slicePattern : Gives rules.slicePattern Tidy := by
  refine ((tidy_patterns sound).commas _).bind fun elements tidy => ?_
  exact .when fun _ => .pure (.plain tidy)

private theorem tidy_bindingPattern : Gives rules.bindingPattern Tidy := by
  refine .after fun _ => .after fun _ => .after fun isSelf => .when fun _ => .after fun bound => ?_
  exact .ite_bind (tidy_singleton sound.pattern) (.pure .nil) fun inner tidy => .pure (.plain tidy)

theorem tidy_pattern : Gives rules.pattern Tidy := by
  refine .after fun tokens => .ite (tidy_pathPattern sound) (.ite ?wild (.ite ?box (.ite ?literal
    (.ite (tidy_bindingPattern sound) (.ite ?reference (.ite (tidy_parenPattern sound)
      (.ite (tidy_slicePattern sound) (.ite ?range .failure))))))))
  case wild => exact .after fun _ => .pure (.leaf .nil)
  case box => exact .after fun _ => .after fun _ => .pure .raw
  case literal =>
    refine (tidy_rangeBound sound).bind fun start tidy => .after fun tokens => ?_
    refine .ite (tidy_rangePattern sound tidy) ?_
    split
    · exact .pure (tidy _ (List.mem_singleton_self _))
    · exact .failure
  case reference =>
    refine .after fun _ => .after fun _ => ?_
    exact sound.pattern.bind fun target tidy => .pure (.plain (.single tidy))
  case range =>
    refine .after fun closed => (tidy_rangeBound sound).bind fun bound tidy => ?_
    exact .ite (.pure (.plain tidy)) (.when fun _ => .pure (.leaf .nil))

end Rules

end CrateAtlas.Source
