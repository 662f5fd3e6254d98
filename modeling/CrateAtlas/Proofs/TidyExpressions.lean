import CrateAtlas.Proofs.TidyPhrases

/-!
Expressions are tidy. Most that hold statements have an outline of their own; of the two kinds of block
that have none, the statements may be imports.
-/

namespace CrateAtlas.Source

open Construct Parse

namespace Rules

variable {rules : Rules} (sound : Sound rules)

include sound

/-! ## Operators -/

omit sound in
theorem tidy_rangeEnd (closed structs : Bool) {operand : Parse Construct} (each : Gives operand Tidy) :
    Gives (rangeEnd closed structs operand) AllTidy := by
  refine .after fun tokens => .ite (.pure .nil) ?_
  exact each.bind fun value tidy => .pure (.single tidy)

theorem tidy_rightOperand (structs : Bool) (precedence : Precedence) :
    Gives (rules.rightOperand structs precedence) Tidy := by
  refine (sound.unary structs).bind fun first tidyFirst => .loop tidyFirst fun operand tidy => ?_
  refine .after fun tokens => .ite ?_ .stop
  refine (sound.operators tidy structs _).bind fun longer tidyLonger => ?_
  exact .after fun ahead => .ite .stop (.go tidyLonger)

private theorem tidy_operatorStep (structs : Bool) (base : Precedence) {left : Construct} (tidy : left.Tidy) :
    Gives (rules.operatorStep structs base left) fun next => ∀ longer ∈ next, longer.Tidy := by
  refine .ite .stop (.after fun tokens => ?_)
  extract_lets fits
  split
  · refine .ite .stop (.after fun _ => .when fun _ => ?_)
    refine (tidy_rightOperand sound structs _).bind fun right tidyRight => ?_
    exact .go (.plain (.cons tidy (.single tidyRight)))
  · refine .ite ?assign (.ite ?range (.ite ?cast .stop))
    case assign =>
      refine .after fun _ => (tidy_rightOperand sound structs _).bind fun right tidyRight => ?_
      exact .go (.plain (.cons tidy (.single tidyRight)))
    case range =>
      refine .after fun closed => ?_
      refine (tidy_rangeEnd closed structs (tidy_rightOperand sound structs _)).bind ?_
      exact fun bound tidyBound => .go (.plain (.cons tidy tidyBound))
    case cast =>
      refine .after fun _ => (sound.type false).bind fun type tidyType => .after fun tokens => ?_
      exact .when fun _ => .go (.plain (.cons tidy (.single tidyType)))

theorem tidy_operators {left : Construct} (tidy : left.Tidy) (structs : Bool) (base : Precedence) :
    Gives (rules.operators left structs base) Tidy :=
  .loop tidy fun _ tidyLeft => tidy_operatorStep sound structs base tidyLeft

theorem tidy_expr (structs : Bool) : Gives (rules.expr structs) Tidy :=
  (sound.unary structs).bind fun _ tidy => sound.operators tidy structs .jump

/-! ## What follows an operand -/

private theorem tidy_memberAccess {object : Construct} (tidy : object.Tidy) :
    Gives (rules.memberAccess object) Tidy := by
  refine .after fun awaited => .ite (.pure (.plain (.single tidy))) ?_
  refine .after fun named => .after fun tokens => ?_
  extract_lets access
  have tidyAccess (turbofish : Option (List Construct)) (tidyArgs : AllTidy (turbofish.getD [])) :
      Gives (access turbofish) Tidy := by
    refine .ite ?_ (.pure (.plain (.single tidy)))
    refine ((sound.expr true).commas _).bind fun args tidyMore => ?_
    exact .pure (.plain (.cons tidy (tidyArgs.append tidyMore)))
  refine .ite (.after fun _ => ?_) (.bind (.pure AllTidy.nil) tidyAccess)
  exact (tidy_angleArguments sound).bind fun args tidyArgs => .bind (.pure tidyArgs) tidyAccess

omit sound in
private theorem tidy_repeat {operand : Construct} (tidy : operand.Tidy) (count : Nat) :
    Tidy (Nat.repeat (fun object => node .fieldAccess [] [object]) count operand) := by
  induction count with
  | zero => exact tidy
  | succ count ih => exact .plain (.single ih)

private theorem tidy_trailerStep {operand : Construct} (tidy : operand.Tidy) :
    Gives (rules.trailerStep operand) fun next => ∀ longer ∈ next, longer.Tidy := by
  refine .after fun tokens => .ite ?call (.ite ?field (.ite ?index (.ite ?question .stop)))
  case call =>
    refine ((sound.expr true).commas _).bind fun args tidyArgs => ?_
    exact .go (.plain (.cons tidy tidyArgs))
  case field =>
    refine .after fun _ => .after fun tokens => ?_
    split
    · refine .after fun _ => ?_
      split
      · exact .failure
      · -- a number with a point stands for several fields
        have tidyObject := tidy_repeat tidy
        exact .ite (tidy_memberAccess sound (tidyObject _)).map_some (.go (tidyObject _))
    · exact (tidy_memberAccess sound tidy).map_some
  case index =>
    refine ((sound.expr true).inside _).bind fun index tidyIndex => ?_
    exact .go (.plain (.cons tidy (.single tidyIndex)))
  case question => exact .after fun _ => .go (.plain (.single tidy))

theorem tidy_trailers {operand : Construct} (tidy : operand.Tidy) :
    Gives (rules.trailers operand) Tidy :=
  .loop tidy fun _ tidyOperand => tidy_trailerStep sound tidyOperand

/-! ## Operands -/

omit sound in
/-- The parameters and the body are out of sight, whatever they are. -/
theorem tidy_closure (structs : Bool) : Gives (rules.closure structs) Tidy := by
  refine .after fun binder => .after fun _ => .after fun _ => .after fun _ => .after fun _ => ?_
  refine .after fun _ => .after fun params => .after fun _ => .after fun typed => .ite ?_ ?_
  · exact .after fun type => .after fun stmts => .pure (.listed rfl)
  · exact .after fun value => .pure (.listed rfl)

private theorem tidy_fieldValue : Gives rules.fieldValue Tidy := by
  refine (tidy_outerAttributes sound).bind fun attrs tidyAttrs => .after fun named => ?_
  refine .after fun tokens => .ite (.after fun _ => ?_) (.pure (.leaf tidyAttrs))
  exact (sound.expr true).bind fun value tidy => .pure (.node tidyAttrs (.single tidy))

private theorem tidy_structLiteral {path : PathRead} (tidy : path.Tidy) :
    Gives (rules.structLiteral path) Tidy := by
  refine .bind (.inside (tidy_loop fun fields done tidyFields => ?_) _)
    fun (fields, _) tidyFields => .pure (.plain (tidy.parts.append tidyFields.reverse))
  refine .after fun tokens => .ite .stop (.after fun base => .ite ?_ ?_)
  · refine .after fun tokens => .ite (.go tidyFields) ?_
    exact (sound.expr true).bind fun value tidyValue => .go (.cons tidyValue tidyFields)
  · refine (tidy_fieldValue sound).bind fun field tidyField => .after fun tokens => ?_
    have more : AllTidy (field :: fields) := .cons tidyField tidyFields
    exact .ite (.go more) (.after fun _ => .go more)

private theorem tidy_pathExpr (structs : Bool) : Gives (rules.pathExpr structs) Tidy := by
  refine (tidy_qualifiedPath sound true).bind fun path tidy => .after fun tokens => .ite ?_ ?_
  · exact .after fun _ => .after fun _ => .pure (.leaf .nil)
  · exact .ite (tidy_structLiteral sound tidy) (.pure tidy.construct)

theorem tidy_moreElements {first : Construct} (tidy : first.Tidy) :
    Gives (rules.moreElements first) AllTidy := by
  refine .after fun tokens => .ite (.pure (.single tidy)) (.after fun _ => ?_)
  exact ((sound.expr true).separated _).bind fun rest tidyRest => .pure (.cons tidy tidyRest)

private theorem tidy_parenExpr : Gives rules.parenExpr Tidy := by
  refine .inside (.after fun tokens => .ite (.pure (.leaf .nil)) ?_) _
  refine (sound.expr true).bind fun first tidyFirst => .after fun tokens => ?_
  refine .ite (.pure (.plain (.single tidyFirst))) ?_
  exact (tidy_moreElements sound tidyFirst).bind fun elements tidy => .pure (.plain tidy)

private theorem tidy_arrayExpr : Gives rules.arrayExpr Tidy := by
  refine .inside (.after fun tokens => .ite (.pure (.leaf .nil)) ?_) _
  refine (sound.expr true).bind fun first tidyFirst => .after fun repeated => .ite ?_ ?_
  · refine (sound.expr true).bind fun count tidyCount => ?_
    exact .pure (.plain (.cons tidyFirst (.single tidyCount)))
  · exact (tidy_moreElements sound tidyFirst).bind fun elements tidy => .pure (.plain tidy)

private theorem tidy_operand? : Gives rules.operand? AllTidy := by
  refine .after fun tokens => .ite ?_ (.pure .nil)
  exact (sound.expr true).bind fun value tidy => .pure (.single tidy)

omit sound in
private theorem tidy_breakExpr (structs : Bool) : Gives (rules.breakExpr structs) Tidy := by
  refine .after fun _ => .after fun tokens => ?_
  extract_lets whole rest
  have tidy (done : Unit) : Gives (rest done) Tidy :=
    .after fun _ => .ite_after fun _ => .pure (.listed rfl)
  exact .ite (.after fun _ => .after fun _ => .when tidy) (tidy ())

private theorem tidy_letCondition (structs : Bool) : Gives (rules.letCondition structs) Tidy := by
  refine .after fun _ => (tidy_patterns sound).bind fun pattern tidyPattern => .after fun _ => ?_
  refine (sound.unary structs).bind fun left tidyLeft => ?_
  refine (sound.operators tidyLeft structs _).bind fun value tidyValue => ?_
  exact .pure (.plain (.cons tidyPattern (.single tidyValue)))

omit sound in
/-- A chain of conditions is an expression with an outline, unless it is only the last branch. -/
theorem tidy_ifChain {last : Option Construct} (tidy : ∀ expr ∈ last, expr.Tidy)
    (clauses : List (Construct × List Construct)) : ∀ expr ∈ ifChain last clauses, expr.Tidy := by
  unfold ifChain
  split
  · exact tidy
  · split
    · exact fun expr same => Option.mem_some.mp same ▸ .of_hidden rfl rfl
    · exact fun expr same => Option.mem_some.mp same ▸ .of_hidden rfl rfl

omit sound in
/-- Of the clauses nothing is asked: their branches may hold imports. -/
theorem tidy_ifClauses : Gives rules.ifClauses fun read => ∀ expr ∈ read.2, expr.Tidy := by
  refine .after fun first => .after fun rest => .after fun more => .ite (.after fun stmts => ?_) ?_
  · exact .pure fun expr same => Option.mem_some.mp same ▸ .listed rfl
  · exact .pure fun expr absent => nomatch absent

omit sound in
theorem tidy_ifExpr : Gives rules.ifExpr Tidy := by
  refine tidy_ifClauses.bind fun (clauses, last) tidy => ?_
  dsimp only
  split
  · next expr found => exact .pure (tidy_ifChain tidy clauses expr found)
  · exact .failure

omit sound in
theorem tidy_matchExpr : Gives rules.matchExpr Tidy :=
  .after fun _ => .after fun _ => .after fun (_, _) => .pure (.listed rfl)

omit sound in
theorem tidy_forLoop : Gives rules.forLoop Tidy :=
  .after fun _ => .after fun _ => .after fun _ => .after fun _ => .after fun (_, _) =>
    .pure (.listed rfl)

omit sound in
theorem tidy_whileLoop : Gives rules.whileLoop Tidy :=
  .after fun _ => .after fun _ => .after fun (_, _) => .pure (.listed rfl)

omit sound in
theorem tidy_wordBlock (text : String) {form : Form} (kind : form.kind?.isSome = true) :
    Gives (rules.wordBlock text form) Tidy :=
  .after fun _ => .after fun (_, _) => .pure (.listed kind)

theorem tidy_tryBlock : Gives rules.tryBlock Tidy := by
  refine .after fun _ => (placed_plainBlock sound).bind fun stmts placed => ?_
  exact .pure (.block (.inr rfl) .nil placed)

omit sound in
private theorem tidy_asyncBlock : Gives rules.asyncBlock Tidy :=
  .after fun _ => .after fun _ => .after fun _ => .pure (.listed rfl)

omit sound in
theorem tidy_labeled : Gives rules.labeled Tidy := by
  refine .after fun _ => .after fun _ => .after fun tokens => ?_
  exact .ite tidy_whileLoop (.ite tidy_forLoop (.ite (tidy_wordBlock "loop" rfl)
    (.ite tidy_blockExpr .failure)))

omit sound in
private theorem tidy_builtinExpr : Gives builtinExpr Tidy :=
  .after fun _ => .after fun _ => .after fun _ => .after fun _ => .pure .raw

private theorem tidy_atom (structs : Bool) : Gives (rules.atom structs) Tidy := by
  refine .after fun tokens => ?_
  extract_lets next
  split
  · exact tidy_parenExpr sound
  · exact tidy_arrayExpr sound
  · exact tidy_blockExpr
  · exact tidy_labeled
  refine .ite ?literal (.ite tidy_asyncBlock (.ite (tidy_tryBlock sound) (.ite (tidy_closure structs)
    (.ite tidy_builtinExpr (.ite (tidy_pathExpr sound structs) (.ite (tidy_breakExpr structs)
      (.ite ?continued (.ite ?returned (.ite ?become (.ite (tidy_letCondition sound structs)
        (.ite tidy_ifExpr (.ite tidy_whileLoop (.ite tidy_forLoop (.ite (tidy_wordBlock "loop" rfl)
          (.ite tidy_matchExpr (.ite ?yield (.ite (tidy_wordBlock "unsafe" rfl)
            (.ite (tidy_constBlock sound) (.ite ?range (.ite ?infer .failure))))))))))))))))))))
  case literal => exact .after fun _ => .pure (.leaf .nil)
  case continued => exact .after fun _ => .after fun tokens => .when fun _ => .pure (.leaf .nil)
  case returned =>
    exact .after fun _ => (tidy_operand? sound).bind fun value tidy => .pure (.plain tidy)
  case become => exact .after fun _ => .after fun _ => .pure .raw
  case yield =>
    exact .after fun _ => (tidy_operand? sound).bind fun value tidy => .pure (.plain tidy)
  case range =>
    refine .after fun closed => ?_
    refine (tidy_rangeEnd closed structs (tidy_rightOperand sound structs _)).bind ?_
    exact fun bound tidy => .pure (.plain tidy)
  case infer => exact .after fun _ => .pure (.leaf .nil)

theorem tidy_unary (structs : Bool) : Gives (rules.unary structs) Tidy := by
  have operand := sound.unary structs
  refine (tidy_outerAttributes sound).bind fun attrs tidyAttrs => .after fun tokens => ?_
  refine .ite ?reference (.ite ?sign ?operand)
  case reference =>
    refine .after fun _ => .after fun tokens => .when fun _ => .after fun mutable => .when fun _ => ?_
    exact operand.bind fun value tidy => .pure (.node tidyAttrs (.single tidy))
  case sign =>
    refine .after fun _ => ?_
    exact operand.bind fun value tidy => .pure (.node tidyAttrs (.single tidy))
  case operand =>
    refine (tidy_atom sound structs).bind fun atom tidyAtom => ?_
    refine (tidy_trailers sound tidyAtom).bind fun value tidy => .when fun _ => ?_
    exact .pure (tidy.addAttributes tidyAttrs)

private theorem tidy_leadingBlock? :
    Gives rules.leadingBlock? fun block => ∀ expr ∈ block, expr.Tidy := by
  refine .after fun tokens => ?_
  extract_lets next
  exact .ite tidy_ifExpr.map_some (.ite tidy_whileLoop.map_some (.ite tidy_forLoop.map_some
    (.ite (tidy_wordBlock "loop" rfl).map_some (.ite tidy_matchExpr.map_some
      (.ite (tidy_tryBlock sound).map_some (.ite (tidy_wordBlock "unsafe" rfl).map_some
        (.ite (tidy_constBlock sound).map_some (.ite tidy_blockExpr.map_some
          (.ite tidy_labeled.map_some .stop)))))))))

theorem tidy_statementExpr : Gives rules.statementExpr Tidy := by
  refine (tidy_outerAttributes sound).bind fun attrs tidyAttrs => ?_
  refine (tidy_leadingBlock? sound).bind fun block tidyBlock => ?_
  cases block with
  | some expr =>
    have tidyExpr := tidyBlock expr rfl
    refine .after fun tokens => .ite ?_ (.pure (tidyExpr.addAttributes tidyAttrs))
    refine (tidy_trailers sound tidyExpr).bind fun operand tidy => ?_
    exact sound.operators (tidy.addAttributes tidyAttrs) true _
  | none =>
    refine (sound.unary true).bind fun operand tidy => ?_
    exact sound.operators (tidy.addAttributes tidyAttrs) true _

end Rules

end CrateAtlas.Source
