import ContextLint.Proofs.Scope.Visited
import ContextLint.Proofs.Source.Inherited

/-!
# Inherited properties of the expressions in statements

A property that expressions inherit from their parts holds of every expression in the patterns and
statements that the grammar delivers, at every depth of nesting.
-/

namespace ContextLint.Source

variable {P : Expr → Prop}

private theorem Pattern.forall_mem_expressionsOf {ps : List Pattern} :
    (∀ e ∈ expressionsOf ps, P e) ↔ ∀ p ∈ ps, p.Holds P := by
  induction ps with
  | nil => simp [expressionsOf]
  | cons p rest ih =>
    simp only [expressionsOf, List.forall_mem_append, List.forall_mem_cons, ih, Holds]

namespace Stmt

private theorem forall_mem_expressionsOf {body : List Stmt} :
    (∀ e ∈ expressionsOf body, P e) ↔ ∀ s ∈ body, s.Holds P := by
  rw [expressionsOf_eq_flatMap, List.forall_mem_flatMap]
  rfl

/-- All expressions of an `except` clause have the property. -/
def HandlerHolds (P : Expr → Prop) : Handler → Prop
  | .mk type _ body => (∀ e ∈ type, P e) ∧ ∀ s ∈ body, s.Holds P

/-- All expressions of a `case` clause have the property. -/
def CaseHolds (P : Expr → Prop) : Case → Prop
  | .mk pattern guard body => pattern.Holds P ∧ (∀ e ∈ guard, P e) ∧ ∀ s ∈ body, s.Holds P

private theorem forall_mem_handlerExpressions {hs : List Handler} (h : ∀ x ∈ hs, HandlerHolds P x) :
    ∀ e ∈ handlerExpressions hs, P e := by
  induction hs with
  | nil => simp [handlerExpressions]
  | cons x rest ih =>
    obtain ⟨type, name, body⟩ := x
    obtain ⟨⟨htype, hbody⟩, hrest⟩ := List.forall_mem_cons.mp h
    simp only [handlerExpressions, List.forall_mem_append, forall_mem_expressionsOf,
      Option.mem_toList]
    exact ⟨⟨htype, hbody⟩, ih hrest⟩

private theorem forall_mem_caseExpressions {cs : List Case} (h : ∀ x ∈ cs, CaseHolds P x) :
    ∀ e ∈ caseExpressions cs, P e := by
  induction cs with
  | nil => simp [caseExpressions]
  | cons x rest ih =>
    obtain ⟨pattern, guard, body⟩ := x
    obtain ⟨⟨hpattern, hguard, hbody⟩, hrest⟩ := List.forall_mem_cons.mp h
    simp only [caseExpressions, List.forall_mem_append, forall_mem_expressionsOf, Option.mem_toList]
    exact ⟨⟨⟨hpattern, hguard⟩, hbody⟩, ih hrest⟩

end Stmt

namespace Grammar

open Source.Parser

variable {lines : Nat → Prop} {tokens : Lexed → Prop} {l : Lexed} {r : Rules}

private theorem import_holds (stmt : Import) : (Stmt.imports stmt).Holds P := by
  simp [Stmt.Holds, Stmt.expressions]

private theorem importStmt_delivers : Delivers l importStmt (Stmt.Holds P) :=
  .seq fun _ => .seq fun _ => .pure (import_holds _)

private theorem fromStmt_delivers : Delivers l fromStmt (Stmt.Holds P) := by
  have hrest (level : Nat) (module : Option String) : Delivers l (
      if module.isNone && level == 0 then miss
      else do
        let _ ← word "import"
        let source : ImportSource := ⟨module, level⟩
        if ← accept (isOp "*") then return .imports ⟨some source, [⟨"*", none⟩]⟩
        else if ← accept (isOp "(") then
          let names ← aliases (aliasOf identifier) (some ")")
          let _ ← op ")"
          return .imports ⟨some source, names⟩
        else return .imports ⟨some source, ← aliases (aliasOf identifier) none⟩)
      (Stmt.Holds P) := by
    refine .ite .miss ?_
    refine .seq fun _ => .test (.pure (import_holds _)) ?_
    refine .test ?_ ?_
    · exact .seq fun _ => .seq fun _ => .pure (import_holds _)
    · exact .seq fun _ => .pure (import_holds _)
  refine .seq fun _ => .seq fun level => .seq fun t => ?_
  dsimp only
  refine .ite (.seq fun module => hrest level module) ?_
  exact .seq fun module => hrest level module

private theorem inert_holds : Stmt.inert.Holds P := by simp [Stmt.Holds, Stmt.expressions]

private theorem scopeStmt_delivers : Delivers l scopeStmt (Stmt.Holds P) := by
  refine .seq fun _ => .seq fun _ => ?_
  refine Delivers.loop (I := fun _ => True) (fun _ _ => .seq fun more => ?_) trivial
  exact .ite (.seq fun _ => .pure trivial) (.pure inert_holds)

private theorem branch_holds {test : Expr} {stmts orelse : List Stmt} (htest : P test)
    (hstmts : ∀ s ∈ stmts, s.Holds P) (horelse : ∀ s ∈ orelse, s.Holds P) :
    (Stmt.branch test stmts orelse).Holds P := by
  simp only [Stmt.Holds, Stmt.expressions, List.cons_append, List.forall_mem_cons,
    List.forall_mem_append, Stmt.forall_mem_expressionsOf]
  exact ⟨htest, hstmts, horelse⟩

/-- Branches nested from the last to the first, each as the `else` body of the one before. -/
theorem nested_holds {earlier : List (Expr × List Stmt)}
    (hearlier : ∀ b ∈ earlier, P b.1 ∧ ∀ s ∈ b.2, s.Holds P) {inner : Stmt}
    (hinner : inner.Holds P) :
    (earlier.foldl (fun inner b => .branch b.1 b.2 [inner]) inner).Holds P := by
  induction earlier generalizing inner with
  | nil => exact hinner
  | cons b rest ih =>
    obtain ⟨hb, hrest⟩ := List.forall_mem_cons.mp hearlier
    exact ih hrest (branch_holds hb.1 hb.2 (List.forall_mem_singleton.mpr hinner))

namespace Reading

variable (hr : Reading lines tokens P l r)

include hr

private theorem numberPattern : Delivers l numberPattern P := by
  have hnumber := hr.number
  have hsigned : Delivers l signedNumber P := by
    refine hr.here.bind fun start hstart => .test ?_ ?_
    · exact hnumber.bind fun e he => hr.around hstart (fun _ => ⟨rfl, rfl, rfl⟩) he
    · exact hnumber
  refine hr.here.bind fun start hstart => hsigned.bind fun first hfirst => ?_
  refine .seq fun _ => .ite ?_ ?_
  · refine .seq fun _ => ?_
    refine .ite .miss ?_
    refine hnumber.bind fun second hsecond => ?_
    split
    · exact hr.made hstart (fun _ => ⟨rfl, rfl⟩) fun _ => by simp [Expr.children, hfirst, hsecond]
    · exact .miss
  · exact .pure hfirst

private theorem dottedName : Delivers l dottedName P := by
  refine hr.here.bind fun start hstart => .seq fun name => ?_
  refine (site_delivers hstart).bind fun s hs => ?_
  refine Delivers.loop (I := P) (fun e he => .seq fun dot => ?_)
    (hr.node hs rfl (List.forall_mem_nil P))
  split
  · exact .seq fun name => (site_delivers hstart).bind fun s hs =>
      .pure (hr.node hs rfl (List.forall_mem_singleton.mpr he))
  · exact .pure he

private theorem literalPattern :
    Delivers l (literalPattern? r) fun literal => ∀ value ∈ literal, ∀ e ∈ value, P e := by
  refine .seq fun _ => .ite ?_ ?_
  · exact hr.numberPattern.bind fun e he => .pure (by simpa using he)
  · split
    · exact (hr.strings hr.among fun hl => (hr.onTokens hl).starExpressions).bind fun e he =>
        .pure (by simpa using he)
    · exact .ite (.seq fun _ => .pure (by simp)) (.pure (by simp))

private theorem starPattern : Delivers l (starPattern r) (Pattern.Holds P) := by
  refine .test ?_ ?_
  · refine .test ?_ ?_
    · exact .pure (by simp [Pattern.Holds, Pattern.expressions])
    · exact .seq fun name => .pure (by simp [Pattern.Holds, Pattern.expressions])
  · exact hr.nestedPattern

private theorem patternList (ends : Token → Bool) :
    Delivers l (patternList r ends) fun x => ∀ p ∈ x.1, p.Holds P := by
  have hitem := hr.starPattern
  refine .test (.pure (by simp)) ?_
  refine hitem.bind fun first hfirst => ?_
  refine Delivers.loop (I := fun x => ∀ p ∈ x.1, p.Holds P) ?_
    (List.forall_mem_singleton.mpr hfirst)
  rintro ⟨items, comma⟩ hitems
  refine .test ?_ ?_
  · refine .test (.pure (forall_mem_reverse hitems)) ?_
    exact hitem.bind fun p hp => .pure (List.forall_mem_cons.mpr ⟨hp, hitems⟩)
  · exact .pure (forall_mem_reverse hitems)

private theorem mappingTail : Delivers l (mappingTail r) (Pattern.Holds P) := by
  have hitem : Delivers l (mappingItem r) fun x => P x.1 ∧ x.2.Holds P := by
    refine hr.here.bind fun start hstart => ?_
    refine hr.literalPattern.bind fun literal hliteral => ?_
    have hrest {key : Expr} (hkey : P key) : Delivers l (do
        let _ ← op ":"
        return (key, ← r.pattern)) fun x => P x.1 ∧ x.2.Holds P :=
      .seq fun _ => hr.nestedPattern.bind fun p hp => .pure ⟨hkey, hp⟩
    dsimp only
    split
    · exact hrest (hliteral _ rfl _ rfl)
    · refine Delivers.bind (P := P) ?_ fun key hkey => hrest hkey
      change Delivers l (Expr.constant <$> site start >>= fun f => f <$> Pure.pure Constant.none) P
      refine Delivers.bind (P := fun f => P (f .none)) ((site_delivers hstart).map fun s hs => ?_)
        fun f hf => Delivers.map (P := (· = .none)) (.pure rfl) fun v hv => hv ▸ hf
      exact hr.node hs rfl (List.forall_mem_nil P)
    · refine hr.dottedName.bind fun e he => ?_
      split
      · exact hrest he
      · exact Delivers.bind (P := P) .miss fun key hkey => hrest hkey
  have hfinish {items : List (Expr × Pattern)} (hitems : ∀ x ∈ items, P x.1 ∧ x.2.Holds P)
      (rest : Option String) : Pattern.Holds P
        (.mapping (items.reverse.map Prod.fst) (items.reverse.map Prod.snd) rest) := by
    simp only [Pattern.Holds, Pattern.expressions, List.forall_mem_append, List.forall_mem_map,
      Pattern.forall_mem_expressionsOf]
    exact ⟨fun x hx => (forall_mem_reverse hitems x hx).1,
      fun x hx => (forall_mem_reverse hitems x hx).2⟩
  refine Delivers.loop (I := fun items => ∀ x ∈ items, P x.1 ∧ x.2.Holds P)
    (fun items hitems => .seq fun closed => ?_) (by simp)
  refine .ite (.pure (hfinish hitems none)) ?_
  refine .test ?_ ?_
  · exact .seq fun rest => .seq fun _ => .seq fun _ => .pure (hfinish hitems (some rest))
  · refine hitem.bind fun x hx => ?_
    have hitems : ∀ y ∈ x :: items, P y.1 ∧ y.2.Holds P := List.forall_mem_cons.mpr ⟨hx, hitems⟩
    exact separated_delivers hitems (isOp "\x7d")

private theorem classTail {cls : Expr} (hcls : P cls) :
    Delivers l (classTail r cls) (Pattern.Holds P) := by
  refine Delivers.loop
    (I := fun x => (∀ p ∈ x.1, Pattern.Holds P p) ∧ ∀ p ∈ x.2, Pattern.Holds P p) ?_ (by simp)
  rintro ⟨positional, keyword⟩ ⟨hpositional, hkeyword⟩
  refine .test ?_ ?_
  · refine .pure ?_
    simp only [Round.Keeps, Pattern.Holds, Pattern.expressions, List.cons_append,
      List.forall_mem_cons, List.forall_mem_append, Pattern.forall_mem_expressionsOf]
    exact ⟨hcls, forall_mem_reverse hpositional, forall_mem_reverse hkeyword⟩
  · refine .seq fun named => ?_
    dsimp only
    split
    · refine .seq fun _ => .seq fun _ => hr.nestedPattern.bind fun p hp => ?_
      exact separated_delivers ⟨hpositional, List.forall_mem_cons.mpr ⟨hp, hkeyword⟩⟩ (isOp ")")
    · split
      · refine hr.nestedPattern.bind fun p hp => ?_
        exact separated_delivers ⟨List.forall_mem_cons.mpr ⟨hp, hpositional⟩, hkeyword⟩ (isOp ")")
      · exact Delivers.bind (P := fun _ => False) .miss fun _ h => h.elim

private theorem closedPattern : Delivers l (closedPattern r) (Pattern.Holds P) := by
  have hvalue {e : Expr} (he : P e) : (Pattern.value e).Holds P := by
    simpa [Pattern.Holds, Pattern.expressions] using he
  have hcapture (name : Option String) : (Pattern.capture none name).Holds P := by
    simp [Pattern.Holds, Pattern.expressions]
  have hsequence {items : List Pattern} (h : ∀ p ∈ items, p.Holds P) :
      (Pattern.sequence items).Holds P := by
    simpa only [Pattern.Holds, Pattern.expressions, Pattern.forall_mem_expressionsOf] using h
  refine hr.literalPattern.bind fun literal hliteral => ?_
  split
  · exact .pure (hvalue (hliteral _ rfl _ rfl))
  · exact .pure (by simp [Pattern.Holds, Pattern.expressions])
  · refine .seq fun _ => .ite (.seq fun _ => .pure (hcapture none)) ?_
    split
    · refine hr.dottedName.bind fun e he => ?_
      split
      · refine .test (hr.classTail he) ?_
        exact .seq fun _ => .pure (hcapture _)
      · refine .test (hr.classTail he) ?_
        exact .seq fun _ => .pure (hvalue he)
    · split
      · refine .seq fun _ => (hr.patternList _).bind fun x hitems => ?_
        obtain ⟨items, comma⟩ := x
        refine .seq fun _ => ?_
        split
        · exact .ite .miss (.pure (hitems _ (List.mem_singleton_self _)))
        · exact .pure (hsequence hitems)
      · split
        · exact .seq fun _ => (hr.patternList _).bind fun x hx => .seq fun _ =>
            .pure (hsequence hx)
        · exact .ite (.seq fun _ => hr.mappingTail) .miss

private theorem pattern : Delivers l (pattern r) (Pattern.Holds P) := by
  have hitem := hr.closedPattern
  have halternatives {items : List Pattern} (h : ∀ p ∈ items, p.Holds P) :
      (Pattern.alternatives items).Holds P := by
    simpa only [Pattern.Holds, Pattern.expressions, Pattern.forall_mem_expressionsOf] using h
  refine hitem.bind fun first hfirst => (collected_delivers hitem _
    (List.forall_mem_singleton.mpr hfirst)).bind fun items hitems => .seq fun captured => ?_
  split
  · refine .seq fun name => .pure ?_
    simp only [Pattern.Holds, Pattern.expressions]
    split
    · exact hitems _ (List.mem_singleton_self _)
    · exact halternatives hitems
  · refine .pure ?_
    split
    · exact hitems _ (List.mem_singleton_self _)
    · exact halternatives hitems

private theorem patterns : Delivers l (patterns r) (Pattern.Holds P) := by
  refine (hr.patternList _).bind fun ⟨items, comma⟩ hitems => ?_
  dsimp only
  split
  · exact .ite .miss (.pure (hitems _ (List.mem_singleton_self _)))
  · exact .miss
  · refine .pure ?_
    simpa only [Pattern.Holds, Pattern.expressions, Pattern.forall_mem_expressionsOf] using hitems

/-- The statements of a body inherit the property. -/
protected theorem body : Delivers l (body r) fun stmts => ∀ s ∈ stmts, s.Holds P :=
  .seq fun _ => hr.rules.block hr.among

private theorem elseBody : Delivers l (elseBody r) fun stmts => ∀ s ∈ stmts, s.Holds P := by
  exact .test hr.body (.pure (by simp))

private theorem assignment : Delivers l (assignment r) (Stmt.Holds P) := by
  have hvalue := hr.assignedValue
  refine hr.starExpressions.bind fun first hfirst => .seq fun _ => .ite ?_ ?_
  · split
    · refine .seq fun _ => hr.nested.bind fun hint hhint => .seq fun given => ?_
      refine optional_delivers given hvalue fun value hvalue => .pure ?_
      simpa [Stmt.Holds, Stmt.expressions] using ⟨hfirst, hhint, hvalue⟩
    · exact .miss
  · split
    · split
      · refine Delivers.loop (I := fun targets => ∀ e ∈ targets, P e)
          (fun targets htargets => .seq fun _ => ?_) (List.forall_mem_singleton.mpr hfirst)
        refine hvalue.bind fun value hvalue => .test ?_ ?_
        · exact .ite (.pure (List.forall_mem_cons.mpr ⟨hvalue, htargets⟩)) .miss
        · refine .pure ?_
          simpa [Round.Keeps, Stmt.Holds, Stmt.expressions, or_imp, forall_and] using
            ⟨htargets, hvalue⟩
      · exact .miss
    · split
      · split
        · refine .seq fun _ => hvalue.bind fun value hvalue => .pure ?_
          simpa [Stmt.Holds, Stmt.expressions] using ⟨hfirst, hvalue⟩
        · exact .miss
      · exact .pure (by simpa [Stmt.Holds, Stmt.expressions] using hfirst)

private theorem raiseStmt : Delivers l (raiseStmt r) (Stmt.Holds P) := by
  refine .seq fun _ => .test ?_ ?_
  · refine hr.nested.bind fun exc hexc => .seq fun given => ?_
    refine optional_delivers given hr.nested fun cause hcause => .pure ?_
    simpa [Stmt.Holds, Stmt.expressions] using ⟨hexc, hcause⟩
  · exact .pure (by simp [Stmt.Holds, Stmt.expressions])

private theorem delStmt : Delivers l (delStmt r) (Stmt.Holds P) := by
  refine .seq fun _ => hr.nested.bind fun first hfirst => ?_
  refine (commaTail_delivers hr.nested _ hfirst).bind fun x hx => .seq fun t => ?_
  exact .ite (.pure (by simpa only [Stmt.Holds, Stmt.expressions] using hx)) .miss

private theorem assertStmt : Delivers l (assertStmt r) (Stmt.Holds P) := by
  refine .seq fun _ => hr.nested.bind fun test htest => .seq fun given => ?_
  refine optional_delivers given hr.nested fun msg hmsg => .pure ?_
  simpa [Stmt.Holds, Stmt.expressions] using ⟨htest, hmsg⟩

private theorem simpleStmt : Delivers l (simpleStmt r) (Stmt.Holds P) := by
  have hvalue {e : Expr} (he : P e) : (Stmt.value (some e)).Holds P := by
    simpa [Stmt.Holds, Stmt.expressions] using he
  refine .seq fun t => ?_
  split
  · refine .seq fun _ => .test ?_ ?_
    · exact hr.starExpressions.bind fun e he => .pure (hvalue he)
    · exact .pure (by simp [Stmt.Holds, Stmt.expressions])
  · exact importStmt_delivers
  · exact fromStmt_delivers
  · exact hr.raiseStmt
  · exact hr.delStmt
  · exact hr.yieldExpression.bind fun e he => .pure (hvalue he)
  · exact hr.assertStmt
  · exact scopeStmt_delivers
  · exact scopeStmt_delivers
  · exact .seq fun _ => .pure inert_holds
  · exact .seq fun _ => .pure inert_holds
  · exact .seq fun _ => .pure inert_holds
  · exact hr.assignment

private theorem simpleStmts : Delivers l (simpleStmts r) fun stmts => ∀ s ∈ stmts, s.Holds P := by
  have hstmt := hr.simpleStmt
  refine hstmt.bind fun first hfirst => ?_
  refine Delivers.loop (I := fun stmts => ∀ s ∈ stmts, s.Holds P)
    (fun stmts hstmts => .seq fun more => ?_) (by simpa using hfirst)
  have hdone := forall_mem_reverse hstmts
  split
  · refine .test (.pure hdone) ?_
    exact hstmt.bind fun s hs => .pure (List.forall_mem_cons.mpr ⟨hs, hstmts⟩)
  · exact .seq fun _ => .pure hdone

private theorem ifStmt : Delivers l (ifStmt r) (Stmt.Holds P) := by
  have hbranches : Delivers l (branches r) fun x =>
      (∀ b ∈ x.1, P b.1 ∧ ∀ s ∈ b.2, s.Holds P) ∧ ∀ s ∈ x.2, s.Holds P := by
    refine Delivers.loop (I := fun done => ∀ b ∈ done, P b.1 ∧ ∀ s ∈ b.2, s.Holds P)
      (fun done hdone => .seq fun _ => ?_) (by simp)
    refine hr.namedExpression.bind fun test htest => ?_
    refine hr.body.bind fun stmts hstmts => .seq fun more => ?_
    have hdone : ∀ b ∈ (test, stmts) :: done, P b.1 ∧ ∀ s ∈ b.2, s.Holds P :=
      List.forall_mem_cons.mpr ⟨⟨htest, hstmts⟩, hdone⟩
    exact .ite (.pure hdone) (hr.elseBody.bind fun orelse horelse => .pure ⟨hdone, horelse⟩)
  refine hbranches.bind fun ⟨done, orelse⟩ ⟨hdone, horelse⟩ => ?_
  cases done with
  | nil => exact .miss
  | cons last earlier =>
    obtain ⟨hlast, hearlier⟩ := List.forall_mem_cons.mp hdone
    exact .pure (nested_holds hearlier (branch_holds hlast.1 hlast.2 horelse))

private theorem whileStmt : Delivers l (whileStmt r) (Stmt.Holds P) := by
  refine .seq fun _ => hr.namedExpression.bind fun test htest => ?_
  refine hr.body.bind fun stmts hstmts => ?_
  exact hr.elseBody.bind fun orelse horelse => .pure (branch_holds htest hstmts horelse)

private theorem forStmt : Delivers l (forStmt r) (Stmt.Holds P) := by
  refine .seq fun _ => hr.starTargets.bind fun target htarget => .seq fun _ => ?_
  refine hr.starExpressions.bind fun iter hiter => ?_
  refine hr.body.bind fun stmts hstmts => ?_
  refine hr.elseBody.bind fun orelse horelse => .pure ?_
  simp only [Stmt.Holds, Stmt.expressions, List.cons_append, List.forall_mem_cons,
    List.forall_mem_append, Stmt.forall_mem_expressionsOf]
  exact ⟨htarget, hiter, hstmts, horelse⟩

private theorem withStmt : Delivers l (withStmt r) (Stmt.Holds P) := by
  have hitem : Delivers l (withItem r) fun i => ∀ e ∈ i.context :: i.target.toList, P e := by
    refine hr.nested.bind fun context hcontext => .test ?_ ?_
    · refine hr.starTarget.bind fun target htarget => .seq fun t => ?_
      exact .ite (.pure (by simp [hcontext, htarget])) .miss
    · exact .pure (by simpa using hcontext)
  have hplain : Delivers l (plainItems r) fun items =>
      ∀ i ∈ items, ∀ e ∈ i.context :: i.target.toList, P e :=
    hitem.bind fun first hfirst =>
      collected_delivers hitem _ (List.forall_mem_singleton.mpr hfirst)
  have hparenthesised : Delivers l (parenthesisedItems r) fun items =>
      ∀ i ∈ items, ∀ e ∈ i.context :: i.target.toList, P e := by
    refine .seq fun _ => hitem.bind fun first hfirst => ?_
    refine Delivers.bind (Delivers.loop
      (I := fun items => ∀ i ∈ items, ∀ e ∈ i.context :: i.target.toList, P e)
      (fun items hitems => .seq fun comma => ?_) (List.forall_mem_singleton.mpr hfirst))
      fun items hitems => .seq fun _ => .seq fun colon => .ite (.pure hitems) .miss
    split
    · refine .test (.pure (forall_mem_reverse hitems)) ?_
      exact hitem.bind fun i hi => .pure (List.forall_mem_cons.mpr ⟨hi, hitems⟩)
    · exact .pure (forall_mem_reverse hitems)
  have hrest {items : List WithItem}
      (hitems : ∀ i ∈ items, ∀ e ∈ i.context :: i.target.toList, P e) :
      Delivers l (do return .withBlock items (← body r)) (Stmt.Holds P) := by
    refine hr.body.bind fun stmts hstmts => .pure ?_
    simp only [Stmt.Holds, Stmt.expressions, List.forall_mem_append, List.forall_mem_flatMap,
      Stmt.forall_mem_expressionsOf]
    exact ⟨hitems, hstmts⟩
  refine .seq fun _ => .seq fun grouped => ?_
  dsimp only
  split
  · exact (hparenthesised.orElse hplain).bind fun items hitems => hrest hitems
  · exact hplain.bind fun items hitems => hrest hitems

private theorem tryStmt : Delivers l (tryStmt r) (Stmt.Holds P) := by
  have hbody := hr.body
  have hhandler (star : Bool) : Delivers l (handler r star) (Stmt.HandlerHolds P) := by
    refine .test ?_ ?_
    · exact hbody.bind fun stmts hstmts => .pure ⟨by simp, hstmts⟩
    · refine hr.nested.bind fun type htype => .seq fun named => ?_
      refine optional_delivers named (Q := fun _ => True) (fun _ _ _ _ => trivial) fun name _ => ?_
      exact hbody.bind fun stmts hstmts => .pure ⟨by simpa using htype, hstmts⟩
  have hhandlers : Delivers l (handlers r) fun hs => ∀ h ∈ hs, Stmt.HandlerHolds P h := by
    refine .seq fun t => Delivers.loop (I := fun hs => ∀ h ∈ hs, Stmt.HandlerHolds P h)
      (fun done hdone => .seq fun follows => ?_) (by simp)
    have hrest (sameForm : Bool) : Delivers l (if sameForm then do
          advance
          if isOp "*" t then advance
          return .again ((← handler r (isOp "*" t)) :: done)
        else return .leave done.reverse)
        (Round.Keeps (fun hs => ∀ h ∈ hs, Stmt.HandlerHolds P h)
          fun hs => ∀ h ∈ hs, Stmt.HandlerHolds P h) := by
      split
      · refine .seq fun _ => ?_
        split
        · exact .seq fun _ => (hhandler _).bind fun h hh =>
            .pure (List.forall_mem_cons.mpr ⟨hh, hdone⟩)
        · exact (hhandler _).bind fun h hh => .pure (List.forall_mem_cons.mpr ⟨hh, hdone⟩)
      · exact .pure (forall_mem_reverse hdone)
    dsimp only
    exact .ite (.seq hrest) (.seq hrest)
  have htry {stmts orelse finalbody : List Stmt} {hs : List Handler}
      (hstmts : ∀ s ∈ stmts, s.Holds P) (hhs : ∀ h ∈ hs, Stmt.HandlerHolds P h)
      (horelse : ∀ s ∈ orelse, s.Holds P) (hfinal : ∀ s ∈ finalbody, s.Holds P) :
      (Stmt.tryBlock stmts hs orelse finalbody).Holds P := by
    simp only [Stmt.Holds, Stmt.expressions, List.forall_mem_append, Stmt.forall_mem_expressionsOf]
    exact ⟨⟨⟨hstmts, Stmt.forall_mem_handlerExpressions hhs⟩, horelse⟩, hfinal⟩
  have hfinally : Delivers l (do if ← accept (isWord "finally") then body r else return [])
      fun stmts => ∀ s ∈ stmts, s.Holds P := by
    exact .test hbody (.pure (by simp))
  refine .seq fun _ => hbody.bind fun stmts hstmts => .test ?_ ?_
  · exact hfinally.bind fun finalbody hfinal => .pure (htry hstmts (by simp) (by simp) hfinal)
  · refine .test ?_ ?_
    · refine hhandlers.bind fun hs hhs => hr.elseBody.bind fun orelse horelse => ?_
      exact hfinally.bind fun finalbody hfinal => .pure (htry hstmts hhs horelse hfinal)
    · exact .miss

private theorem functionDef {decorators : List Expr} (hdecorators : ∀ e ∈ decorators, P e) :
    Delivers l (functionDef r decorators) (Stmt.Holds P) := by
  refine .seq fun _ => .seq fun name => .seq fun _ => ?_
  refine (hr.parameters true).bind fun params hparams => .seq fun _ => ?_
  refine .seq fun given => optional_delivers given hr.nested fun returns hreturns => ?_
  refine hr.body.bind fun stmts hstmts => .pure ?_
  simp only [Stmt.Holds, Stmt.expressions, List.forall_mem_append, Stmt.forall_mem_expressionsOf,
    Option.mem_toList]
  exact ⟨⟨⟨hparams, hstmts⟩, hdecorators⟩, hreturns⟩

private theorem classDef {decorators : List Expr} (hdecorators : ∀ e ∈ decorators, P e) :
    Delivers l (classDef r decorators) (Stmt.Holds P) := by
  have hrest (name : String) {x : List Expr × List Expr} (hx : (∀ e ∈ x.1, P e) ∧ ∀ e ∈ x.2, P e) :
      Delivers l (do return .classDef ⟨name, x.1, x.2, decorators⟩ (← body r)) (Stmt.Holds P) := by
    refine hr.body.bind fun stmts hstmts => .pure ?_
    simp only [Stmt.Holds, Stmt.expressions, List.forall_mem_append, Stmt.forall_mem_expressionsOf]
    exact ⟨⟨hx, hstmts⟩, hdecorators⟩
  refine .seq fun _ => .seq fun name => .seq fun given => ?_
  dsimp only
  split
  · exact hr.arguments.bind fun x hx => hrest name hx
  · exact hrest name (by simp)

private theorem decorated : Delivers l (decorated r) (Stmt.Holds P) := by
  refine Delivers.bind (P := fun ds => ∀ e ∈ ds, P e)
    (Delivers.loop (I := fun ds => ∀ e ∈ ds, P e) (fun ds hds => .seq fun more => ?_)
      (List.forall_mem_nil P)) fun ds hds => .seq fun isClass => ?_
  · split
    · exact hr.namedExpression.bind fun e he => .seq fun _ =>
        .pure (List.forall_mem_cons.mpr ⟨he, hds⟩)
    · exact .pure (forall_mem_reverse hds)
  · refine .ite (hr.classDef hds) ?_
    exact .seq fun _ => hr.functionDef hds

private theorem asyncStmt : Delivers l (asyncStmt r) (Stmt.Holds P) := by
  refine .seq fun _ => .seq fun _ => .ite (hr.functionDef (List.forall_mem_nil P)) ?_
  exact .ite hr.withStmt (.ite hr.forStmt .miss)

private theorem matchStmt : Delivers l (matchStmt r) (Stmt.Holds P) := by
  have hitem := hr.starNamed
  have hsubject : Delivers l (matchSubject r) P := by
    refine hr.here.bind fun start hstart => hitem.bind fun first hfirst => ?_
    refine (commaTail_delivers hitem _ hfirst).bind fun x hx => ?_
    dsimp only
    split
    · exact hr.made hstart (fun _ => ⟨rfl, rfl⟩) fun _ => hx
    · split
      · exact .miss
      · exact .pure hfirst
  have hcase : Delivers l (caseClause r) (Stmt.CaseHolds P) := by
    refine .seq fun _ => hr.patterns.bind fun p hp => .seq fun given => ?_
    refine optional_delivers given hr.namedExpression fun guard hguard => ?_
    exact hr.body.bind fun stmts hstmts => .pure ⟨hp, hguard, hstmts⟩
  refine .seq fun _ => hsubject.bind fun subject hsubject => .seq fun _ => .seq fun _ => ?_
  refine .seq fun _ => hcase.bind fun first hfirst => Delivers.bind
    (P := fun cases => ∀ c ∈ cases, Stmt.CaseHolds P c) ?_ fun cases hcases => .pure ?_
  · refine Delivers.loop (I := fun cases => ∀ c ∈ cases, Stmt.CaseHolds P c)
      (fun cases hcases => .seq fun ends => ?_) (List.forall_mem_singleton.mpr hfirst)
    refine .ite (.pure (forall_mem_reverse hcases)) ?_
    exact hcase.bind fun c hc => .pure (List.forall_mem_cons.mpr ⟨hc, hcases⟩)
  · simp only [Stmt.Holds, Stmt.expressions, List.forall_mem_cons]
    exact ⟨hsubject, Stmt.forall_mem_caseExpressions hcases⟩

private theorem statement : Delivers l (statement r) fun stmts => ∀ s ∈ stmts, s.Holds P := by
  have hone {p : Parser Stmt} (hp : Delivers l p (Stmt.Holds P)) :
      Delivers l ((fun s => [s]) <$> p) fun stmts => ∀ s ∈ stmts, s.Holds P :=
    hp.map fun s hs => List.forall_mem_singleton.mpr hs
  refine .seq fun t => ?_
  dsimp only
  refine .ite (hone hr.decorated) ?_
  split
  · exact hone (hr.functionDef (List.forall_mem_nil P))
  · exact hone (hr.classDef (List.forall_mem_nil P))
  · exact hone hr.asyncStmt
  · exact hone hr.ifStmt
  · exact hone hr.whileStmt
  · exact hone hr.forStmt
  · exact hone hr.withStmt
  · exact hone hr.tryStmt
  · exact (hone hr.matchStmt).orElse hr.simpleStmts
  · exact hr.simpleStmts

private theorem statementsUntil (close : TokenKind) :
    Delivers l (statementsUntil r close) fun stmts => ∀ s ∈ stmts, s.Holds P := by
  refine Delivers.loop (I := fun done => ∀ stmts ∈ done, ∀ s ∈ stmts, Stmt.Holds P s)
    (fun done hdone => ?_) (by simp)
  refine hr.statement.bind fun stmts hstmts => .seq fun ends => ?_
  have hdone := List.forall_mem_cons.mpr ⟨hstmts, hdone⟩
  split
  · refine .pure fun s hs => ?_
    obtain ⟨stmts, hmem, hs⟩ := List.mem_flatten.mp hs
    exact forall_mem_reverse hdone stmts hmem s hs
  · exact .pure hdone

private theorem block : Delivers l (block r) fun stmts => ∀ s ∈ stmts, s.Holds P := by
  exact .test (.seq fun _ => hr.statementsUntil _) hr.simpleStmts

/-- All statements of a file inherit the property. -/
protected theorem file : Delivers l (file r) fun stmts => ∀ s ∈ stmts, s.Holds P := by
  exact .test (.pure (by simp)) (hr.statementsUntil _)

/-- An expression that stands alone inherits the property. -/
protected theorem lone : Delivers l (lone r) P := by
  refine (hr.tupleOf hr.nested _).bind fun e he => ?_
  refine Delivers.loop (I := fun _ => True) (fun _ _ => .seq fun more => ?_) trivial
  refine .ite (.pure trivial) ?_
  exact .seq fun _ => .pure he

end Reading

/-- The grammar delivers inherited properties at every depth of nesting. -/
theorem rules_deliver (hP : Inherited lines tokens P) (characters : CharacterNames)
    (depth : Nat) : RulesDeliver tokens P (rules characters depth) := by
  induction depth with
  | zero => exact ⟨fun _ => .miss, fun _ => .miss, fun _ => .miss, fun _ => .miss, fun _ => .miss⟩
  | succ depth ih =>
    have hr {l : Lexed} (hl : tokens l) : Reading lines tokens P l (rules characters depth) :=
      ⟨hP, hl, ih⟩
    exact ⟨fun hl => (hr hl).expression, fun hl => (hr hl).inversion, fun hl => (hr hl).factor,
      fun hl => (hr hl).pattern, fun hl => (hr hl).block⟩

end Grammar

end ContextLint.Source
