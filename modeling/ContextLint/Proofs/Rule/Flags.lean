import Mathlib.Logic.Function.Basic
import ContextLint.Proofs.Fluent.Injection
import ContextLint.Proofs.Rule.Straight
import ContextLint.Proofs.Rule.Tracker

/-!
# Flags of values

A value is flagged if a context was injected somewhere in the chain of calls that made it, names
included. The flags of a straight-line body are followed move by move, from any flags at its start.
What a tracker knows is always less: a name it takes to carry a context is flagged. So a call that
emits an event and is not reported has a flagged receiver.
-/

namespace ContextLint.Rule

open Source Scope Fluent

/-- Whether a value is flagged under the flags of the names: a name has its own flag, and a method
call has that of its receiver unless it injects a context into an event or a configuration. -/
def flag (q : Inquiry) (φ : String → Bool) : Expr → Bool
  | .name _ id => φ id
  | .call site (.attr site' receiver method) args keywords =>
    flag q φ receiver ||
      (method == q.method &&
        (Expr.call site (.attr site' receiver method) args keywords).firstArgument?.any
          (fun arg => q.capability.classify (q.info.typeOf? arg)) &&
        (q.info.hasType receiver q.builderType || q.info.hasType receiver q.producerType))
  | _ => false

/-- How a move turns the flags of the names. -/
inductive Move.Turns (q : Inquiry) : Move → (String → Bool) → (String → Bool) → Prop
  | eval (e : Expr) (φ : String → Bool) : Turns q (.eval e) φ φ
  | copy (name : String) (value : Expr) (φ : String → Bool) :
    Turns q (.copy name value) φ (Function.update φ name (flag q φ value))
  | rebind (names : List String) (φ ψ : String → Bool) (h : ∀ x, x ∉ names → ψ x = φ x) :
    Turns q (.rebind names) φ ψ

/-- How several moves turn the flags of the names. -/
inductive Turns (q : Inquiry) : List Move → (String → Bool) → (String → Bool) → Prop
  | nil (φ : String → Bool) : Turns q [] φ φ
  | cons {move rest φ ψ χ} (h : move.Turns q φ ψ)
    (hrest : Turns q rest ψ χ) : Turns q (move :: rest) φ χ

variable {role : Role} {e : Expr} {x : String}

section

variable {q : Inquiry} {φ : String → Bool}

/-- A call that injects a context has a flagged value. -/
theorem flag_of_injects (h : q.injects role e) : flag q φ e := by
  obtain ⟨_, _, receiver, _, _, arg, rfl, harg, hcontext, htype⟩ := Inquiry.exists_of_injects h
  cases role <;> simp_all [flag, Inquiry.receiverType]

/-- A chain that carries a context has a flagged value. -/
theorem flag_of_carries (h : q.carries role e) : flag q φ e := by
  fun_induction Inquiry.carries q role e with
  | case1 site site' receiver method args keywords ih =>
    rw [Bool.or_eq_true] at h
    rcases h with h | h
    · exact flag_of_injects h
    · simp [flag, ih h]
  | case2 => cases h

/-- A chain on a flagged name has a flagged value. -/
theorem flag_of_root (he : e.rootName? = some x) (hx : φ x) : flag q φ e := by
  unfold Expr.rootName? at he
  fun_induction Expr.chainRoot e with
  | case1 site site' receiver method args keywords ih => simp [flag, ih he]
  | case2 e _ =>
    cases e with
    | name site id =>
      obtain rfl := Option.some.inj he
      exact hx
    | _ => cases he

end

/-- What a tracker that follows names takes to carry a context is flagged. -/
structure Tracker.Under (t : Tracker) (φ : String → Bool) : Prop where
  /-- Names are followed. -/
  records : t.records = true
  /-- Events and configurations that carry a context are flagged. -/
  builders : ∀ {x}, t.builders.get? x = some .carries → φ x = true
  /-- Loggers that carry a context are flagged. -/
  producers : ∀ {x}, t.producers.get? x = some .carries → φ x = true

variable {q : Inquiry}

namespace Tracker.Under

variable {a : Analysis} {t : Tracker} {φ ψ : String → Bool}

/-- A tracker that knows nothing is below all flags. -/
theorem empty (params : List String) (φ : String → Bool) :
    (Tracker.resetAll {} params).Under φ where
  records := by simp
  builders h := by simp at h
  producers h := by simp at h

section

variable (h : t.Under φ)

include h

/-- Names whose flags may have changed are forgotten. -/
theorem forget {names : List String} (hψ : ∀ x, x ∉ names → ψ x = φ x) :
    (t.resetAll names).Under ψ where
  records := by simpa using h.records
  builders {x} hx := by
    by_cases hn : x ∈ names
    · simp [hn] at hx
    · rw [hψ x hn]
      exact h.builders (by simpa [hn] using hx)
  producers {x} hx := by
    by_cases hn : x ∈ names
    · simp [hn] at hx
    · rw [hψ x hn]
      exact h.producers (by simpa [hn] using hx)

private theorem carries (hx : t.carries x) : φ x := by
  have hstate : t.state x = .carries := by simpa [Tracker.carries] using hx
  unfold Tracker.state at hstate
  cases hb : t.builders.get? x with
  | some s => exact h.builders (by simpa [hb] using hstate)
  | none =>
    cases hp : t.producers.get? x with
    | some s => exact h.producers (by simpa [hb, hp] using hstate)
    | none => simp [hb, hp] at hstate

/-- A chain on a name that carries a context has a flagged value. -/
theorem rootCarries (he : t.rootCarries e) : flag q φ e := by
  unfold Tracker.rootCarries at he
  split at he
  · next x hx => exact flag_of_root hx (h.carries he)
  · cases he

/-- A chain that a name covers has a flagged value. -/
theorem covers {settings : Settings} (he : t.covers settings e) : flag q φ e := by
  unfold Tracker.covers at he
  split at he
  · cases he
  · next x hx =>
    simp only [Bool.or_eq_true, Bool.and_eq_true, beq_iff_eq] at he
    rcases he with he | ⟨he, -⟩
    · exact flag_of_root hx (h.builders he)
    · exact flag_of_root hx (h.producers he)

private theorem producerOf (he : a.producerOf t e = some .carries) :
    flag a.inquiry φ e := by
  unfold Analysis.producerOf at he
  split at he
  · next site site' value method args keywords =>
    split at he
    · simp only [Option.some.injEq] at he
      split at he
      · next hc =>
        rw [Bool.or_eq_true] at hc
        rcases hc with hc | hc
        · have hv : flag a.inquiry φ value := flag_of_carries hc
          simp [flag, hv]
        · exact h.rootCarries hc
      · cases he
    · cases he
  · cases he

private theorem builderOf (he : a.builderOf t e = some .carries) :
    flag a.inquiry φ e := by
  unfold Analysis.builderOf at he
  split at he
  · next hc =>
    rw [Bool.or_eq_true] at hc
    rcases hc with hc | hc
    · unfold Analysis.injected at hc
      split at hc
      · exact flag_of_carries hc
      · exact flag_of_carries (Bool.and_eq_true _ _ ▸ hc).2
    · exact h.rootCarries hc
  · split at he <;> cases he

/-- A name bound to a value gets its flag. -/
theorem assign (name : String) (e : Expr) :
    (a.tracked t name e).Under (Function.update φ name (flag a.inquiry φ e)) := by
  have hreset : (t.resetAll [name]).Under (Function.update φ name (flag a.inquiry φ e)) :=
    h.forget fun x hx => Function.update_of_ne (by simpa using hx) _ _
  rw [a.tracked_eq h.records]
  split
  · next s hp =>
    refine ⟨h.records, hreset.builders, fun {x} hx => ?_⟩
    simp only [Tracker.setProducer, NameMap.get?_set] at hx
    split at hx
    · next heq =>
      obtain rfl := Option.some.inj hx
      rw [heq, Function.update_self]
      exact h.producerOf hp
    · exact hreset.producers hx
  · next s hp hb =>
    refine ⟨h.records, fun {x} hx => ?_, hreset.producers⟩
    simp only [Tracker.setBuilder, NameMap.get?_set] at hx
    split at hx
    · next heq =>
      obtain rfl := Option.some.inj hx
      rw [heq, Function.update_self]
      exact h.builderOf hb
    · exact hreset.builders hx
  · exact hreset

end

/-- Moves keep a tracker below the flags. -/
theorem followAll {moves : List Move} (hturns : Turns a.inquiry moves φ ψ)
    (hstraight : ∀ e, .eval e ∈ moves → e.Straight) (h : t.Under φ) :
    (a.followAll (moves.flatMap Move.acts) t).1.Under ψ := by
  induction hturns generalizing t with
  | nil φ => exact h
  | cons hmove hrest ih =>
    rw [List.flatMap_cons, Analysis.followAll_append]
    refine ih (fun e he => hstraight e (List.mem_cons_of_mem _ he)) ?_
    cases hmove with
    | eval e =>
      rw [Move.acts, exprActs_straight e (hstraight e (by simp)), Analysis.followAll_judges]
      exact h
    | copy name value => exact h.assign name value
    | rebind names _ _ hψ => exact h.forget hψ

end Tracker.Under

mutual

private theorem eval_mem_target {e : Expr} (target : Expr) (h : .eval e ∈ targetMoves target) :
    e ∈ target.nodes := by
  cases target with
  | name site id => simp [targetMoves] at h
  | sequence site kind elements =>
    obtain ⟨top, htop, he⟩ := eval_mem_targets elements h
    exact Expr.mem_nodes_of_child htop he
  | starred site value =>
    exact Expr.mem_nodes_of_child (by simp [Expr.children]) (eval_mem_target value h)
  | _ =>
    obtain rfl : e = _ := by simpa [targetMoves] using h
    exact Expr.mem_nodes_self _

private theorem eval_mem_targets {e : Expr} (targets : List Expr)
    (h : .eval e ∈ targetsMoves targets) : ∃ top ∈ targets, e ∈ top.nodes := by
  cases targets with
  | nil => cases h
  | cons target rest =>
    rw [targetsMoves, List.mem_append] at h
    rcases h with h | h
    · exact ⟨target, by simp, eval_mem_target target h⟩
    · obtain ⟨top, htop, he⟩ := eval_mem_targets rest h
      exact ⟨top, by simp [htop], he⟩

end

private theorem eval_mem_map {es : List Expr} (h : .eval e ∈ es.map Move.eval) :
    ∃ top ∈ es, e ∈ top.nodes := by
  obtain ⟨top, htop, heq⟩ := List.mem_map.mp h
  obtain rfl := Move.eval.inj heq
  exact ⟨top, htop, top.mem_nodes_self⟩

/-- A simple statement evaluates parts of its own expressions. -/
theorem eval_mem_stmtMoves {s : Stmt} (h : .eval e ∈ stmtMoves s) :
    ∃ top ∈ s.expressions, e ∈ top.nodes := by
  unfold stmtMoves at h
  split at h
  · next site id value =>
    obtain rfl : e = value := by simpa using h
    exact ⟨e, by simp [Stmt.expressions], e.mem_nodes_self⟩
  · next targets value _ =>
    rcases List.mem_cons.mp h with h | h
    · obtain rfl := Move.eval.inj h
      exact ⟨e, by simp [Stmt.expressions], e.mem_nodes_self⟩
    · obtain ⟨top, htop, he⟩ := eval_mem_targets targets h
      exact ⟨top, by simp [Stmt.expressions, htop], he⟩
  · next site id hint value =>
    obtain rfl : e = value := by simpa using h
    exact ⟨e, by simp [Stmt.expressions], e.mem_nodes_self⟩
  · simp at h
  · next target hint value _ _ =>
    have hmap : .eval e ∈ (value.toList ++ [target]).map Move.eval := by simpa using h
    obtain ⟨top, htop, he⟩ := eval_mem_map hmap
    refine ⟨top, ?_, he⟩
    rcases List.mem_append.mp htop with htop | htop
    · simp only [Stmt.expressions, List.mem_cons, htop, or_true]
    · simp [Stmt.expressions, List.mem_singleton.mp htop]
  · next target value =>
    rcases List.mem_cons.mp h with h | h
    · obtain rfl := Move.eval.inj h
      exact ⟨e, by simp [Stmt.expressions], e.mem_nodes_self⟩
    · exact ⟨target, by simp [Stmt.expressions], eval_mem_target target h⟩
  · exact eval_mem_targets _ h
  · simp at h
  · exact eval_mem_map h
  · exact eval_mem_map h
  · exact eval_mem_map h
  · cases h

/-- In a body without nested statements and with straight expressions, what is evaluated is
straight. -/
theorem straight_of_eval_mem {body : List Stmt} (h : ∀ s ∈ body, ∀ e ∈ s.expressions, e.Straight)
    (he : .eval e ∈ body.flatMap stmtMoves) : e.Straight := by
  obtain ⟨s, hs, he⟩ := List.mem_flatMap.mp he
  obtain ⟨top, htop, he⟩ := eval_mem_stmtMoves he
  exact fun n hn => h s hs top htop n (Expr.mem_nodes_trans hn he)

/-- Only method calls emit events. -/
theorem Analysis.isCall_of_emits {a : Analysis} {c : Expr} (h : a.emits c) : c.isCall := by
  unfold Analysis.emits at h
  split at h
  · rfl
  · cases h

/-- Nothing is missed in the straight-line functions of a module. Take any flags at the start of
such a function and follow them to the point where an expression is evaluated. A call inside it that
emits an event, is not reported and has no directive has a receiver that is flagged at that point.
-/
theorem receiver_flagged_of_not_reported (a : Analysis) {m : Module} (hm : m.Numbered)
    {head : FunctionHead} {body : List Stmt}
    (hdef : .functionDef head body ∈ Stmt.sameScopeOf m.body) (hsimple : ∀ s ∈ body, s.isSimple)
    (hstraight : ∀ s ∈ body, ∀ e ∈ s.expressions, e.Straight) {done rest : List Move} {e : Expr}
    (hmoves : body.flatMap stmtMoves = done ++ .eval e :: rest) {φ ψ : String → Bool}
    (hturns : Turns a.inquiry done φ ψ) {c receiver : Expr} (hc : c ∈ e.nodes)
    (hreceiver : c.receiver? = some receiver) (hemits : a.emits c)
    (hreported : c ∉ a.reported m) (hsuppressed : a.suppresses c = false) :
    a.check m = ((a.reported m).map a.diagnosticOf).mergeSort Report.Diagnostic.placeLe ∧
      flag a.inquiry ψ receiver := by
  refine ⟨a.check_eq_reported m, ?_⟩
  have hall : ∀ e', .eval e' ∈ body.flatMap stmtMoves → e'.Straight :=
    fun e' => straight_of_eval_mem hstraight
  rw [hmoves] at hall
  -- The tracker at the point of the call is below the flags there.
  have hunder := Tracker.Under.followAll hturns (fun e' he' => hall e' (by simp [he']))
    (Tracker.Under.empty head.params.names φ)
  have hjudged : c ∈ e.nodes.filter Expr.isCall :=
    List.mem_filter.mpr ⟨hc, Analysis.isCall_of_emits hemits⟩
  have hflagged : a.flagged c
      (a.followAll (done.flatMap Move.acts) (Tracker.resetAll {} head.params.names)).1 = false := by
    by_contra hflag
    refine hreported ?_
    rw [a.reported_eq_follow hm]
    refine a.followAll_function_subset (function_mem_moduleActs hdef) rfl ?_
    rw [stepsActs_bodySteps hsimple, hmoves, List.flatMap_append, List.flatMap_cons,
      Analysis.followAll_append, Analysis.followAll_append, Move.acts,
      exprActs_straight e (hall e (by simp)), Analysis.followAll_judges]
    simp only [List.mem_append, List.mem_filter]
    exact .inr (.inl ⟨by simpa using hjudged, by simpa using hflag⟩)
  rw [a.flagged_eq hreceiver, hemits, hsuppressed] at hflagged
  simp only [Bool.true_and, Bool.not_false, Bool.and_true, Bool.and_eq_false_iff,
    Bool.not_eq_eq_eq_not] at hflagged
  rcases hflagged with h | h
  · exact flag_of_carries h
  · exact hunder.covers h

namespace BoundEvent

/-- `start.ctx(c)`. -/
def injection : Expr :=
  .call (.ofId 0) (.attr (.ofId 1) (.name (.ofId 2) "start") "ctx") [.name (.ofId 3) "c"] []

/-- `event.msg()`. -/
def emission : Expr := .call (.ofId 4) (.attr (.ofId 5) (.name (.ofId 6) "event") "msg") [] []

/-- A function without parameters. -/
def head : FunctionHead := { name := "f", params := {}, decorators := [], returns := none }

/-- `event = start.ctx(c)`, then `event.msg()`. -/
def body : List Stmt := [.assign [.name (.ofId 7) "event"] injection, .value (some emission)]

/-- The module that defines the function. -/
def module : Module := { body := [.functionDef head body] }

/-- An analysis that takes `start` and `event` for events and `c` for a context. -/
def analysis : Analysis where
  settings := {}
  info := {
    decls := .ofLibrary .standard
    types := ((((∅ : Typing.TypeTable).insert 0 (Typing.instanceOf "zerolog.Event")).insert 2
      (Typing.instanceOf "zerolog.Event")).insert 3 (Typing.instanceOf "context.Context")).insert 6
      (Typing.instanceOf "zerolog.Event") }
  comments := []
  lines := #[]
  filename := "sample.py"

private theorem numbered : module.Numbered := by decide

private theorem emits_emission : analysis.emits emission := by decide +kernel

private theorem not_reported : emission ∉ analysis.reported module := by
  have hnone : (analysis.reported module).isEmpty = true := by decide +kernel
  rw [List.isEmpty_iff.mp hnone]
  exact List.not_mem_nil

/-- The event that is emitted through a name was flagged when it was bound. -/
theorem event_flagged :
    module.Numbered ∧ analysis.emits emission ∧ emission ∉ analysis.reported module ∧
      flag analysis.inquiry
        (Function.update (fun _ => false) "event"
          (flag analysis.inquiry (fun _ => false) injection))
        (.name (.ofId 6) "event") := by
  have hdef : .functionDef head body ∈ Stmt.sameScopeOf module.body := by
    simp [module, Stmt.sameScopeOf, Stmt.sameScope]
  have hsimple : ∀ s ∈ body, s.isSimple := by simp [body, Stmt.isSimple]
  have hstraight : ∀ s ∈ body, ∀ e ∈ s.expressions, e.Straight := by
    simp [body, Stmt.expressions, injection, emission, Expr.Straight, Expr.nodes, Expr.isStraight]
  have hmoves : body.flatMap stmtMoves =
      [.eval injection, .copy "event" injection] ++ .eval emission :: [] := rfl
  have hturns := Turns.cons (.eval injection fun _ => false)
    (.cons (.copy "event" injection _) (.nil (q := analysis.inquiry) _))
  exact ⟨numbered, emits_emission, not_reported,
    (receiver_flagged_of_not_reported analysis numbered hdef hsimple hstraight hmoves hturns
      emission.mem_nodes_self rfl emits_emission not_reported rfl).2⟩

end BoundEvent

end ContextLint.Rule
