import ContextLint.Proofs.Rule.Extraction

/-!
# Aliases

A name that is bound to another name is recorded as something built on it: it carries a context if
the other name does, and is never taken for a logger. So a chain on the alias is covered where the
same chain on the name is, and besides where the name is that of a logger that carries a context and
the chain starts no event.
-/

namespace ContextLint.Rule

open Source Fluent

/-- Bind a name to a value with kept answers; also deliver the answers kept from then on. -/
def Analysis.rebind (a : Analysis) (t : Tracker) (kept : Inquiry.Memory) (name : String)
    (value : Expr) : Tracker × Inquiry.Memory :=
  Id.run ((t.bind a.inquiry.remembering a.info a.settings name value).run kept)

namespace Tracker

/-- The tracker, with the answers kept by then, to which bindings and forgotten names lead from one
that knows nothing. The values bound belong to a family of expressions. -/
inductive Reached (a : Analysis) (S : Expr → Prop) : Tracker → Inquiry.Memory → Prop where
  /-- Nothing is known and nothing is kept. -/
  | start : Reached a S {} {}
  | bind {t kept} (h : Reached a S t kept) (name : String) {value} (hvalue : S value) :
      Reached a S (a.rebind t kept name value).1 (a.rebind t kept name value).2
  | reset {t kept} (h : Reached a S t kept) (name : String) : Reached a S (t.reset name) kept

variable {a : Analysis} {S : Expr → Prop} {t : Tracker} {kept : Inquiry.Memory}

/-- With right answers kept, a binding records what it records with answers worked out anew. -/
theorem rebind_sound (hS : Family S) (hkept : kept.Sound a.inquiry S) (t : Tracker) (name : String)
    {value : Expr} (hvalue : S value) :
    (a.rebind t kept name value).1 = a.tracked t name value ∧
      (a.rebind t kept name value).2.Sound a.inquiry S :=
  bind_yields hS (fun role _ he => remembering_yields hS a.inquiry role he) a.info a.settings t name
    hvalue kept hkept

namespace Reached

/-- The answers kept are right. -/
theorem sound (h : t.Reached a S kept) (hS : Family S) : kept.Sound a.inquiry S := by
  induction h with
  | start => exact .empty
  | bind _ name hvalue ih => exact (rebind_sound hS ih _ name hvalue).2
  | reset _ _ ih => exact ih

/-- Names are followed. -/
theorem records (h : t.Reached a S kept) (hS : Family S) : t.records = true := by
  induction h with
  | start => rfl
  | bind h name hvalue ih =>
    rw [(rebind_sound hS (h.sound hS) _ name hvalue).1, a.tracked_records, ih]
  | reset _ _ ih => exact ih

/-- No name is known both as a logger and as something else. -/
theorem exclusive (h : t.Reached a S kept) (hS : Family S) : t.Exclusive := by
  induction h with
  | start => exact .empty true
  | bind h name hvalue ih =>
    rw [(rebind_sound hS (h.sound hS) _ name hvalue).1]
    exact ih.tracked a name _
  | reset _ name ih => exact ih.record name (none, none)

end Reached

/-- The chain goes through a method that starts an event. -/
def startsEvent (settings : Settings) (links : List Link) : Bool :=
  links.any fun l => settings.producingMethods.contains l.method

/-- A chain on a name is covered by something that carries a context, or by a logger that does if
the chain starts an event. -/
theorem covers_linked_name (t : Tracker) (settings : Settings) (site : Site) (x : String)
    (links : List Link) :
    t.covers settings ((Expr.name site x).linked links) =
      (t.builders.get? x == some .carries ||
        (t.producers.get? x == some .carries && startsEvent settings links)) := by
  have hroot : ((Expr.name site x).linked links).rootName? = some x :=
    Expr.rootName?_linked (.name site x) links
  have hmethods : ((Expr.name site x).linked links).chainMethods.any
      settings.producingMethods.contains = startsEvent settings links := by
    rw [Expr.chainMethods_linked, List.any_append, List.any_reverse, List.any_map]
    exact Bool.or_false _
  rw [covers, hroot]
  dsimp only
  rw [hmethods]

/-- Where loggers have names of their own, a name carries a context as a logger or as something
else. -/
theorem Exclusive.carries_eq (h : t.Exclusive) (x : String) :
    t.carries x = (t.builders.get? x == some .carries || t.producers.get? x == some .carries) := by
  rw [Tracker.carries, Tracker.state]
  rcases h x with hx | hx
  · rw [hx]
    cases t.producers.get? x <;> simp
  · rw [hx]
    cases t.builders.get? x <;> simp

end Tracker

namespace Analysis

open Tracker (startsEvent)

variable (a : Analysis) {t : Tracker}

private theorem producerOf_name (t : Tracker) (site : Site) (x : String) :
    a.producerOf t (.name site x) = none := rfl

/-- A name carries a context through what is known of it only. -/
theorem builderOf_name_eq_carries (t : Tracker) (site : Site) (x : String) :
    (a.builderOf t (.name site x) == some .carries) = t.carries x := by
  have hinjected : a.injected (.name site x) = false := by simp [injected, Inquiry.carries]
  have hroot : t.rootCarries (.name site x) = t.carries x := rfl
  rw [builderOf, hinjected, hroot, Bool.false_or]
  cases t.carries x with
  | true => rfl
  | false =>
    rw [if_neg (by simp)]
    split <;> rfl

/-- The alias is known as something else than a logger; the other names stay as they are. -/
theorem known_tracked_name (ht : t.records = true) (site : Site) (x y z : String) :
    (a.tracked t y (.name site x)).known z =
      if z = y then (none, a.builderOf t (.name site x)) else t.known z := by
  rw [a.tracked_eq_record ht, Tracker.known_record, a.producerOf_name]
  rfl

/-- A chain on an alias is covered if the name carries a context, whether or not it starts an event.
-/
theorem covers_alias (ht : t.records = true) (x y : String) (site site' : Site)
    (links : List Link) :
    (a.tracked t y (.name site x)).covers a.settings ((Expr.name site' y).linked links) =
      t.carries x := by
  have hknown := a.known_tracked_name ht site x y y
  rw [if_pos rfl] at hknown
  have hproducer : (a.tracked t y (.name site x)).producers.get? y = none :=
    congrArg Prod.fst hknown
  have hbuilder : (a.tracked t y (.name site x)).builders.get? y =
      a.builderOf t (.name site x) := congrArg Prod.snd hknown
  rw [Tracker.covers_linked_name, hproducer, hbuilder, a.builderOf_name_eq_carries]
  exact Bool.or_false _

end Analysis

open Tracker (startsEvent)

/-- After a name is bound to another name, a chain on the alias is covered exactly if the same chain
on the name is, unless the name is known as a logger that carries a context and the chain starts no
event: then the chain on the alias is covered and the one on the name is not. -/
theorem alias_covers_like_name (a : Analysis) {S : Expr → Prop} (hS : Family S) {t : Tracker}
    {kept : Inquiry.Memory} (ht : t.Reached a S kept) (x y : String) {site : Site}
    (hx : S (.name site x)) (site₁ site₂ : Site) (links : List Link) :
    let t' := (a.rebind t kept y (.name site x)).1
    let onAlias := t'.covers a.settings ((Expr.name site₁ y).linked links)
    let onName := t'.covers a.settings ((Expr.name site₂ x).linked links)
    let quietLogger := t'.producers.get? x = some .carries ∧ startsEvent a.settings links = false
    (onAlias = onName ↔ ¬ quietLogger) ∧ (quietLogger → onAlias = true ∧ onName = false) := by
  have hrecords := ht.records hS
  have hcarries := (ht.exclusive hS).carries_eq x
  rw [(Tracker.rebind_sound hS (ht.sound hS) t y hx).1]
  intro t' onAlias onName quietLogger
  have hname : onName = (t'.builders.get? x == some .carries ||
      (t'.producers.get? x == some .carries && startsEvent a.settings links)) :=
    Tracker.covers_linked_name t' a.settings site₂ x links
  have halias : onAlias = t.carries x := a.covers_alias hrecords x y site site₁ links
  rcases eq_or_ne x y with rfl | hxy
  · -- A name bound to itself is no logger any more.
    have hproducer : t'.producers.get? x = none := by
      have hknown := a.known_tracked_name hrecords site x x x
      rw [if_pos rfl] at hknown
      exact congrArg Prod.fst hknown
    have hsame : onAlias = onName := by
      rw [hname]
      exact Tracker.covers_linked_name t' a.settings site₁ x links
    have hloud : ¬ quietLogger := by simp [quietLogger, hproducer]
    exact ⟨iff_of_true hsame hloud, fun h => absurd h hloud⟩
  · have hknown : t'.known x = t.known x := by
      rw [a.known_tracked_name hrecords, if_neg hxy]
    have hproducer : t'.producers.get? x = t.producers.get? x := congrArg Prod.fst hknown
    have hbuilder : t'.builders.get? x = t.builders.get? x := congrArg Prod.snd hknown
    rw [halias, hcarries, hname, hbuilder, hproducer]
    simp only [quietLogger, hproducer]
    by_cases hlogger : t.producers.get? x = some .carries
    · have hnone : t.builders.get? x = none := (ht.exclusive hS x).resolve_right (by simp [hlogger])
      cases startsEvent a.settings links <;> simp [hlogger, hnone]
    · have hfalse : (t.producers.get? x == some .carries) = false := beq_false_of_ne hlogger
      simp [hlogger, hfalse]

namespace CarryingLogger

open Typing

/-- `log.with_().ctx(c).logger()`. -/
def logger : Expr :=
  .call (.ofId 0) (.attr (.ofId 1) (.call (.ofId 2) (.attr (.ofId 3) (.call (.ofId 4) (.attr (.ofId 5)
    (.name (.ofId 6) "log") "with_") [] []) "ctx") [.name (.ofId 7) "c"] []) "logger") [] []

/-- The name `a` where `b` is bound to it. -/
def source : Expr := .name (.ofId 10) "a"

/-- A function that binds `a` to the logger and `b` to `a`. -/
def module : Source.Module :=
  { body := [.functionDef ⟨"f", { regular := [⟨"c", none⟩] }, [], none⟩
      [.assign [.name (.ofId 8) "a"] logger, .assign [.name (.ofId 9) "b"] source]] }

/-- An analysis that takes `log.with_()` and `log.with_().ctx(c)` for configurations and `c` for a
context. -/
def analysis : Analysis where
  settings := {}
  info := {
    decls := .ofLibrary .standard
    types := (((∅ : TypeTable).insert 2 (instanceOf "zerolog.Context")).insert 4
      (instanceOf "zerolog.Context")).insert 7 (instanceOf "context.Context") }
  comments := []
  lines := #[]
  filename := "sample.py"

/-- `level()`, which gives the logger back. -/
def level : Link := ⟨.ofId 11, .ofId 12, "level", [], []⟩

/-- `info()`, which starts an event. -/
def info : Link := ⟨.ofId 13, .ofId 14, "info", [], []⟩

/-- What is known, and what is kept, once `a` is bound. -/
def bound : Tracker × Inquiry.Memory := analysis.rebind {} {} "a" logger

private theorem family : Family (· ∈ module.nodes) := family_nodes (m := module) (by decide)

private theorem mem_nodes : logger ∈ module.nodes ∧ source ∈ module.nodes := by
  simp [module, Module.nodes, Stmt.expressions, Stmt.expressionsOf, Expr.mem_nodes_self]

private theorem bound_reached : bound.1.Reached analysis (· ∈ module.nodes) bound.2 :=
  .bind .start "a" mem_nodes.1

/-- Behind `b = a`, a chain on `b` and the same chain on `a` are not always covered alike:
`b.level()` is covered, `a.level()` is not. -/
theorem alias_covers_more :
    ∃ t kept, t.Reached analysis (· ∈ module.nodes) kept ∧
      (analysis.rebind t kept "b" source).1.covers analysis.settings
          ((Expr.name (.ofId 15) "b").linked [level]) ≠
        (analysis.rebind t kept "b" source).1.covers analysis.settings
          ((Expr.name (.ofId 16) "a").linked [level]) :=
  ⟨bound.1, bound.2, bound_reached, by decide +kernel⟩

/-- `b.level().info()` is covered like `a.level().info()`. -/
theorem event_of_alias_covered :
    Family (· ∈ module.nodes) ∧ bound.1.Reached analysis (· ∈ module.nodes) bound.2 ∧
      source ∈ module.nodes ∧
      (analysis.rebind bound.1 bound.2 "b" source).1.covers analysis.settings
          ((Expr.name (.ofId 15) "b").linked [level, info]) =
        (analysis.rebind bound.1 bound.2 "b" source).1.covers analysis.settings
          ((Expr.name (.ofId 16) "a").linked [level, info]) := by
  refine ⟨family, bound_reached, mem_nodes.2, ?_⟩
  have halike := (alias_covers_like_name analysis family bound_reached "a" "b" mem_nodes.2 (.ofId 15)
    (.ofId 16) [level, info]).1
  exact halike.mpr fun hquiet => absurd hquiet.2 (by decide)

end CarryingLogger

end ContextLint.Rule
