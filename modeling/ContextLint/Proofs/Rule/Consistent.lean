import Mathlib.Data.List.Infix
import Mathlib.Logic.Relation
import ContextLint.Proofs.Rule.Tracker

/-!
# Consistent trackers

A tracker is consistent if it takes no name for a logger and for an event at once and knows nothing
where names are not followed. Every operation on a name keeps trackers consistent. A visit is cut
into moments between single operations, each with the trackers of all open scopes; they are always
consistent, and an operation leaves alone those around the innermost scope.
-/

namespace ContextLint.Rule

open Source Scope Fluent Typing Report

namespace Tracker

/-- No name is a logger and an event at once, and nothing is known where names are not followed. -/
structure Consistent (t : Tracker) : Prop where
  /-- Loggers and events have different names. -/
  exclusive : t.Exclusive
  /-- Nothing is known where names are not followed. -/
  quiet : t.records = false → t.producers = [] ∧ t.builders = []

/-- What may become of a tracker by one operation on a name: something is recorded of it, which is
nothing at all where names are not followed. -/
inductive Rebound (t : Tracker) (name : String) : Tracker → Prop
  /-- The tracker stays as it is. -/
  | unfollowed (h : t.records = false) : Rebound t name t
  /-- What was known of the name is replaced. -/
  | recorded (k : Knowledge) (h : t.records = true ∨ k = (none, none)) :
    Rebound t name (t.record name k)

variable {t t' : Tracker} {name : String}

theorem Rebound.records (h : t.Rebound name t') : t'.records = t.records := by
  cases h with
  | unfollowed _ => rfl
  | recorded k _ => exact t.record_records name k

/-- An operation on a name leaves alone what is known of the others. -/
theorem Rebound.known_of_ne (h : t.Rebound name t') {x : String} (hx : x ≠ name) :
    t'.known x = t.known x := by
  cases h with
  | unfollowed _ => rfl
  | recorded k _ => rw [known_record, if_neg hx]

/-- A binding is an operation on its name, whatever is answered on the way. -/
theorem bind_rebound {σ : Type} (query : ChainQuery (StateM σ)) (info : TypeInfo)
    (settings : Settings) (t : Tracker) (name : String) (e : Expr) (st : σ) :
    t.Rebound name (Id.run ((t.bind query info settings name e).run st)).1 := by
  cases hrec : t.records with
  | false =>
    have hbind : t.bind query info settings name e = pure t := by simp [bind, hrec]
    rw [hbind]
    exact .unfollowed hrec
  | true =>
    rw [bind, if_pos hrec]
    rcases hp : Id.run ((t.producerState query info settings e).run st) with ⟨producer, st'⟩
    cases producer with
    | some s => simpa [hp, record, setProducer] using Rebound.recorded (some s, none) (.inl hrec)
    | none =>
      rcases hb : Id.run ((t.builderState query info settings e).run st') with ⟨builder, st''⟩
      cases builder with
      | some s =>
        simpa [hp, hb, record, setBuilder] using Rebound.recorded (none, some s) (.inl hrec)
      | none => simpa [hp, hb, record] using Rebound.recorded (none, none) (.inl hrec)

/-- Taking over a name is an operation on it. -/
theorem adopt_rebound (t inner : Tracker) (name : String) :
    t.Rebound name (t.adopt inner name) := by
  rw [adopt_eq]
  cases hrec : t.records with
  | true => exact .recorded _ (.inl hrec)
  | false => exact .recorded _ (.inr rfl)

namespace Consistent

/-- A tracker that knows nothing is consistent. -/
theorem empty (records : Bool) : Consistent { records } where
  exclusive := .empty records
  quiet _ := ⟨rfl, rfl⟩

private theorem child (h : t.Consistent) : t.child.Consistent := by
  unfold Tracker.child
  split
  · exact h
  · exact empty true

/-- A comprehension starts consistent. -/
theorem clause (h : t.Consistent) : t.clause.Consistent := by
  unfold Tracker.clause Tracker.child
  cases hrec : t.records with
  | true => exact ⟨h.exclusive, fun hfalse => nomatch hfalse⟩
  | false => exact empty false

/-- An operation on a name keeps a tracker consistent. -/
theorem rebound (h : t.Consistent) (ht : t.Rebound name t') : t'.Consistent := by
  cases ht with
  | unfollowed _ => exact h
  | recorded k hk =>
    refine ⟨h.exclusive.record name k, fun hfalse => ?_⟩
    rw [record_records] at hfalse
    obtain ⟨hproducers, hbuilders⟩ := h.quiet hfalse
    obtain rfl := hk.resolve_left (by simp [hfalse])
    simp [record, reset, hproducers, hbuilders, NameMap.erase]

/-- Where names are not followed nothing is known of any name, and no name covers a chain. -/
theorem unknown (h : t.Consistent) (hrec : t.records = false) (settings : Settings) :
    (∀ x, t.state x = .unknown) ∧ ∀ receiver, t.covers settings receiver = false := by
  obtain ⟨hproducers, hbuilders⟩ := h.quiet hrec
  constructor
  · intro x
    simp [state, hproducers, hbuilders]
  · intro receiver
    unfold covers
    split
    · rfl
    · simp [hproducers, hbuilders]

end Consistent

end Tracker

/-- An operation on one of several trackers, which are told apart by their positions. -/
inductive Operation where
  | bind (i : Nat) (name : String) (value : Expr)
  | reset (i : Nat) (name : String)
  /-- Start the tracker of a nested function, which becomes the last one. -/
  | child (i : Nat)

namespace Operation

/-- The tracker that the operation changes. -/
def subject? : Operation → Option Nat
  | .bind i .. | .reset i _ => some i
  | .child _ => none

section

variable {m : Type → Type} [Monad m] (query : ChainQuery m) (info : TypeInfo) (settings : Settings)

/-- Carry out an operation; one on a tracker that is not there does nothing. -/
def apply (op : Operation) (ts : List Tracker) : m (List Tracker) :=
  match op with
  | .bind i name value =>
    match ts[i]? with
    | some t => do return ts.set i (← t.bind query info settings name value)
    | none => return ts
  | .reset i name =>
    match ts[i]? with
    | some t => return ts.set i (t.reset name)
    | none => return ts
  | .child i =>
    match ts[i]? with
    | some t => return ts ++ [t.child]
    | none => return ts

/-- Carry out operations in order. -/
def applyAll : List Operation → List Tracker → m (List Tracker)
  | [], ts => pure ts
  | op :: rest, ts => do applyAll rest (← op.apply query info settings ts)

end

/-- What may become of trackers by one operation. -/
inductive Changed (op : Operation) (ts : List Tracker) : List Tracker → Prop
  /-- The operation is on a tracker that is not there. -/
  | absent : Changed op ts ts
  /-- One tracker is changed by an operation on a name. -/
  | rebound {i t t' name} (hop : op.subject? = some i)
    (ht : ts[i]? = some t) (h : t.Rebound name t') : Changed op ts (ts.set i t')
  /-- A nested tracker is added. -/
  | nested {t} (ht : t ∈ ts) : Changed op ts (ts ++ [t.child])

variable {σ : Type} (query : ChainQuery (StateM σ)) (info : TypeInfo) (settings : Settings)
  {op : Operation} {ts ts' : List Tracker}

private theorem apply_changed (op : Operation) (ts : List Tracker) (st : σ) :
    op.Changed ts (Id.run ((op.apply query info settings ts).run st)).1 := by
  cases op with
  | bind i name value =>
    rw [apply]
    cases ht : ts[i]? with
    | none => exact .absent
    | some t => simpa using .rebound rfl ht (t.bind_rebound query info settings name value st)
  | reset i name =>
    rw [apply]
    cases ht : ts[i]? with
    | none => exact .absent
    | some t => exact .rebound rfl ht (.recorded (none, none) (.inr rfl))
  | child i =>
    rw [apply]
    cases ht : ts[i]? with
    | none => exact .absent
    | some t => exact .nested (List.mem_of_getElem? ht)

/-- An operation keeps trackers consistent. -/
theorem Changed.consistent (h : op.Changed ts ts') (hts : ∀ t ∈ ts, t.Consistent) :
    ∀ t ∈ ts', t.Consistent := by
  cases h with
  | absent => exact hts
  | rebound hop ht hrebound =>
    intro u hu
    rcases List.mem_or_eq_of_mem_set hu with hu | rfl
    · exact hts u hu
    · exact (hts _ (List.mem_of_getElem? ht)).rebound hrebound
  | nested ht =>
    intro u hu
    rcases List.mem_append.mp hu with hu | hu
    · exact hts u hu
    · rw [List.mem_singleton.mp hu]
      exact (hts _ ht).child

/-- An operation leaves alone all trackers but the one that it is on. -/
theorem Changed.getElem? (h : op.Changed ts ts') {i : Nat} {t : Tracker} (hi : ts[i]? = some t)
    (hop : op.subject? ≠ some i) : ts'[i]? = some t := by
  cases h with
  | absent => exact hi
  | @rebound j u u' name hj hu hrebound =>
    have hne : j ≠ i := by
      rintro rfl
      exact hop hj
    rw [List.getElem?_set_ne hne, hi]
  | nested hu => exact List.getElem?_append_left (List.getElem?_eq_some_iff.mp hi).1 ▸ hi

/-- Operations keep trackers consistent. -/
theorem applyAll_consistent (ops : List Operation) (hts : ∀ t ∈ ts, t.Consistent) (st : σ) :
    ∀ t ∈ (Id.run ((applyAll query info settings ops ts).run st)).1, t.Consistent := by
  induction ops generalizing ts st with
  | nil => exact hts
  | cons op rest ih =>
    simpa [applyAll] using ih ((apply_changed query info settings op ts st).consistent hts) _

/-- Operations leave alone all trackers but those that they are on. -/
theorem applyAll_getElem? (ops : List Operation) {i : Nat} {t : Tracker} (hi : ts[i]? = some t)
    (hops : ∀ op ∈ ops, op.subject? ≠ some i) (st : σ) :
    (Id.run ((applyAll query info settings ops ts).run st)).1[i]? = some t := by
  induction ops generalizing ts st with
  | nil => exact hi
  | cons op rest ih =>
    have hop := (apply_changed query info settings op ts st).getElem? hi
      (hops op List.mem_cons_self)
    simpa [applyAll] using ih hop (fun op' hop' => hops op' (List.mem_cons_of_mem op hop')) _

end Operation

/-- What is left to do in a scope. -/
inductive Task where
  /-- An act of the visit. -/
  | act (act : Act)
  /-- Take over what the tracker of a comprehension knows of a name. -/
  | adopt (inner : Tracker) (name : String)

/-- A scope whose visit is not over. -/
structure OpenScope where
  /-- What is known of its names. -/
  tracker : Tracker
  /-- What is left to do. -/
  tasks : List Task
  /-- Names that the scope around it takes over at the end. -/
  handed : List String := []

/-- A moment of a visit, between two operations. -/
structure Moment (σ ρ : Type) where
  /-- The scopes that are open, the innermost one first. -/
  scopes : List OpenScope
  /-- What the judge has collected. -/
  result : ρ
  /-- The answers that are kept. -/
  memory : σ

namespace Moment

variable {σ ρ : Type}

/-- The trackers of all open scopes, that of the innermost one first. -/
def trackers (now : Moment σ ρ) : List Tracker := now.scopes.map OpenScope.tracker

/-- The moment at which a visit has come to a point in its innermost scope. -/
def ofVisit (x : Visit ρ × σ) (tasks : List Task) (handed : List String)
    (outer : List OpenScope) : Moment σ ρ where
  scopes := ⟨x.1.tracker, tasks, handed⟩ :: outer
  result := x.1.result
  memory := x.2

/-- The moment at which the visit of a module starts. -/
def start (m : Source.Module) (result : ρ) (memory : σ) : Moment σ ρ :=
  ofVisit (⟨.idle, result⟩, memory) ((moduleActs m).map .act) [] []

/-- The visit goes on by one operation. -/
inductive Next (v : Visitor (StateM σ) ρ) : Moment σ ρ → Moment σ ρ → Prop
  | judge {s st call tasks handed outer} :
    Next v (ofVisit (s, st) (.act (.judge call) :: tasks) handed outer)
      (ofVisit (Id.run (((Act.judge call).run v s).run st)) tasks handed outer)
  | assign {s st name value tasks handed outer} :
    Next v (ofVisit (s, st) (.act (.assign name value) :: tasks) handed outer)
      (ofVisit (Id.run (((Act.assign name value).run v s).run st)) tasks handed outer)
  /-- The first of some names is forgotten. -/
  | forget {t r st name rest tasks handed outer} :
    Next v (ofVisit (⟨t, r⟩, st) (.act (.forget (name :: rest)) :: tasks) handed outer)
      (ofVisit (⟨t.reset name, r⟩, st) (.act (.forget rest) :: tasks) handed outer)
  /-- All names are forgotten. -/
  | forgotten {x tasks handed outer} :
    Next v (ofVisit x (.act (.forget []) :: tasks) handed outer) (ofVisit x tasks handed outer)
  | function {t r st params body tasks handed outer} :
    Next v (ofVisit (⟨t, r⟩, st) (.act (.function params body) :: tasks) handed outer)
      (ofVisit (⟨t.child, r⟩, st) (.act (.forget params) :: body.map .act) []
        (⟨t, tasks, handed⟩ :: outer))
  | cls {t r st body tasks handed outer} :
    Next v (ofVisit (⟨t, r⟩, st) (.act (.cls body) :: tasks) handed outer)
      (ofVisit (⟨.idle, r⟩, st) (body.map .act) [] (⟨t, tasks, handed⟩ :: outer))
  | comprehension {t r st names body tasks handed outer} :
    Next v (ofVisit (⟨t, r⟩, st) (.act (.comprehension names body) :: tasks) handed outer)
      (ofVisit (⟨t.clause, r⟩, st) (body.map .act) names (⟨t, tasks, handed⟩ :: outer))
  /-- A name is taken over. -/
  | adopt {t inner r st name tasks handed outer} :
    Next v (ofVisit (⟨t, r⟩, st) (.adopt inner name :: tasks) handed outer)
      (ofVisit (⟨t.adopt inner name, r⟩, st) tasks handed outer)
  /-- A scope is closed, and the names that it hands back are left to be taken over. -/
  | close {t inner r st names tasks handed outer} :
    Next v (ofVisit (⟨inner, r⟩, st) [] names (⟨t, tasks, handed⟩ :: outer))
      (ofVisit (⟨t, r⟩, st) (names.map (.adopt inner) ++ tasks) handed outer)

/-- The visit comes from one moment to another. -/
abbrev Reaches (v : Visitor (StateM σ) ρ) : Moment σ ρ → Moment σ ρ → Prop :=
  Relation.ReflTransGen (Next v)

/-- What may become of the trackers of open scopes by one operation. -/
inductive Stacked : List Tracker → List Tracker → Prop
  /-- They stay as they are. -/
  | same {ts} : Stacked ts ts
  /-- The innermost one is changed by an operation on a name. -/
  | rebound {t t' name ts} (h : t.Rebound name t') : Stacked (t :: ts) (t' :: ts)
  /-- One is put inside the innermost one. -/
  | opened {t t' ts} (h : t' = t.child ∨ t' = .idle ∨ t' = t.clause) :
    Stacked (t :: ts) (t' :: t :: ts)
  /-- The innermost one is dropped. -/
  | closed {t ts} : Stacked (t :: ts) ts

section

variable {a : Analysis} {query : ChainQuery (StateM σ)} {now next : Moment σ (List Diagnostic)}

/-- One operation of a visit that applies the rule does one of these things. -/
theorem Next.stacked (h : Next (a.visitor query) now next) :
    Stacked now.trackers next.trackers := by
  cases h with
  | judge => exact .same
  | @assign s st name value =>
    exact .rebound (s.tracker.bind_rebound query a.info a.settings name value st)
  | forget => exact .rebound (.recorded (none, none) (.inr rfl))
  | forgotten => exact .same
  | function => exact .opened (.inl rfl)
  | cls => exact .opened (.inr (.inl rfl))
  | comprehension => exact .opened (.inr (.inr rfl))
  | adopt => exact .rebound (Tracker.adopt_rebound ..)
  | close => exact .closed

private theorem Stacked.consistent {ts ts' : List Tracker} (h : Stacked ts ts')
    (hts : ∀ t ∈ ts, t.Consistent) : ∀ t ∈ ts', t.Consistent := by
  cases h with
  | same => exact hts
  | rebound hrebound =>
    rw [List.forall_mem_cons] at hts ⊢
    exact ⟨hts.1.rebound hrebound, hts.2⟩
  | opened ht =>
    refine List.forall_mem_cons.mpr ⟨?_, hts⟩
    have houter := hts _ List.mem_cons_self
    rcases ht with rfl | rfl | rfl
    · exact houter.child
    · exact .empty false
    · exact houter.clause
  | closed => exact (List.forall_mem_cons.mp hts).2

/-- The trackers around the innermost scope are left alone. -/
theorem Stacked.tail_suffix {ts ts' : List Tracker} (h : Stacked ts ts') : ts.tail <:+ ts' := by
  cases h with
  | same => exact List.tail_suffix _
  | rebound _ => exact List.suffix_cons _ _
  | opened _ => exact (List.suffix_cons _ _).trans (List.suffix_cons _ _)
  | closed => exact List.suffix_refl _

/-- At every moment of a visit that starts with consistent trackers they are consistent. -/
theorem Reaches.consistent (h : Reaches (a.visitor query) now next)
    (hnow : ∀ t ∈ now.trackers, t.Consistent) : ∀ t ∈ next.trackers, t.Consistent := by
  induction h with
  | refl => exact hnow
  | tail _ hnext ih => exact hnext.stacked.consistent ih

end

variable {v : Visitor (StateM σ) ρ}

/-- A visit is over if nothing is left to do in its outermost scope. -/
theorem not_next_of_done (x : Visit ρ × σ) (handed : List String) (next : Moment σ ρ) :
    ¬ Next v (ofVisit x [] handed []) next := by
  intro h
  generalize hnow : ofVisit x [] handed [] = now at h
  cases h <;> simp [ofVisit] at hnow

private theorem reaches_forgotten (names : List String) (t : Tracker) (r : ρ) (st : σ)
    (tasks : List Task) (handed : List String) (outer : List OpenScope) :
    Reaches v (ofVisit (⟨t, r⟩, st) (.act (.forget names) :: tasks) handed outer)
      (ofVisit (⟨t.resetAll names, r⟩, st) tasks handed outer) := by
  induction names generalizing t with
  | nil => exact .single .forgotten
  | cons name rest ih => exact .head .forget (ih (t.reset name))

private theorem reaches_adopted (inner : Tracker) (names : List String) (t : Tracker) (r : ρ)
    (st : σ) (tasks : List Task) (handed : List String) (outer : List OpenScope) :
    Reaches v (ofVisit (⟨t, r⟩, st) (names.map (.adopt inner) ++ tasks) handed outer)
      (ofVisit (⟨names.foldl (·.adopt inner ·) t, r⟩, st) tasks handed outer) := by
  induction names generalizing t with
  | nil => exact .refl
  | cons name rest ih => exact .head .adopt (ih (t.adopt inner name))

mutual

private theorem reaches_run (act : Act) (s : Visit ρ) (st : σ) (tasks : List Task)
    (handed : List String) (outer : List OpenScope) :
    Reaches v (ofVisit (s, st) (.act act :: tasks) handed outer)
      (ofVisit (Id.run ((act.run v s).run st)) tasks handed outer) := by
  cases act with
  | judge call => exact .single .judge
  | assign name value => exact .single .assign
  | forget names => exact reaches_forgotten names s.tracker s.result st tasks handed outer
  | function params body =>
    have hbody := reaches_runAll body ⟨s.tracker.child.resetAll params, s.result⟩ st [] []
      (⟨s.tracker, tasks, handed⟩ :: outer)
    rw [List.append_nil] at hbody
    have hall := (reaches_forgotten params _ _ st _ _ _).trans hbody
    exact (Relation.ReflTransGen.head Next.function hall).tail Next.close
  | cls body =>
    have hbody := reaches_runAll body ⟨.idle, s.result⟩ st [] []
      (⟨s.tracker, tasks, handed⟩ :: outer)
    rw [List.append_nil] at hbody
    exact (Relation.ReflTransGen.head Next.cls hbody).tail Next.close
  | comprehension names body =>
    have hbody := reaches_runAll body ⟨s.tracker.clause, s.result⟩ st [] names
      (⟨s.tracker, tasks, handed⟩ :: outer)
    rw [List.append_nil] at hbody
    have hclosed := (Relation.ReflTransGen.head Next.comprehension hbody).tail Next.close
    exact hclosed.trans (reaches_adopted _ names _ _ _ tasks handed outer)

/-- Going on operation by operation, a visit comes to where running its acts leads. -/
theorem reaches_runAll (acts : List Act) (s : Visit ρ) (st : σ) (tasks : List Task)
    (handed : List String) (outer : List OpenScope) :
    Reaches v (ofVisit (s, st) (acts.map .act ++ tasks) handed outer)
      (ofVisit (Id.run ((runAll v acts s).run st)) tasks handed outer) := by
  cases acts with
  | nil => exact .refl
  | cons act rest =>
    have hact := reaches_run act s st (rest.map .act ++ tasks) handed outer
    exact hact.trans (reaches_runAll rest _ _ tasks handed outer)

end

end Moment

/-- At every moment of the visit of a module the trackers of all open scopes are consistent, and one
operation leaves alone those around the innermost scope; the visit ends with what visiting the
module gives. Any operations on trackers, started from an empty one, keep them consistent and leave
alone all those that they are not on. A consistent tracker that follows no names knows nothing. -/
theorem trackers_stay_consistent (a : Analysis) {σ : Type} (query : ChainQuery (StateM σ)) :
    (∀ (m : Source.Module) (found : List Diagnostic) (st : σ),
      (∃ last, Moment.Reaches (a.visitor query) (.start m found st) last ∧
        (∀ next, ¬ Moment.Next (a.visitor query) last next) ∧
        Id.run (((a.visitor query).visitModule m found).run st) = (last.result, last.memory)) ∧
      ∀ now, Moment.Reaches (a.visitor query) (.start m found st) now →
        (∀ t ∈ now.trackers, t.Consistent) ∧
          ∀ next, Moment.Next (a.visitor query) now next → now.trackers.tail <:+ next.trackers) ∧
    (∀ (records : Bool) (ops : List Operation) (st : σ),
      ∀ t ∈ (Id.run ((Operation.applyAll query a.info a.settings ops [{ records }]).run st)).1,
        t.Consistent) ∧
    (∀ (ops : List Operation) (ts : List Tracker) (i : Nat) (t : Tracker) (st : σ),
      ts[i]? = some t → (∀ op ∈ ops, op.subject? ≠ some i) →
        (Id.run ((Operation.applyAll query a.info a.settings ops ts).run st)).1[i]? = some t) ∧
    ∀ t : Tracker, t.Consistent → t.records = false →
      (∀ x, t.state x = .unknown) ∧ ∀ receiver, t.covers a.settings receiver = false := by
  refine ⟨fun m found st => ⟨?_, fun now hnow => ⟨?_, fun next hnext => ?_⟩⟩, ?_, ?_, ?_⟩
  · have hruns := Moment.reaches_runAll (v := a.visitor query) (moduleActs m) ⟨.idle, found⟩ st
      [] [] []
    rw [List.append_nil] at hruns
    refine ⟨_, hruns, Moment.not_next_of_done _ _, ?_⟩
    rw [visitModule_eq_runAll]
    rfl
  · refine Moment.Reaches.consistent hnow fun t ht => ?_
    rw [List.mem_singleton.mp ht]
    exact .empty false
  · exact hnext.stacked.tail_suffix
  · intro records ops st
    refine Operation.applyAll_consistent query a.info a.settings ops (fun t ht => ?_) st
    rw [List.mem_singleton.mp ht]
    exact .empty records
  · intro ops ts i t st hi hops
    exact Operation.applyAll_getElem? query a.info a.settings ops hi hops st
  · intro t ht hrec
    exact ht.unknown hrec a.settings

namespace RecordedEvent

/-- `log.info()`. -/
def event : Expr := .call (.ofId 0) (.attr (.ofId 1) (.name (.ofId 2) "log") "info") [] []

/-- A function that assigns the event to `ev`. -/
def module : Source.Module :=
  { body := [.functionDef ⟨"f", { regular := [⟨"c", none⟩] }, [], none⟩
      [.assign [.name (.ofId 3) "ev"] event]] }

/-- An analysis that takes `log.info()` for an event. -/
def analysis : Analysis where
  settings := {}
  info := {
    decls := .ofLibrary .standard
    types := (∅ : TypeTable).insert 0 (instanceOf "zerolog.Event") }
  comments := []
  lines := #[]
  filename := "sample.py"

/-- Every chain is taken to carry a context. -/
def query : ChainQuery (StateM Unit) := ⟨fun _ _ => pure true⟩

/-- The end of the function: `ev` is an event, and nothing is known around the function. -/
def within : Moment Unit (List Diagnostic) :=
  .ofVisit (⟨Tracker.setBuilder {} "ev" .carries, []⟩, ()) [] [] [⟨.idle, [], []⟩]

private theorem reaches_within :
    Moment.Reaches (analysis.visitor query) (.start module [] ()) within := by
  have hacts : moduleActs module =
      [.forget ["f"], .function ["c"] [.judge event, .assign "ev" event]] := rfl
  have hdefined := Moment.reaches_runAll (v := analysis.visitor query) [.forget ["f"]]
    ⟨.idle, []⟩ () [.act (.function ["c"] [.judge event, .assign "ev" event])] [] []
  have hbody := Moment.reaches_runAll (v := analysis.visitor query)
    [.forget ["c"], .judge event, .assign "ev" event] ⟨{}, []⟩ () [] [] [⟨.idle, [], []⟩]
  have hend : Id.run ((runAll (analysis.visitor query)
      [.forget ["c"], .judge event, .assign "ev" event] ⟨{}, []⟩).run ()) =
        (⟨Tracker.setBuilder {} "ev" .carries, []⟩, ()) := rfl
  rw [hend] at hbody
  rw [Moment.start, hacts]
  exact (hdefined.tail .function).trans hbody

/-- At the end of the function the trackers are consistent, and closing the function leaves alone
what is known around it. -/
theorem event_recorded :
    Moment.Reaches (analysis.visitor query) (.start module [] ()) within ∧
      (∀ t ∈ within.trackers, t.Consistent) ∧
      ∃ next, Moment.Next (analysis.visitor query) within next ∧
        [Tracker.idle] <:+ next.trackers := by
  obtain ⟨hvisit, -⟩ := trackers_stay_consistent analysis query
  obtain ⟨hconsistent, hleft⟩ := (hvisit module [] ()).2 within reaches_within
  exact ⟨reaches_within, hconsistent, _, .close, hleft _ .close⟩

end RecordedEvent

end ContextLint.Rule
