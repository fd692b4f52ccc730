import ContextLint.Proofs.NameMap
import ContextLint.Proofs.Rule.Direct

/-!
# What trackers know

Forgetting and binding names change what a tracker knows of these names only. A binding records one
of two states, that of a logger or that of an event or configuration, or nothing. No name is ever
known as both.
-/

namespace ContextLint.Rule

open Source Fluent

namespace Tracker

@[simp] private theorem reset_records (t : Tracker) (name : String) :
    (t.reset name).records = t.records :=
  rfl

/-- A forgotten name is no builder. -/
@[simp] theorem get?_reset_builders (t : Tracker) (name x : String) :
    (t.reset name).builders.get? x = if x = name then none else t.builders.get? x :=
  NameMap.get?_erase ..

/-- A forgotten name is no logger. -/
@[simp] theorem get?_reset_producers (t : Tracker) (name x : String) :
    (t.reset name).producers.get? x = if x = name then none else t.producers.get? x :=
  NameMap.get?_erase ..

@[simp] theorem resetAll_records (t : Tracker) (names : List String) :
    (t.resetAll names).records = t.records := by
  induction names generalizing t with
  | nil => rfl
  | cons n rest ih => exact ih (t.reset n)

/-- Forgotten names are no builders. -/
@[simp] theorem get?_resetAll_builders (t : Tracker) (names : List String) (x : String) :
    (t.resetAll names).builders.get? x = if x ∈ names then none else t.builders.get? x := by
  induction names generalizing t with
  | nil => rfl
  | cons n rest ih =>
    have h := ih (t.reset n)
    simp only [resetAll, List.foldl_cons, get?_reset_builders] at h ⊢
    rw [h]
    by_cases hx : x = n <;> simp [hx]

/-- Forgotten names are no loggers. -/
@[simp] theorem get?_resetAll_producers (t : Tracker) (names : List String) (x : String) :
    (t.resetAll names).producers.get? x = if x ∈ names then none else t.producers.get? x := by
  induction names generalizing t with
  | nil => rfl
  | cons n rest ih =>
    have h := ih (t.reset n)
    simp only [resetAll, List.foldl_cons, get?_reset_producers] at h ⊢
    rw [h]
    by_cases hx : x = n <;> simp [hx]

@[simp] theorem adopt_records (t inner : Tracker) (name : String) :
    (t.adopt inner name).records = t.records := by
  unfold adopt
  dsimp only
  split
  · split <;> rfl
  · rfl

@[simp] theorem foldl_adopt_records (names : List String) (t inner : Tracker) :
    (names.foldl (·.adopt inner ·) t).records = t.records := by
  induction names generalizing t with
  | nil => rfl
  | cons n rest ih => rw [List.foldl_cons, ih, adopt_records]

/-- Record the state of a logger. -/
def setProducer (t : Tracker) (name : String) (s : CapabilityState) : Tracker :=
  { t.reset name with producers := (t.reset name).producers.set name s }

/-- Record the state of an event or a configuration. -/
def setBuilder (t : Tracker) (name : String) (s : CapabilityState) : Tracker :=
  { t.reset name with builders := (t.reset name).builders.set name s }

end Tracker

namespace Analysis

variable (a : Analysis)

/-- State of a logger that the expression finishes. -/
def producerOf (t : Tracker) : Expr → Option CapabilityState
  | .call site (.attr site' value method) args keywords =>
    if method == a.settings.finalizingMethod &&
        a.info.hasType value a.settings.producerConfigType then
      some (if a.inquiry.carries .producer value ||
        t.rootCarries (.call site (.attr site' value method) args keywords) then .carries
        else .absent)
    else none
  | _ => none

/-- The expression is an event or a configuration into which a context was injected. -/
def injected (e : Expr) : Bool :=
  if a.info.hasType e a.settings.builderType then a.inquiry.carries .builder e
  else a.info.hasType e a.settings.producerConfigType && a.inquiry.carries .producer e

/-- State of an event, a configuration or what is built on a name that carries a context. -/
def builderOf (t : Tracker) (e : Expr) : Option CapabilityState :=
  if a.injected e || t.rootCarries e then some .carries
  else if a.info.hasType e a.settings.builderType || a.info.hasType e a.settings.producerConfigType
    then some .absent
  else none

private theorem producerState_direct (t : Tracker) (e : Expr) :
    Id.run (t.producerState a.inquiry.direct a.info a.settings e) = a.producerOf t e := by
  cases e with
  | call site func args keywords =>
    cases func with
    | attr site' value method =>
      rw [Tracker.producerState, producerOf]
      cases method == a.settings.finalizingMethod &&
          a.info.hasType value a.settings.producerConfigType with
      | false => rfl
      | true =>
        simp only [Inquiry.direct]
        cases a.inquiry.carries .producer value <;> cases t.rootCarries _ <;> rfl
    | _ => rfl
  | _ => rfl

private theorem builderState_direct (t : Tracker) (e : Expr) :
    Id.run (t.builderState a.inquiry.direct a.info a.settings e) = a.builderOf t e := by
  unfold Tracker.builderState builderOf injected
  cases a.info.hasType e a.settings.builderType <;>
    cases a.info.hasType e a.settings.producerConfigType <;> rfl

/-- A binding records the state of a logger, that of an event or configuration, or nothing. -/
theorem tracked_eq {t : Tracker} (h : t.records = true) (name : String) (e : Expr) :
    a.tracked t name e =
      match a.producerOf t e, a.builderOf t e with
      | some s, _ => t.setProducer name s
      | none, some s => t.setBuilder name s
      | none, none => t.reset name := by
  rw [← producerState_direct, ← builderState_direct, tracked, Tracker.bind, if_pos h]
  cases hp : Id.run (t.producerState a.inquiry.direct a.info a.settings e) with
  | some s => simp [hp, Tracker.setProducer]
  | none =>
    cases hb : Id.run (t.builderState a.inquiry.direct a.info a.settings e) <;>
      simp [hp, hb, Tracker.setBuilder]

/-- Where names are not followed nothing is recorded. -/
theorem tracked_of_not_records {t : Tracker} (h : t.records = false) (name : String) (e : Expr) :
    a.tracked t name e = t := by
  simp [tracked, Tracker.bind, h]

@[simp] theorem tracked_records (t : Tracker) (name : String) (e : Expr) :
    (a.tracked t name e).records = t.records := by
  cases h : t.records with
  | false => rw [a.tracked_of_not_records h, h]
  | true =>
    rw [a.tracked_eq h]
    split <;> exact h

/-- An act does not change whether names are followed. -/
theorem follow_records (act : Act) (t : Tracker) : (a.follow act t).1.records = t.records := by
  cases act <;> simp [follow]

/-- Acts do not change whether names are followed. -/
theorem followAll_records (acts : List Act) (t : Tracker) :
    (a.followAll acts t).1.records = t.records := by
  induction acts generalizing t with
  | nil => rfl
  | cons act rest ih => rw [followAll, ih, follow_records]

/-- Judging calls reports those that are flagged and changes nothing. -/
theorem followAll_judges (calls : List Expr) (t : Tracker) :
    a.followAll (calls.map .judge) t = (t, calls.filter (a.flagged · t)) := by
  induction calls with
  | nil => rfl
  | cons c rest ih =>
    cases h : a.flagged c t <;> simp [followAll, follow, ih, h]

private theorem foldl_adopt_idle (names : List String) (inner : Tracker) :
    names.foldl (·.adopt inner ·) Tracker.idle = .idle := by
  induction names with
  | nil => rfl
  | cons x rest ih => exact ih

/-- Where names are not followed nothing becomes known. -/
theorem followAll_idle (acts : List Act) : (a.followAll acts .idle).1 = .idle := by
  have hreset : ∀ names, Tracker.idle.resetAll names = .idle := by
    intro names
    induction names with
    | nil => rfl
    | cons x rest ih => exact ih
  induction acts with
  | nil => rfl
  | cons act rest ih =>
    have hact : (a.follow act .idle).1 = .idle := by
      cases act with
      | assign name value => exact a.tracked_of_not_records (t := .idle) rfl name value
      | forget names => exact hreset names
      | comprehension names body => exact foldl_adopt_idle names _
      | _ => rfl
    rw [followAll, hact, ih]

/-- So what is reported there is reported part by part. -/
theorem followAll_idle_append (xs ys : List Act) :
    (a.followAll (xs ++ ys) .idle).2 = (a.followAll xs .idle).2 ++ (a.followAll ys .idle).2 := by
  rw [followAll_append, followAll_idle]

mutual

private theorem follow_subset (act : Act) (t : Tracker) : (a.follow act t).2 ⊆ act.calls := by
  cases act with
  | judge call =>
    rw [follow, Act.calls]
    split
    · exact List.Subset.refl _
    · exact List.nil_subset _
  | assign name value | forget names => exact List.nil_subset _
  | function params body | cls body | comprehension names body => exact followAll_subset body _

/-- Only calls that are judged are reported. -/
theorem followAll_subset (acts : List Act) (t : Tracker) :
    (a.followAll acts t).2 ⊆ callsAll acts := by
  cases acts with
  | nil => exact List.nil_subset _
  | cons act rest =>
    rw [followAll, callsAll]
    refine List.append_subset.mpr ⟨?_, ?_⟩
    · exact List.subset_append_of_subset_left _ (follow_subset act t)
    · exact List.subset_append_of_subset_right _ (followAll_subset rest _)

end

/-- What the functions of a module report is reported. -/
theorem followAll_function_subset {acts body : List Act} {params : List String} {t : Tracker}
    (h : .function params body ∈ acts) (ht : t.records = false) :
    (a.followAll body (Tracker.resetAll {} params)).2 ⊆ (a.followAll acts t).2 := by
  obtain ⟨pre, post, rfl⟩ := List.append_of_mem h
  have hpre : (a.followAll pre t).1.records = false := by rw [followAll_records, ht]
  intro c hc
  simp [followAll_append, followAll, follow, Tracker.child, hpre, hc]

/-- A directive applies to the call. -/
def suppresses : Expr → Bool
  | .call site func args keywords => a.isSuppressed func (.call site func args keywords)
  | _ => false

/-- Without comments no directive applies. -/
theorem suppresses_of_no_comments (h : a.comments = []) (call : Expr) :
    a.suppresses call = false := by
  cases call with
  | call site func args keywords =>
    simp [suppresses, isSuppressed, h, Comment.suppressedOn, Comment.onLine]
  | _ => rfl

/-- A call that emits an event is reported unless its chain carries a context, a name covers it or a
directive applies. -/
theorem flagged_eq {call receiver : Expr} (h : call.receiver? = some receiver) (t : Tracker) :
    a.flagged call t =
      (a.emits call && (!a.inquiry.carries .builder receiver && !t.covers a.settings receiver &&
        !a.suppresses call)) := by
  unfold Expr.receiver? at h
  split at h
  · obtain rfl := Option.some.inj h
    unfold flagged reports
    dsimp only [suppresses]
    cases a.emits _ <;> rfl
  · cases h

end Analysis

namespace Tracker

/-- What a tracker knows of a name, as a logger and as an event or configuration. -/
abbrev Knowledge := Option CapabilityState × Option CapabilityState

/-- What is known of a name. -/
def known (t : Tracker) (x : String) : Knowledge := (t.producers.get? x, t.builders.get? x)

/-- The state of what is known; other things go before loggers. -/
def Knowledge.state (k : Knowledge) : CapabilityState := (k.2.or k.1).getD .unknown

/-- The state of a name is that of what is known of it. -/
theorem state_eq (t : Tracker) (x : String) : t.state x = (t.known x).state := rfl

/-- A logger is not taken for anything else. -/
def settle : Knowledge → Knowledge
  | (some s, _) => (some s, none)
  | (none, s) => (none, s)

/-- Record what is to be known of a name from now on. -/
def record (t : Tracker) (name : String) : Knowledge → Tracker
  | (some s, _) => t.setProducer name s
  | (none, some s) => t.setBuilder name s
  | (none, none) => t.reset name

/-- What is recorded of a name is known of it alone. -/
theorem known_record (t : Tracker) (name x : String) (k : Knowledge) :
    (t.record name k).known x = if x = name then settle k else t.known x := by
  rcases k with ⟨_ | s, _ | s'⟩ <;> by_cases hx : x = name <;>
    simp [record, known, settle, setProducer, setBuilder, hx]

theorem record_records (t : Tracker) (name : String) (k : Knowledge) :
    (t.record name k).records = t.records := by
  rcases k with ⟨_ | s, _ | s'⟩ <;> rfl

/-- Adopting a name records what is known of it inside. -/
theorem adopt_eq (t inner : Tracker) (name : String) :
    t.adopt inner name = t.record name (if t.records then inner.known name else (none, none)) := by
  unfold adopt
  by_cases hr : t.records = true
  · have hreset : (t.reset name).records = true := hr
    simp only [if_pos hr, if_pos hreset]
    unfold known
    cases inner.producers.get? name <;> cases inner.builders.get? name <;> rfl
  · have hreset : ¬ (t.reset name).records = true := hr
    simp only [if_neg hr, if_neg hreset, record]

/-- No name is known both as a logger and as an event or a configuration. -/
def Exclusive (t : Tracker) : Prop :=
  ∀ x, t.builders.get? x = none ∨ t.producers.get? x = none

namespace Exclusive

variable {t : Tracker}

theorem empty (records : Bool) : Exclusive { records } := fun _ => .inl rfl

/-- Recording keeps loggers apart. -/
theorem record (h : t.Exclusive) (name : String) (k : Knowledge) : (t.record name k).Exclusive := by
  intro x
  have hx := t.known_record name x k
  by_cases hname : x = name
  · rw [if_pos hname] at hx
    rcases k with ⟨_ | s, s'⟩
    · exact .inr (congrArg Prod.fst hx)
    · exact .inl (congrArg Prod.snd hx)
  · rw [if_neg hname] at hx
    rw [show (t.record name k).builders.get? x = _ from congrArg Prod.snd hx,
      show (t.record name k).producers.get? x = _ from congrArg Prod.fst hx]
    exact h x

/-- Adopting a name keeps loggers apart. -/
theorem adopt (h : t.Exclusive) (inner : Tracker) (name : String) :
    (t.adopt inner name).Exclusive := by
  rw [adopt_eq]
  exact h.record name _

/-- Opening a function keeps loggers apart. -/
theorem child (h : t.Exclusive) : t.child.Exclusive := by
  unfold Tracker.child
  split
  · exact h
  · exact .empty true

end Exclusive

end Tracker

/-- Where names are followed, a binding records what its value is. -/
theorem Analysis.tracked_eq_record (a : Analysis) {t : Tracker} (h : t.records = true)
    (name : String) (e : Expr) :
    a.tracked t name e = t.record name (a.producerOf t e, a.builderOf t e) := by
  rw [a.tracked_eq h]
  cases a.producerOf t e <;> cases a.builderOf t e <;> rfl

end ContextLint.Rule
