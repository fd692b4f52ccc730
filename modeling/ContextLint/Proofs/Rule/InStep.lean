import ContextLint.Proofs.Rule.Tracker

/-!
# Two analyses in step

Two analyses of one module follow the same acts, each with a tracker of its own. If a relation
between the trackers survives every act and each judgement relates what the two report, all that
they report is related.
-/

namespace ContextLint.Rule

open Source

namespace Analysis

/-- The calls that judging a call reports. -/
def judged (a : Analysis) (call : Expr) (t : Tracker) : List Expr :=
  if a.flagged call t then [call] else []

/-- Two analyses whose trackers stay related by `R` and whose reports are related by `W`. -/
structure InStep (a b : Analysis) (R : Tracker → Tracker → Prop)
    (W : List Expr → List Expr → Prop) : Prop where
  /-- Nothing is known at the start. -/
  idle : R .idle .idle
  /-- A nested function starts from what is known. -/
  child : ∀ {t u}, R t u → R t.child u.child
  /-- So does a comprehension. -/
  clause : ∀ {t u}, R t u → R t.clause u.clause
  /-- A name is forgotten. -/
  reset : ∀ {t u} (x : String), R t u → R (t.reset x) (u.reset x)
  /-- What a comprehension knows of a name is taken over. -/
  adopt : ∀ {t u t' u'} (x : String), R t u → R t' u' → R (t.adopt t' x) (u.adopt u' x)
  /-- A name is bound to a value. -/
  assign : ∀ {t u} (x : String) (e : Expr), R t u → R (a.tracked t x e) (b.tracked u x e)
  /-- A call is judged. -/
  judge : ∀ {t u} (c : Expr), R t u → W (a.judged c t) (b.judged c u)
  /-- Nothing is reported. -/
  nil : W [] []
  /-- Reports come one after the other. -/
  append : ∀ {xs ys xs' ys'}, W xs ys → W xs' ys' → W (xs ++ xs') (ys ++ ys')

namespace InStep

variable {a b : Analysis} {R : Tracker → Tracker → Prop} {W : List Expr → List Expr → Prop}
  {t u : Tracker}

private theorem resetAll (h : InStep a b R W) (names : List String) (hR : R t u) :
    R (t.resetAll names) (u.resetAll names) := by
  induction names generalizing t u with
  | nil => exact hR
  | cons x rest ih => exact ih (h.reset x hR)

private theorem foldl_adopt (h : InStep a b R W) (names : List String) {t' u' : Tracker}
    (hR : R t u)
    (hinner : R t' u') : R (names.foldl (·.adopt t' ·) t) (names.foldl (·.adopt u' ·) u) := by
  induction names generalizing t u with
  | nil => exact hR
  | cons x rest ih => exact ih (h.adopt x hR hinner)

mutual

/-- An act keeps the trackers related and relates what is reported. -/
theorem follow (h : InStep a b R W) (act : Act) {t u : Tracker} (hR : R t u) :
    R (a.follow act t).1 (b.follow act u).1 ∧ W (a.follow act t).2 (b.follow act u).2 := by
  cases act with
  | judge c => exact ⟨hR, h.judge c hR⟩
  | assign x e => exact ⟨h.assign x e hR, h.nil⟩
  | forget names => exact ⟨h.resetAll names hR, h.nil⟩
  | function params body =>
    exact ⟨hR, (followAll h body (h.resetAll params (h.child hR))).2⟩
  | cls body => exact ⟨hR, (followAll h body h.idle).2⟩
  | comprehension names body =>
    obtain ⟨hinner, hW⟩ := followAll h body (h.clause hR)
    exact ⟨h.foldl_adopt names hR hinner, hW⟩

/-- Acts keep the trackers related and relate what is reported. -/
theorem followAll (h : InStep a b R W) (acts : List Act) {t u : Tracker} (hR : R t u) :
    R (a.followAll acts t).1 (b.followAll acts u).1 ∧
      W (a.followAll acts t).2 (b.followAll acts u).2 := by
  cases acts with
  | nil => exact ⟨hR, h.nil⟩
  | cons act rest =>
    obtain ⟨hnext, hW⟩ := follow h act hR
    obtain ⟨hend, hrest⟩ := followAll h rest hnext
    exact ⟨hend, h.append hW hrest⟩

end

/-- What two analyses in step report of a module is related. -/
theorem reported (h : InStep a b R W) {m : Module} (hm : m.Numbered) :
    W (a.reported m) (b.reported m) := by
  rw [a.reported_eq_follow hm, b.reported_eq_follow hm]
  exact (h.followAll (moduleActs m) h.idle).2

end InStep

/-- A call without a receiver is not reported. -/
theorem flagged_of_receiver?_eq_none {a : Analysis} {call : Expr} (h : call.receiver? = none)
    (t : Tracker) : a.flagged call t = false := by
  unfold flagged reports
  split
  · cases h
  · rfl

/-- The same analysis with other settings. -/
def withSettings (a : Analysis) (settings : Settings) : Analysis := { a with settings }

/-- What is known of a module besides the settings does not depend on them. -/
theorem ofModule_withSettings (m : Module) (source : List Char) (filename moduleName : String)
    (settings settings' : Settings) (library : Typing.Library) :
    ofModule m source filename moduleName settings' library =
      (·.withSettings settings') <$>
        ofModule m source filename moduleName settings library := by
  unfold ofModule
  cases Typing.TypeInfo.ofModule m moduleName library <;> rfl

end Analysis

end ContextLint.Rule
