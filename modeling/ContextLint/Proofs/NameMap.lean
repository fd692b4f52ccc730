import Mathlib.Data.List.Forall2
import ContextLint.NameMap

/-!
# Reading a finite map

Forgetting or writing a name changes the value of that name and no other.
-/

namespace ContextLint.NameMap

variable {α : Type}

@[simp] theorem get?_nil (x : String) : get? ([] : NameMap α) x = none := rfl

/-- The first entry of a name counts. -/
theorem get?_cons (name : String) (a : α) (m : NameMap α) (x : String) :
    get? ((name, a) :: m) x = if x = name then some a else get? m x := by
  by_cases h : x = name
  · simp [get?, h]
  · have hne : (x == name) = false := by simpa using h
    simp [get?, List.lookup_cons, h, hne]

/-- A forgotten name has no value; the others keep theirs. -/
@[simp] theorem get?_erase (m : NameMap α) (name x : String) :
    (m.erase name).get? x = if x = name then none else m.get? x := by
  induction m with
  | nil => simp [erase]
  | cons p m ih =>
    obtain ⟨n, a⟩ := p
    by_cases hn : n = name
    · have hdrop : erase ((n, a) :: m) name = erase m name := by simp [erase, hn]
      rw [hdrop, ih, get?_cons, hn]
      by_cases hx : x = name <;> simp [hx]
    · have hkeep : erase ((n, a) :: m) name = (n, a) :: erase m name := by simp [erase, hn]
      rw [hkeep, get?_cons, get?_cons, ih]
      by_cases hx : x = name
      · simp [hx, Ne.symm hn]
      · simp [hx]

/-- A written name has the new value; the others keep theirs. -/
@[simp] theorem get?_set (m : NameMap α) (name x : String) (a : α) :
    (m.set name a).get? x = if x = name then some a else m.get? x := by
  rw [set, get?_cons, get?_erase]
  by_cases h : x = name <;> simp [h]

/-- Maps with the same names in the same order and related values. -/
def Alike (R : α → α → Prop) : NameMap α → NameMap α → Prop :=
  List.Forall₂ fun p q => p.1 = q.1 ∧ R p.2 q.2

namespace Alike

variable {R : α → α → Prop} {m m' : NameMap α}

theorem refl (hR : ∀ a, R a a) (m : NameMap α) : Alike R m m :=
  List.forall₂_same.mpr fun p _ => ⟨rfl, hR p.2⟩

/-- Maps that are alike hold related values. -/
theorem get? (h : Alike R m m') (x : String) : Option.Rel R (m.get? x) (m'.get? x) := by
  induction h with
  | nil => exact .none
  | @cons p q m m' hpq hrest ih =>
    obtain ⟨n, a⟩ := p
    obtain ⟨n', b⟩ := q
    obtain ⟨rfl, hab⟩ := hpq
    rw [get?_cons, get?_cons]
    by_cases hx : x = n
    · rw [if_pos hx, if_pos hx]
      exact .some hab
    · rw [if_neg hx, if_neg hx]
      exact ih

private theorem erase (h : Alike R m m') (name : String) :
    Alike R (m.erase name) (m'.erase name) := by
  induction h with
  | nil => exact .nil
  | @cons p q m m' hpq hrest ih =>
    unfold NameMap.erase
    rw [List.filter_cons, List.filter_cons, hpq.1]
    cases q.1 != name with
    | true => exact .cons hpq ih
    | false => exact ih

/-- Setting related values keeps maps alike. -/
theorem set (h : Alike R m m') (name : String) {a b : α} (hab : R a b) :
    Alike R (m.set name a) (m'.set name b) :=
  .cons ⟨rfl, hab⟩ (h.erase name)

/-- Updating by maps that are alike keeps maps alike. -/
theorem update (h : Alike R m m') {other other' : NameMap α} (hother : Alike R other other') :
    Alike R (m.update other) (m'.update other') := by
  induction hother generalizing m m' with
  | nil => exact h
  | @cons p q rest rest' hpq hrest ih =>
    obtain ⟨n, a⟩ := p
    obtain ⟨n', b⟩ := q
    obtain ⟨rfl, hab⟩ := hpq
    exact ih (h.set n hab)

end Alike

end ContextLint.NameMap
