import Mathlib.Data.List.Find
import ContextLint.Proofs.Scope.Bound
import ContextLint.Proofs.Scope.Spared
import ContextLint.Proofs.Source.Receivers

/-!
# The bindings of a scope

The statements of a scope bind names in several forms. The bindings are listed in the order of the
walk, those of nested functions and classes left out. Where a name is bound more than once the last
binding counts.
-/

namespace ContextLint

section

variable {α β : Type} {name : α → String}

/-- The last of some things that has a name. -/
def lastNamed? (name : α → String) (x : String) (xs : List α) : Option α :=
  xs.reverse.find? (name · = x)

/-- The last of a name is looked for from the back. -/
theorem lastNamed?_append (x : String) (xs ys : List α) :
    lastNamed? name x (xs ++ ys) = (lastNamed? name x ys).or (lastNamed? name x xs) := by
  rw [lastNamed?, List.reverse_append, List.find?_append]
  rfl

theorem lastNamed?_singleton (x : String) (a : α) :
    lastNamed? name x [a] = if name a = x then some a else none := by
  by_cases h : name a = x <;> simp [lastNamed?, h]

theorem lastNamed?_eq_none {x : String} {xs : List α} :
    lastNamed? name x xs = none ↔ ∀ a ∈ xs, name a ≠ x := by
  simp [lastNamed?]

/-- The last of a name has the name. -/
theorem name_of_lastNamed? {x : String} {xs : List α} {a : α} (h : lastNamed? name x xs = some a) :
    name a = x := by
  simpa using List.find?_some h

/-- The last of a name is in the list. -/
theorem mem_of_lastNamed? {x : String} {xs : List α} {a : α} (h : lastNamed? name x xs = some a) :
    a ∈ xs :=
  List.mem_reverse.mp (List.mem_of_find?_eq_some h)

/-- The last of a name is the image of the last. -/
theorem lastNamed?_map (f : β → α) (x : String) (xs : List β) :
    lastNamed? name x (xs.map f) = (lastNamed? (name ∘ f) x xs).map f := by
  rw [lastNamed?, lastNamed?, ← List.map_reverse, List.find?_map]
  rfl

/-- Leaving out things of other names does not matter. -/
theorem lastNamed?_filter {x : String} {xs : List α} {p : α → Bool}
    (h : ∀ a ∈ xs, name a = x → p a = true) :
    lastNamed? name x (xs.filter p) = lastNamed? name x xs := by
  rw [lastNamed?, lastNamed?, ← List.filter_reverse, List.find?_filter]
  refine List.find?_congr fun a ha => ?_
  by_cases hx : name a = x
  · simp [hx, h a (List.mem_reverse.mp ha) hx]
  · simp [hx]

end

namespace Scope

open Source

/-- A binding of a name by a statement. -/
inductive Binding where
  /-- One name is assigned a value or annotated, or both. -/
  | assigned (name : String) (value hint : Option Expr)
  /-- One name of a parallel assignment gets its value. -/
  | element (name : String) (value : Expr)
  /-- A name is imported. -/
  | imported (source : Option ImportSource) (a : ImportAlias)
  /-- A function or class is defined. -/
  | defined (name : String)
  /-- The name is bound in any other form, or deleted. -/
  | other (name : String)

namespace Binding

/-- The bound name. -/
def name : Binding → String
  | assigned name _ _ | element name _ | defined name | other name => name
  | imported source a => a.boundName source

/-- The values that the binding takes over. -/
def values : Binding → List Expr
  | assigned _ value _ => value.toList
  | element _ value => [value]
  | imported .. | defined _ | other _ => []

end Binding

/-- The bindings that a step makes in its own scope, assignment expressions apart. A star imports no
name. -/
def Step.bindings : Step → List Binding
  | .bind name value hint => [.assigned name value hint]
  | .unbind name => [.other name]
  | .bindElement name value => [.element name value]
  | .onImport stmt => (stmt.names.filter (·.name ≠ "*")).map (.imported stmt.source)
  | .define name => [.defined name]
  | .visit _ | .function .. | .cls .. => []

/-- The values that are taken over have been evaluated before, as part of what was visited. -/
theorem exists_seen_of_binding {seen : List Expr} {step : Step} (h : step.Prepared seen)
    {b : Binding} (hb : b ∈ step.bindings) {e : Expr} (he : e ∈ b.values) :
    ∃ e' ∈ seen, e ∈ e'.evaluatedNodes := by
  cases step with
  | bind name value hint =>
    obtain rfl := List.mem_singleton.mp hb
    exact ⟨e, h e (Option.mem_toList.mp he), Expr.mem_evaluatedNodes_iff.mpr (.inl rfl)⟩
  | bindElement name value =>
    obtain rfl := List.mem_singleton.mp hb
    obtain rfl := List.mem_singleton.mp he
    obtain ⟨site, kind, elements, hseen, hmem⟩ := h
    refine ⟨_, hseen, Expr.mem_evaluatedNodes_iff.mpr (.inr ⟨e, hmem, ?_⟩)⟩
    exact Expr.mem_evaluatedNodes_iff.mpr (.inl rfl)
  | unbind name | define name =>
    obtain rfl := List.mem_singleton.mp hb
    cases he
  | onImport stmt =>
    obtain ⟨a, -, rfl⟩ := List.mem_map.mp hb
    cases he
  | visit e | function head body | cls head body => cases hb

end Scope

end ContextLint
