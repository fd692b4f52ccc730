import Mathlib.Data.List.Basic
import ContextLint.Source.Traverse

/-!
# Statements by depth

The statements of a body by depth are those of its parts, joined level by level. What is done to the
levels can be done to the parts, and statements without statements inside may change places with
their neighbours as far as only other statements are looked at.
-/

namespace ContextLint.Source

theorem zipLevels_nil {α : Type} (xs : List (List α)) : zipLevels xs [] = xs := by
  cases xs <;> rfl

/-- Levels are joined in any grouping. -/
theorem zipLevels_assoc {α : Type} (xs ys zs : List (List α)) :
    zipLevels (zipLevels xs ys) zs = zipLevels xs (zipLevels ys zs) := by
  fun_induction zipLevels xs ys generalizing zs with
  | case1 ys | case2 xs hxs => rfl
  | case3 x xs y ys ih =>
    cases zs with
    | nil => rfl
    | cons z zs => simp [zipLevels, ih]

/-- What acts on the parts of a level acts on joined levels. -/
theorem zipLevels_map {α β : Type} {g : List α → List β} (hg : ∀ x y, g (x ++ y) = g x ++ g y)
    (xs ys : List (List α)) : zipLevels (xs.map g) (ys.map g) = (zipLevels xs ys).map g := by
  fun_induction zipLevels xs ys with
  | case1 ys => rfl
  | case2 xs hxs =>
    cases xs with
    | nil | cons x xs => rfl
  | case3 x xs y ys ih => simp [zipLevels, hg, ih]

/-- An empty level changes places with its neighbours. -/
theorem zipLevels_blank_comm {α : Type} (xs ys : List (List α)) :
    zipLevels xs (zipLevels [[]] ys) = zipLevels [[]] (zipLevels xs ys) := by
  cases xs with
  | nil => rfl
  | cons x xs =>
    cases ys with
    | nil => simp [zipLevels, zipLevels_nil]
    | cons y ys => simp [zipLevels]

namespace Stmt

/-- Statements are sorted into levels one by one. -/
theorem levelsOf_append (xs ys : List Stmt) :
    levelsOf (xs ++ ys) = zipLevels (levelsOf xs) (levelsOf ys) := by
  induction xs with
  | nil => rfl
  | cons x xs ih => rw [List.cons_append, levelsOf, ih, levelsOf, zipLevels_assoc]

/-- The statements of a body with a property, by depth. -/
def levelsWith (p : Stmt → Bool) (body : List Stmt) : List (List Stmt) :=
  (levelsOf body).map (List.filter p)

theorem levelsWith_append (p : Stmt → Bool) (xs ys : List Stmt) :
    levelsWith p (xs ++ ys) = zipLevels (levelsWith p xs) (levelsWith p ys) := by
  rw [levelsWith, levelsOf_append]
  exact (zipLevels_map List.filter_append _ _).symm

/-- A statement that lacks the property and has no statements inside leaves an empty level. -/
theorem levelsWith_singleton {p : Stmt → Bool} {s : Stmt} (hs : s.levels = [[s]])
    (hp : p s = false) : levelsWith p [s] = [[]] := by
  simp [levelsWith, levelsOf, hs, zipLevels_nil, hp]

/-- Such a statement changes places with the statement before it. -/
theorem levelsWith_swap {p : Stmt → Bool} {s : Stmt} (hs : s.levels = [[s]]) (hp : p s = false)
    (s' : Stmt) : levelsWith p [s', s] = levelsWith p [s, s'] := by
  have hpair : ∀ a b : Stmt, levelsWith p [a, b] = zipLevels (levelsWith p [a]) (levelsWith p [b]) :=
    fun a b => levelsWith_append p [a] [b]
  have hcomm := zipLevels_blank_comm (levelsWith p [s']) []
  rw [zipLevels_nil, zipLevels_nil] at hcomm
  rw [hpair, hpair, levelsWith_singleton hs hp, hcomm]

end Stmt

/-- The statement declares something wherever it stands: it is a class or an import. -/
def Stmt.declares : Stmt → Bool
  | .classDef .. | .imports _ => true
  | _ => false

/-- The heads of the functions among the statements. -/
def functionHeads (stmts : List Stmt) : List FunctionHead :=
  stmts.filterMap fun
    | .functionDef head _ => some head
    | _ => none

/-- The statements of a module with a property, in breadth first order. -/
theorem Module.filter_breadthFirst (p : Stmt → Bool) (m : Module) :
    m.breadthFirst.filter p = (Stmt.levelsWith p m.body).flatten := by
  rw [breadthFirst, List.filter_flatten, Stmt.levelsWith]

end ContextLint.Source
