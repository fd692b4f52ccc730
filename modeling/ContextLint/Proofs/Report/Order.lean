import Mathlib.Data.Prod.Lex
import Mathlib.Data.String.Basic
import ContextLint.Report.Basic

/-!
# Sorting by place

Diagnostics are sorted by place, in a report by file and place, and those of one place keep their
order. Sorting puts an element before all that it does not come behind, so it commutes with
taking elements away. Neighbours that do not tie may change places beforehand.
-/

namespace ContextLint.Report

section

variable {α : Type} {le : α → α → Bool}
  (trans : ∀ a b c, le a b = true → le b c = true → le a c = true)
  (total : ∀ a b, (le a b || le b a) = true)

include trans total

/-- Sorting puts the head behind what comes strictly before it and in front of the rest. -/
theorem mergeSort_cons_eq (a : α) (l : List α) :
    (a :: l).mergeSort le =
      (l.mergeSort le).filter (fun b => !le a b) ++ a :: (l.mergeSort le).filter (le a) := by
  obtain ⟨front, back, hcons, htail, hfront⟩ := List.mergeSort_cons trans total a l
  have hsorted := List.pairwise_mergeSort trans total (a :: l)
  rw [hcons, List.pairwise_append, List.pairwise_cons] at hsorted
  have hback : ∀ b ∈ back, le a b = true := hsorted.2.1.1
  have hkeep : (front ++ back).filter (fun b => !le a b) = front := by
    rw [List.filter_append, List.filter_eq_self.mpr hfront, List.filter_eq_nil_iff.mpr,
      List.append_nil]
    intro b hb
    simp [hback b hb]
  have hdrop : (front ++ back).filter (le a) = back := by
    rw [List.filter_append, List.filter_eq_self.mpr hback, List.filter_eq_nil_iff.mpr,
      List.nil_append]
    intro b hb
    simpa using hfront b hb
  rw [hcons, htail, hkeep, hdrop]

/-- Sorting commutes with taking away the elements without a property. -/
theorem filter_mergeSort (p : α → Bool) (l : List α) :
    (l.mergeSort le).filter p = (l.filter p).mergeSort le := by
  induction l with
  | nil => simp
  | cons a l ih =>
    by_cases ha : p a = true
    · have hcomm (r : α → Bool) :
          ((l.mergeSort le).filter r).filter p = ((l.filter p).mergeSort le).filter r := by
        rw [← ih, List.filter_filter, List.filter_filter]
        exact List.filter_congr fun b _ => Bool.and_comm ..
      rw [List.filter_cons_of_pos ha, mergeSort_cons_eq trans total, mergeSort_cons_eq trans total,
        List.filter_append, List.filter_cons_of_pos ha, hcomm, hcomm]
    · obtain ⟨front, back, hcons, htail, -⟩ := List.mergeSort_cons trans total a l
      rw [List.filter_cons_of_neg ha, ← ih, hcons, htail, List.filter_append, List.filter_append,
        List.filter_cons_of_neg ha]

/-- Sorting a sublist gives a sublist of the sorted list. -/
theorem mergeSort_sublist {l l' : List α} (h : l.Sublist l') :
    (l.mergeSort le).Sublist (l'.mergeSort le) := by
  induction h with
  | slnil => exact .refl _
  | @cons l l' a h ih =>
    obtain ⟨front, back, hcons, htail, -⟩ := List.mergeSort_cons trans total a l'
    rw [hcons]
    rw [htail] at ih
    exact ih.trans (List.Sublist.append_left (List.sublist_cons_self a back) front)
  | cons_cons a h ih =>
    rw [mergeSort_cons_eq trans total, mergeSort_cons_eq trans total]
    exact (ih.filter _).append ((ih.filter _).cons_cons a)

/-- Of two elements at the front the lesser comes out first, whichever stood first. -/
private theorem mergeSort_swap_of_lt {a b : α} (hab : le a b = true) (hba : le b a = false)
    (l : List α) : (a :: b :: l).mergeSort le = (b :: a :: l).mergeSort le := by
  have hbelow (x : α) : le b x = false ∨ le a x = true := by
    cases hx : le b x with
    | false => exact .inl rfl
    | true => exact .inr (trans a b x hab hx)
  have hnot (x : α) : (!le a x && !le b x) = !le a x := by rcases hbelow x with h | h <;> simp [h]
  have hboth (x : α) : (le a x && le b x) = le b x := by rcases hbelow x with h | h <;> simp [h]
  have hnever (x : α) : (!le a x && le b x) = false := by rcases hbelow x with h | h <;> simp [h]
  have hflip (p q : α → Bool) (xs : List α) :
      xs.filter (fun x => p x && q x) = xs.filter fun x => q x && p x :=
    List.filter_congr fun x _ => Bool.and_comm ..
  simp only [mergeSort_cons_eq trans total, List.filter_append, List.filter_cons, List.filter_filter,
    hab, hba, hnot, hboth, hnever, hflip (fun x => !le b x), hflip (le b)]
  simp

/-- Neighbours that do not tie may change places. -/
theorem mergeSort_swap {a b : α} (h : ¬ (le a b = true ∧ le b a = true)) (l : List α) :
    (a :: b :: l).mergeSort le = (b :: a :: l).mergeSort le := by
  cases hab : le a b with
  | false =>
    have hba : le b a = true := by simpa [hab] using total a b
    exact (mergeSort_swap_of_lt trans total hba hab l).symm
  | true =>
    have hba : le b a = false := by simpa [hab] using h
    exact mergeSort_swap_of_lt trans total hab hba l

/-- What stands in front does not matter for the order of the rest. -/
theorem mergeSort_append_congr (xs : List α) {ys zs : List α}
    (h : ys.mergeSort le = zs.mergeSort le) :
    (xs ++ ys).mergeSort le = (xs ++ zs).mergeSort le := by
  induction xs with
  | nil => exact h
  | cons x xs ih =>
    rw [List.cons_append, List.cons_append, mergeSort_cons_eq trans total,
      mergeSort_cons_eq trans total, ih]

private theorem mergeSort_move {a : α} {xs : List α}
    (h : ∀ b ∈ xs, ¬ (le b a = true ∧ le a b = true)) (l : List α) :
    (xs ++ a :: l).mergeSort le = (a :: (xs ++ l)).mergeSort le := by
  induction xs with
  | nil => rfl
  | cons b xs ih =>
    rw [List.forall_mem_cons] at h
    calc (b :: (xs ++ a :: l)).mergeSort le
        = (b :: a :: (xs ++ l)).mergeSort le := mergeSort_append_congr trans total [b] (ih h.2)
      _ = (a :: b :: (xs ++ l)).mergeSort le := mergeSort_swap trans total h.1 _

/-- Neighbouring blocks may change places if nothing in one ties with anything in the other. -/
theorem mergeSort_swap_blocks {xs ys : List α}
    (h : ∀ x ∈ xs, ∀ y ∈ ys, ¬ (le x y = true ∧ le y x = true)) (l : List α) :
    (xs ++ (ys ++ l)).mergeSort le = (ys ++ (xs ++ l)).mergeSort le := by
  induction ys with
  | nil => rfl
  | cons y ys ih =>
    have hy : ∀ x ∈ xs, ¬ (le x y = true ∧ le y x = true) := fun x hx => h x hx y List.mem_cons_self
    have hys := ih fun x hx z hz => h x hx z (List.mem_cons_of_mem y hz)
    calc (xs ++ y :: (ys ++ l)).mergeSort le
        = (y :: (xs ++ (ys ++ l))).mergeSort le := mergeSort_move trans total hy _
      _ = (y :: (ys ++ (xs ++ l))).mergeSort le := mergeSort_append_congr trans total [y] hys

/-- Any number of blocks may be permuted if nothing in one ties with anything in another. -/
theorem mergeSort_flatMap_perm {β : Type} {l l' : List β} (hperm : l.Perm l') (f : β → List α)
    (h : l.Pairwise fun x y => ∀ a ∈ f x, ∀ b ∈ f y, ¬ (le a b = true ∧ le b a = true)) :
    (l.flatMap f).mergeSort le = (l'.flatMap f).mergeSort le := by
  induction hperm with
  | nil => rfl
  | cons x _ ih =>
    rw [List.flatMap_cons, List.flatMap_cons]
    exact mergeSort_append_congr trans total _ (ih (List.pairwise_cons.mp h).2)
  | swap x y l =>
    have hyx := (List.pairwise_cons.mp h).1 x List.mem_cons_self
    simp only [List.flatMap_cons]
    exact mergeSort_swap_blocks trans total hyx _
  | trans hfirst _ ihfirst ihsecond =>
    have hsymm {x y : β} (hxy : ∀ a ∈ f x, ∀ b ∈ f y, ¬ (le a b = true ∧ le b a = true)) :
        ∀ b ∈ f y, ∀ a ∈ f x, ¬ (le b a = true ∧ le a b = true) := by
      intro b hb a ha htie
      exact hxy a ha b hb htie.symm
    exact (ihfirst h).trans (ihsecond ((hfirst.pairwise_iff hsymm).mp h))

end

/-- The second list is the first one in the order of keys, where elements of one key keep their
order. -/
structure IsStableSort {α κ : Type} [LinearOrder κ] (key : α → κ) (l sorted : List α) : Prop where
  /-- Nothing is lost or added. -/
  perm : sorted.Perm l
  /-- The keys increase. -/
  ordered : sorted.Pairwise fun a b => key a ≤ key b
  /-- The elements of a key stand in the order in which they stood. -/
  stable : ∀ k, (sorted.filter fun a => key a = k) = l.filter fun a => key a = k

section

variable {α κ : Type} [LinearOrder κ] {key : α → κ} {le : α → α → Bool}
  (hle : ∀ a b, le a b = true ↔ key a ≤ key b)

include hle

theorem trans_of_key (a b c : α) (hab : le a b = true) (hbc : le b c = true) : le a c = true := by
  rw [hle] at hab hbc ⊢
  exact hab.trans hbc

theorem total_of_key (a b : α) : (le a b || le b a) = true := by
  rw [Bool.or_eq_true, hle, hle]
  exact le_total (key a) (key b)

/-- Sorting by a comparison of keys is stable. -/
theorem isStableSort_mergeSort (l : List α) : IsStableSort key l (l.mergeSort le) where
  perm := List.mergeSort_perm l le
  ordered := by
    have hsorted := List.pairwise_mergeSort (trans_of_key hle) (total_of_key hle) l
    exact hsorted.imp fun h => (hle _ _).mp h
  stable k := by
    rw [filter_mergeSort (trans_of_key hle) (total_of_key hle)]
    apply List.mergeSort_of_pairwise
    -- Elements of one key tie, so sorting leaves them alone.
    apply List.pairwise_of_forall_mem_list
    intro a ha b hb
    have hak : key a = k := by simpa using (List.mem_filter.mp ha).2
    have hbk : key b = k := by simpa using (List.mem_filter.mp hb).2
    rw [hle, hak, hbk]

end

namespace Diagnostic

/-- Places are compared by line, then by column. -/
theorem placeLe_iff {a b : Diagnostic} :
    a.placeLe b = true ↔ a.line < b.line ∨ a.line = b.line ∧ a.column ≤ b.column := by
  simp [placeLe]

theorem placeLe_trans (a b c : Diagnostic) (hab : a.placeLe b = true) (hbc : b.placeLe c = true) :
    a.placeLe c = true := by
  rw [placeLe_iff] at hab hbc ⊢
  omega

theorem placeLe_total (a b : Diagnostic) : (a.placeLe b || b.placeLe a) = true := by
  rw [Bool.or_eq_true, placeLe_iff, placeLe_iff]
  omega

/-- What a report is sorted by. -/
def key (d : Diagnostic) : String ×ₗ ℤ ×ₗ ℤ := toLex (d.file, toLex (d.line, d.column))

/-- Diagnostics are compared by their keys. -/
theorem le_iff (a b : Diagnostic) : a.le b = true ↔ a.key ≤ b.key := by
  rw [key, key, Prod.Lex.toLex_le_toLex, Prod.Lex.toLex_le_toLex, le, Bool.or_eq_true,
    Bool.and_eq_true, decide_eq_true_iff, beq_iff_eq, placeLe_iff]

/-- Diagnostics that tie are in the same file. -/
theorem file_eq_of_tie {a b : Diagnostic} (h : a.le b = true ∧ b.le a = true) :
    a.file = b.file := by
  have hkey : a.key = b.key := le_antisymm ((le_iff a b).mp h.1) ((le_iff b a).mp h.2)
  exact congrArg (fun k => (ofLex k).1) hkey

end Diagnostic

end ContextLint.Report
