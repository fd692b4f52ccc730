import Mathlib.Data.List.DropRight
import ContextLint.Text.Blank

/-!
# Trimming

A text is its trimmed form between two runs of blank characters. A trimmed text neither starts nor
ends with a blank character, and blank characters around a text do not change its trimmed form.
-/

namespace ContextLint.Text

/-- A run of blank characters. -/
def Blank (cs : List Char) : Prop := ∀ c ∈ cs, isBlank c = true

instance (cs : List Char) : Decidable (Blank cs) :=
  decidable_of_iff (cs.all isBlank = true) List.all_eq_true

variable {cs before after : List Char} {c : Char}

/-- Blank texts in a row are blank. -/
theorem Blank.append (h : Blank before) (h' : Blank after) : Blank (before ++ after) :=
  List.forall_mem_append.mpr ⟨h, h'⟩

/-- A character that is not blank is in no blank text. -/
theorem Blank.not_mem (h : Blank cs) (hc : isBlank c = false) : c ∉ cs := fun hmem => by
  rw [h c hmem] at hc
  cases hc

/-- Blanks in front are trimmed. -/
theorem trimLeft_append (h : Blank before) (cs : List Char) :
    trimLeft (before ++ cs) = trimLeft cs :=
  List.dropWhile_append_of_pos h

private theorem trimRight_append (h : Blank after) (cs : List Char) :
    trimRight (cs ++ after) = trimRight cs := by
  unfold trimRight
  rw [List.reverse_append, List.dropWhile_append_of_pos fun c hc => h c (List.mem_reverse.mp hc)]

theorem trimLeft_cons (hc : isBlank c = false) (cs : List Char) : trimLeft (c :: cs) = c :: cs :=
  List.dropWhile_cons_of_neg (Bool.eq_false_iff.mp hc)

/-- Dropping blank characters behind a text stops at a character that is not blank. -/
theorem trimRight_append_cons (hc : isBlank c = false) (before cs : List Char) :
    trimRight (before ++ c :: cs) = before ++ c :: trimRight cs := by
  unfold trimRight
  rw [List.reverse_append, List.reverse_cons, List.append_assoc, List.dropWhile_append]
  split
  · next hnil =>
    rw [List.isEmpty_iff.mp hnil, List.singleton_append,
      List.dropWhile_cons_of_neg (Bool.eq_false_iff.mp hc)]
    simp
  · simp

/-- Only blanks are trimmed in front. -/
theorem exists_trimLeft (cs : List Char) : ∃ before, Blank before ∧ cs = before ++ trimLeft cs :=
  ⟨cs.takeWhile isBlank, fun _ hc => List.mem_takeWhile_imp hc,
    List.takeWhile_append_dropWhile.symm⟩

/-- Only blanks are trimmed at the end. -/
theorem exists_trimRight (cs : List Char) : ∃ after, Blank after ∧ cs = trimRight cs ++ after :=
  ⟨cs.rtakeWhile isBlank, fun _ hc => List.mem_rtakeWhile_imp hc,
    List.rdropWhile_append_rtakeWhile.symm⟩

/-- Dropping blank characters behind a text keeps what stands before it. -/
theorem trimLeft_trimRight {cs : List Char} (h : trimLeft cs = cs) :
    trimLeft (trimRight cs) = trimRight cs := by
  have hstart : trimRight cs <+: cs := List.rdropWhile_prefix isBlank cs
  unfold trimLeft at h ⊢
  rw [List.dropWhile_eq_self_iff] at h ⊢
  intro hpos
  have hlength : 0 < cs.length := hpos.trans_le hstart.length_le
  have hhead := h hlength
  rwa [hstart.getElem hpos]

/-- A text that has been trimmed is trimmed. -/
theorem trimmed_trim (cs : List Char) : Trimmed (trim cs) := by
  have hleft : trimLeft (trimLeft cs) = trimLeft cs := List.dropWhile_idempotent _ cs
  have hright : trimRight (trimRight (trimLeft cs)) = trimRight (trimLeft cs) :=
    List.rdropWhile_idempotent _ _
  unfold Trimmed trim
  rw [trimLeft_trimRight hleft, hright]

/-- A text is its trimmed form between blank characters. -/
theorem exists_trim (cs : List Char) :
    ∃ before after, Blank before ∧ Blank after ∧ cs = before ++ (trim cs ++ after) := by
  obtain ⟨before, hbefore, hleft⟩ := exists_trimLeft cs
  obtain ⟨after, hafter, hright⟩ := exists_trimRight (trimLeft cs)
  refine ⟨before, after, hbefore, hafter, ?_⟩
  rw [trim, ← hright, ← hleft]

theorem trim_cons (hc : isBlank c = false) (cs : List Char) :
    trim (c :: cs) = c :: trimRight cs := by
  rw [trim, trimLeft_cons hc]
  exact trimRight_append_cons hc [] cs

/-- Blanks in front do not matter. -/
theorem trim_append_left (h : Blank before) (cs : List Char) : trim (before ++ cs) = trim cs := by
  rw [trim, trimLeft_append h, trim]

/-- A text of blank characters has nothing left when trimmed. -/
theorem trim_eq_nil_iff : trim cs = [] ↔ Blank cs := by
  constructor
  · intro h
    obtain ⟨before, after, hbefore, hafter, hcs⟩ := exists_trim cs
    rw [hcs, h, List.nil_append]
    exact hbefore.append hafter
  · intro h
    rw [← List.append_nil cs, trim_append_left h]
    rfl

/-- Blanks at the end do not matter. -/
theorem trim_append_right (h : Blank after) (cs : List Char) : trim (cs ++ after) = trim cs := by
  by_cases hcs : Blank cs
  · rw [trim_eq_nil_iff.mpr hcs, trim_eq_nil_iff.mpr (hcs.append h)]
  · have hne : cs.dropWhile isBlank ≠ [] := fun hnil => hcs (List.dropWhile_eq_nil_iff.mp hnil)
    have hleft : trimLeft (cs ++ after) = trimLeft cs ++ after :=
      List.dropWhile_append.trans (if_neg (mt List.isEmpty_iff.mp hne))
    rw [trim, hleft, trimRight_append h, trim]

/-- A trimmed text does not start with a blank character. -/
theorem Trimmed.head (h : Trimmed (c :: cs)) : isBlank c = false := by
  by_contra hblank
  have hfirst : Blank [c] := List.forall_mem_singleton.mpr (by simpa using hblank)
  have htrim : trim cs = c :: cs := (trim_append_left hfirst cs).symm.trans h
  obtain ⟨before, after, -, -, hcs⟩ := exists_trim cs
  have hlength := congrArg List.length hcs
  simp only [htrim, List.length_append, List.length_cons] at hlength
  omega

end ContextLint.Text
