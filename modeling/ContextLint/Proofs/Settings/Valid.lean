import Mathlib.Data.String.Basic
import ContextLint.Proofs.Text.Trim
import ContextLint.Settings.Validate

/-!
# Valid settings

Settings that pass the checks are valid: names are trimmed and not empty, sets of names are sorted
without repetition, the two sets of methods that the rule cannot do without are not empty, and the
code has its form. Each check ensures this for the field that it checks.
-/

namespace ContextLint

open Data Text

/-- A name: a trimmed text that is not empty. -/
def IsName (s : String) : Prop := s ≠ "" ∧ Trimmed s.toList

/-- One to three capital letters and three digits. -/
def IsCode (code : List Char) : Prop :=
  ∃ letters digits, code = letters ++ digits ∧
    1 ≤ letters.length ∧ letters.length ≤ 3 ∧ (∀ c ∈ letters, 'A' ≤ c ∧ c ≤ 'Z') ∧
    digits.length = 3 ∧ ∀ c ∈ digits, '0' ≤ c ∧ c ≤ '9'

/-- A set of names of methods: not empty, sorted and without repetition. -/
structure IsMethodSet (methods : List String) : Prop where
  nonempty : methods ≠ []
  sorted : methods.Pairwise (· < ·)
  names : ∀ name ∈ methods, IsName name

/-- The settings that are names. -/
def Settings.identifiers (s : Settings) : List String :=
  [s.ruleId, s.builderType, s.producerConfigType, s.injectionMethod, s.finalizingMethod,
    s.capabilityType, s.suppressionKeyword]

/-- Settings that the rule can work with. -/
structure Settings.Valid (s : Settings) : Prop where
  identifiers : ∀ name ∈ s.identifiers, IsName name
  terminalMethods : IsMethodSet s.terminalMethods
  producingMethods : s.producingMethods.Pairwise (· < ·)
  capabilityMethods : IsMethodSet s.capabilityMethods
  flake8Code : IsCode s.flake8Code.toList

private theorem isName_trimString {s : String} (h : trimString s ≠ "") : IsName (trimString s) := by
  refine ⟨h, ?_⟩
  rw [trimString, String.toList_ofList]
  exact trimmed_trim s.toList

variable {name n : String} {names : List String}

section Sets

private theorem mem_insertName : n ∈ insertName name names ↔ n = name ∨ n ∈ names := by
  induction names with
  | nil => simp [insertName]
  | cons m rest ih =>
    unfold insertName
    split_ifs with hlt heq
    · simp
    · simp [heq]
    · simp only [List.mem_cons, ih]
      exact or_left_comm

/-- Putting a name into a sorted list keeps it sorted. -/
theorem sorted_insertName (h : names.Pairwise (· < ·)) :
    (insertName name names).Pairwise (· < ·) := by
  induction names with
  | nil => exact List.pairwise_singleton _ _
  | cons m rest ih =>
    obtain ⟨hfirst, hrest⟩ := List.pairwise_cons.mp h
    unfold insertName
    split_ifs with hlt heq
    · refine List.pairwise_cons.mpr ⟨?_, h⟩
      intro n hn
      obtain rfl | hn := List.mem_cons.mp hn
      · exact hlt
      · exact hlt.trans (hfirst n hn)
    · exact h
    · refine List.pairwise_cons.mpr ⟨?_, ih hrest⟩
      intro n hn
      obtain rfl | hn := mem_insertName.mp hn
      · exact lt_of_le_of_ne (not_lt.mp hlt) (Ne.symm heq)
      · exact hfirst n hn

/-- Sorting loses no name. -/
theorem mem_sortNames : n ∈ sortNames names ↔ n ∈ names := by
  induction names with
  | nil => exact Iff.rfl
  | cons m rest ih =>
    rw [List.mem_cons, ← ih]
    exact mem_insertName

private theorem sorted_sortNames (names : List String) : (sortNames names).Pairwise (· < ·) := by
  induction names with
  | nil => exact List.Pairwise.nil
  | cons m rest ih => exact sorted_insertName ih

end Sets

namespace Settings

variable {name default : String} {defaults : List String} {value : Option Value}

/-- The form of a code is checked as it is described. -/
theorem isCode_sound {code : List Char} (h : isCode code = true) : IsCode code := by
  unfold isCode at h
  simp only [Bool.and_eq_true, decide_eq_true_eq, beq_iff_eq, List.all_eq_true] at h
  obtain ⟨⟨⟨hmin, hmax⟩, hlength⟩, hdigits⟩ := h
  refine ⟨_, _, ?_, hmin, hmax, ?_, hlength, hdigits⟩
  · exact (List.prefix_iff_eq_append.mp (List.takeWhile_prefix _)).symm
  · intro c hc
    have hletter := List.mem_takeWhile_imp hc
    simpa using hletter

/-- A name without issues is one. -/
theorem isName_checkName (h : (checkName name default value).issues = []) :
    IsName (checkName name default value).value := by
  unfold checkName at h ⊢
  dsimp only at h ⊢
  split_ifs at h ⊢ with hissues hblank
  · apply isName_trimString
    intro hempty
    exact hblank (String.isEmpty_iff.mpr hempty)
  · exact absurd (List.isEmpty_iff.mpr h) hissues

/-- A code without issues has the form of one. -/
theorem isCode_checkCode (h : (checkCode name default value).issues = []) :
    IsCode (checkCode name default value).value.toList := by
  unfold checkCode at h ⊢
  dsimp only at h ⊢
  split_ifs at h ⊢ with hform
  apply isCode_sound
  simpa [h] using hform

/-- A set of names is sorted. -/
theorem sorted_checkSet (hdefaults : defaults.Pairwise (· < ·)) :
    (checkSet name defaults value).value.Pairwise (· < ·) := by
  unfold checkSet
  split
  · exact hdefaults
  · split
    · exact hdefaults
    · exact sorted_sortNames _

/-- A set of methods without issues is one. -/
theorem isMethodSet_checkMethods (h : (checkMethods name defaults value).issues = []) :
    IsMethodSet (checkMethods name defaults value).value := by
  unfold checkMethods at h ⊢
  dsimp only at h ⊢
  split_ifs at h ⊢ with hissues hempty
  · refine ⟨fun hnil => hempty (List.isEmpty_iff.mpr hnil), sorted_sortNames _, ?_⟩
    intro method hmethod
    obtain ⟨hmem, hblank⟩ := List.mem_filter.mp (mem_sortNames.mp hmethod)
    obtain ⟨s, -, rfl⟩ := List.mem_map.mp hmem
    apply isName_trimString
    intro hnone
    simp [hnone] at hblank
  · exact absurd (List.isEmpty_iff.mpr h) hissues

/-- Settings that pass all checks are valid. -/
theorem valid_of_ofValues {values : List (String × Value)} {s : Settings}
    (h : ofValues values = .ok s) : s.Valid := by
  unfold ofValues at h
  dsimp only at h
  split_ifs at h with hissues
  simp only [List.isEmpty_iff, List.append_eq_nil_iff] at hissues
  obtain ⟨⟨⟨⟨⟨⟨⟨⟨⟨⟨⟨⟨⟨ruleId, -⟩, -⟩, builderType⟩, producerConfigType⟩, terminalMethods⟩,
    injectionMethod⟩, -⟩, finalizingMethod⟩, capabilityType⟩, capabilityMethods⟩,
    suppressionKeyword⟩, flake8Code⟩, -⟩ := hissues
  cases h
  refine ⟨?_, isMethodSet_checkMethods terminalMethods, sorted_checkSet (by decide),
    isMethodSet_checkMethods capabilityMethods, isCode_checkCode flake8Code⟩
  simp only [identifiers, List.forall_mem_cons]
  exact ⟨isName_checkName ruleId, isName_checkName builderType, isName_checkName producerConfigType,
    isName_checkName injectionMethod, isName_checkName finalizingMethod,
    isName_checkName capabilityType, isName_checkName suppressionKeyword, List.forall_mem_nil _⟩

/-- The default settings are valid. -/
theorem valid_default : ({} : Settings).Valid := by
  have hdefault : ofValues [] = .ok {} := by decide
  exact valid_of_ofValues hdefault

end Settings

end ContextLint
