import Mathlib.Data.List.Basic
import ContextLint.Files.Path

/-!
# Paths and their texts

The text of a path separates its names by slashes. No name is empty, holds a slash or is a single
dot, so reading the text gives the names back, and paths that differ have texts that differ.
-/

namespace ContextLint.Files

/-- A name that can stand in a path. -/
structure IsPart (name : String) : Prop where
  /-- It is not empty. -/
  ne_empty : name ≠ ""
  /-- It does not stand for the directory itself. -/
  ne_dot : name ≠ "."
  /-- It is a single name. -/
  no_slash : '/' ∉ name.toList

private theorem segments_of_not_mem {cs : List Char} (h : '/' ∉ cs) : segments cs = [cs] := by
  induction cs with
  | nil => rfl
  | cons c cs ih =>
    rw [List.mem_cons, not_or] at h
    have hc : c ≠ '/' := Ne.symm h.1
    rw [segments, ih h.2]
    exact hc

/-- Text without a slash, then a slash, is a segment of its own. -/
theorem segments_append {cs : List Char} (h : '/' ∉ cs) (rest : List Char) :
    segments (cs ++ '/' :: rest) = cs :: segments rest := by
  induction cs with
  | nil => rfl
  | cons c cs ih =>
    rw [List.mem_cons, not_or] at h
    have hc : c ≠ '/' := Ne.symm h.1
    rw [List.cons_append, segments, ih h.2]
    exact hc

/-- Splitting at the slashes undoes joining by them. -/
theorem segments_intercalate {names : List (List Char)} (hne : names ≠ [])
    (h : ∀ cs ∈ names, '/' ∉ cs) : segments (['/'].intercalate names) = names := by
  induction names with
  | nil => exact absurd rfl hne
  | cons cs names ih =>
    rw [List.forall_mem_cons] at h
    cases names with
    | nil => rw [List.intercalate_singleton, segments_of_not_mem h.1]
    | cons next names =>
      rw [List.intercalate_cons_cons, List.append_assoc, List.singleton_append,
        segments_append h.1, ih (List.cons_ne_nil _ _) h.2]

/-- No segment holds a slash. -/
theorem no_slash_of_mem_segments {cs segment : List Char} (h : segment ∈ segments cs) :
    '/' ∉ segment := by
  induction cs generalizing segment with
  | nil =>
    rw [List.mem_singleton.mp h]
    exact List.not_mem_nil
  | cons c cs ih =>
    rcases eq_or_ne c '/' with rfl | hc
    · rcases List.mem_cons.mp h with rfl | h
      · exact List.not_mem_nil
      · exact ih h
    · rw [segments] at h
      · split at h
        · rw [List.mem_singleton.mp h, List.mem_singleton]
          exact hc.symm
        · next s more hmore =>
          rcases List.mem_cons.mp h with rfl | h
          · rw [List.mem_cons, not_or]
            exact ⟨hc.symm, ih (hmore ▸ List.mem_cons_self)⟩
          · exact ih (hmore ▸ List.mem_cons_of_mem _ h)
      · exact hc

/-- The names between the slashes of a text. -/
def namesIn (cs : List Char) : List String :=
  ((segments cs).map String.ofList).filter fun name => !name.isEmpty && name != "."

private theorem namesIn_slash (cs : List Char) : namesIn ('/' :: cs) = namesIn cs := by
  rw [namesIn, segments, List.map_cons, List.filter_cons_of_neg (by simp)]
  rfl

private theorem isPart_of_mem_namesIn {cs : List Char} {name : String} (h : name ∈ namesIn cs) :
    IsPart name := by
  obtain ⟨hmem, hname⟩ := List.mem_filter.mp h
  obtain ⟨segment, hsegment, rfl⟩ := List.mem_map.mp hmem
  rw [Bool.and_eq_true] at hname
  refine ⟨by simpa using hname.1, by simpa using hname.2, ?_⟩
  rw [String.toList_ofList]
  exact no_slash_of_mem_segments hsegment

/-- Names joined by slashes are read back. -/
theorem namesIn_intercalate {names : List String} (h : ∀ n ∈ names, IsPart n) :
    namesIn (['/'].intercalate (names.map String.toList)) = names := by
  by_cases hne : names = []
  · subst hne
    rfl
  · rw [namesIn, segments_intercalate, List.map_map]
    · have hround : String.ofList ∘ String.toList = id := funext fun _ => String.ofList_toList
      rw [hround, List.map_id, List.filter_eq_self]
      intro name hname
      have hpart := h name hname
      simp [hpart.ne_empty, hpart.ne_dot]
    · simpa using hne
    · intro cs hcs
      obtain ⟨name, hname, rfl⟩ := List.mem_map.mp hcs
      exact (h name hname).no_slash

/-- Joined names start with no slash. -/
private theorem takeWhile_intercalate {names : List String} (h : ∀ n ∈ names, IsPart n) :
    (['/'].intercalate (names.map String.toList)).takeWhile (· == '/') = [] := by
  cases names with
  | nil => rfl
  | cons name rest =>
    have hname := h name List.mem_cons_self
    obtain ⟨c, cs, hcs⟩ : ∃ c cs, name.toList = c :: cs := by
      apply List.exists_cons_of_ne_nil
      intro hnil
      exact hname.ne_empty (String.toList_eq_nil_iff.mp hnil)
    have hc : c ≠ '/' := by
      intro heq
      apply hname.no_slash
      rw [hcs, heq]
      exact List.mem_cons_self
    have hhead : ∃ more, ['/'].intercalate ((name :: rest).map String.toList) = c :: more := by
      cases rest with
      | nil => exact ⟨cs, by rw [List.map_singleton, List.intercalate_singleton, hcs]⟩
      | cons next rest =>
        rw [List.map_cons, List.map_cons, List.intercalate_cons_cons, hcs]
        exact ⟨_, rfl⟩
    obtain ⟨more, hmore⟩ := hhead
    rw [hmore, List.takeWhile_cons_of_neg]
    simpa using hc

namespace Path

/-- A path such as is read from a text. -/
structure Proper (p : Path) : Prop where
  /-- It starts with no slash, with one or with two. -/
  anchor : p.anchor = "" ∨ p.anchor = "/" ∨ p.anchor = "//"
  /-- It is made of names. -/
  parts : ∀ name ∈ p.parts, IsPart name

/-- A path read from a text is proper. -/
theorem proper_ofString (s : String) : (ofString s).Proper where
  anchor := by
    unfold ofString
    dsimp only
    split
    · exact .inl rfl
    · split
      · exact .inr (.inr rfl)
      · exact .inr (.inl rfl)
  parts name h := by
    have hname : name ∈ namesIn s.toList := h
    exact isPart_of_mem_namesIn hname

/-- A single name is a path of its own. -/
theorem ofString_name {name : String} (h : IsPart name) : ofString name = ⟨"", [name]⟩ := by
  have hall : ∀ n ∈ [name], IsPart n := by simpa using h
  have hnames : namesIn name.toList = [name] := by
    have hread := namesIn_intercalate hall
    rwa [List.map_singleton, List.intercalate_singleton] at hread
  have hslashes : name.toList.takeWhile (· == '/') = [] := by
    have htake := takeWhile_intercalate hall
    rwa [List.map_singleton, List.intercalate_singleton] at htake
  have hparts : (ofString name).parts = [name] := hnames
  have hanchor : (ofString name).anchor = "" := by
    rw [ofString, hslashes]
    rfl
  exact congrArg₂ Path.mk hanchor hparts

/-- Reading the text of a path gives the path back. -/
theorem ofString_text {p : Path} (hp : p.Proper) : ofString p.text = p := by
  obtain ⟨anchor, parts⟩ := p
  obtain ⟨hanchor, hparts⟩ := hp
  dsimp only at hanchor hparts
  by_cases hempty : anchor = "" ∧ parts = []
  · obtain ⟨rfl, rfl⟩ := hempty
    decide
  · have htext : (text ⟨anchor, parts⟩).toList =
        anchor.toList ++ ['/'].intercalate (parts.map String.toList) := by
      have hslash : "/".toList = ['/'] := by decide
      rw [text, if_neg (by simpa using hempty), String.toList_append, String.toList_intercalate,
        hslash]
    have hnames : namesIn (text ⟨anchor, parts⟩).toList = parts := by
      have hjoined := namesIn_intercalate hparts
      rw [htext]
      rcases hanchor with rfl | rfl | rfl
      · exact hjoined
      · exact (namesIn_slash _).trans hjoined
      · exact ((namesIn_slash _).trans (namesIn_slash _)).trans hjoined
    have hslashes : (text ⟨anchor, parts⟩).toList.takeWhile (· == '/') = anchor.toList := by
      have htake := takeWhile_intercalate hparts
      rw [htext]
      rcases hanchor with rfl | rfl | rfl <;> simp [htake]
    have hread : (ofString (text ⟨anchor, parts⟩)).parts = parts := hnames
    have hstart : (ofString (text ⟨anchor, parts⟩)).anchor = anchor := by
      rw [ofString, hslashes]
      rcases hanchor with rfl | rfl | rfl <;> rfl
    exact congrArg₂ Path.mk hstart hread

/-- Paths with the same text are the same. -/
theorem eq_of_text_eq {p q : Path} (hp : p.Proper) (hq : q.Proper) (h : p.text = q.text) :
    p = q := by
  rw [← ofString_text hp, h, ofString_text hq]

end Path

end ContextLint.Files
