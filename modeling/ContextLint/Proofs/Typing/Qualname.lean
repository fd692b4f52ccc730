import Mathlib.Data.List.Basic
import ContextLint.Typing.TypeRef

/-!
# Names at the end of dotted names

A dotted name joins segments of word characters. A name that stands in it with no word character in
front and neither a word character nor a dot behind stands at its end, and starts at its head or
behind a dot. So a type name matches a qualified name if its last segments are those of the
qualified name.
-/

namespace ContextLint.Typing

/-- A name may start behind this text; the flag says whether it may start before it. -/
def startsName : Bool → List Char → Bool
  | free, [] => free
  | _, c :: rest => startsName (!Text.isWord c) rest

private theorem startsName_concat (free : Bool) (before : List Char) (c : Char) :
    startsName free (before ++ [c]) = !Text.isWord c := by
  induction before generalizing free with
  | nil => rfl
  | cons d before ih => exact ih _

private theorem nameAtHead_iff {name text : List Char} :
    nameAtHead name text = true ↔ ∃ after, text = name ++ after ∧ endsName after = true := by
  rw [nameAtHead, Bool.and_eq_true, List.isPrefixOf_iff_prefix]
  constructor
  · rintro ⟨⟨after, rfl⟩, hends⟩
    rw [List.drop_left] at hends
    exact ⟨after, rfl, hends⟩
  · rintro ⟨after, rfl, hends⟩
    rw [List.drop_left]
    exact ⟨List.prefix_append _ _, hends⟩

/-- The search finds the places where a name may start and end. -/
theorem nameWithin_iff {name text : List Char} {free : Bool} :
    nameWithin name free text = true ↔ ∃ before after, text = before ++ (name ++ after) ∧
      startsName free before = true ∧ endsName after = true := by
  induction text generalizing free with
  | nil =>
    rw [nameWithin, Bool.and_eq_true, nameAtHead_iff]
    constructor
    · rintro ⟨hfree, after, htext, hends⟩
      exact ⟨[], after, htext, hfree, hends⟩
    · rintro ⟨before, after, htext, hstarts, hends⟩
      obtain ⟨rfl, hname⟩ := List.append_eq_nil_iff.mp htext.symm
      exact ⟨hstarts, after, hname.symm, hends⟩
  | cons c rest ih =>
    rw [nameWithin, Bool.or_eq_true, Bool.and_eq_true, nameAtHead_iff, ih]
    constructor
    · rintro (⟨hfree, after, htext, hends⟩ | ⟨before, after, rfl, hstarts, hends⟩)
      · exact ⟨[], after, htext, hfree, hends⟩
      · exact ⟨c :: before, after, rfl, hstarts, hends⟩
    · rintro ⟨before, after, htext, hstarts, hends⟩
      cases before with
      | nil => exact .inl ⟨hstarts, after, htext, hends⟩
      | cons d before =>
        obtain ⟨rfl, hrest⟩ := List.cons.inj htext
        exact .inr ⟨before, after, hrest, hstarts, hends⟩

/-- A segment of a dotted name. -/
structure IsSegment (segment : String) : Prop where
  /-- It is not empty. -/
  ne_empty : segment ≠ ""
  /-- It has word characters only. -/
  isWord : ∀ c ∈ segment.toList, Text.isWord c = true

private theorem IsSegment.no_dot {segment : String} (h : IsSegment segment) :
    '.' ∉ segment.toList :=
  fun hmem => absurd (h.isWord '.' hmem) (by decide)

/-- A name of one or more segments. -/
structure DottedName where
  segments : List String
  ne_nil : segments ≠ []
  isSegment : ∀ s ∈ segments, IsSegment s

namespace DottedName

variable (n : DottedName)

/-- The segments joined by dots. -/
def text : String := ".".intercalate n.segments

private theorem toList_text : n.text.toList = ['.'].intercalate (n.segments.map String.toList) :=
  String.toList_intercalate

/-- Splitting the text at the dots gives the segments back. -/
theorem splitOn_text : n.text.toList.splitOn '.' = n.segments.map String.toList := by
  rw [toList_text, List.splitOn_intercalate]
  · intro cs hcs
    obtain ⟨s, hs, rfl⟩ := List.mem_map.mp hcs
    exact (n.isSegment s hs).no_dot
  · simpa using n.ne_nil

private theorem text_isEmpty : n.text.isEmpty = false := by
  rw [Bool.eq_false_iff, Ne, String.isEmpty_iff]
  intro hempty
  have hsplit := n.splitOn_text
  rw [hempty, String.toList_empty, List.splitOn_nil] at hsplit
  obtain ⟨s, hs, hnil⟩ := List.mem_map.mp (hsplit ▸ List.mem_singleton_self [])
  exact (n.isSegment s hs).ne_empty (String.toList_eq_nil_iff.mp hnil)

/-- The text has word characters and dots only. -/
theorem isWord_or_dot {c : Char} (hc : c ∈ n.text.toList) : Text.isWord c = true ∨ c = '.' := by
  rw [toList_text] at hc
  have hsegments := n.isSegment
  generalize n.segments = segments at hc hsegments
  induction segments with
  | nil => cases hc
  | cons s rest ih =>
    rw [List.forall_mem_cons] at hsegments
    cases rest with
    | nil =>
      rw [List.map_singleton, List.intercalate_singleton] at hc
      exact .inl (hsegments.1.isWord c hc)
    | cons next rest =>
      rw [List.map_cons, List.map_cons, List.intercalate_cons_cons, List.mem_append,
        List.mem_append, List.mem_singleton] at hc
      rcases hc with (hc | hc) | hc
      · exact .inl (hsegments.1.isWord c hc)
      · exact .inr hc
      · exact ih hc hsegments.2

/-- Behind the name nothing can follow. -/
private theorem eq_nil_of_endsName {before after : List Char} (h : n.text.toList = before ++ after)
    (hends : endsName after = true) : after = [] := by
  cases after with
  | nil => rfl
  | cons c after =>
    have hc : c ∈ n.text.toList := h ▸ List.mem_append_right _ List.mem_cons_self
    rcases n.isWord_or_dot hc with hword | rfl
    · simp [endsName, hword] at hends
    · simp [endsName] at hends

/-- In front of the name stands nothing or a dot. -/
private theorem eq_nil_or_dot_of_startsName {before after : List Char}
    (h : n.text.toList = before ++ after) (hstarts : startsName true before = true) :
    before = [] ∨ ∃ front, before = front ++ ['.'] := by
  rcases List.eq_nil_or_concat' before with rfl | ⟨front, c, rfl⟩
  · exact .inl rfl
  · have hc : c ∈ n.text.toList := by simp [h]
    rw [startsName_concat] at hstarts
    rcases n.isWord_or_dot hc with hword | rfl
    · simp [hword] at hstarts
    · exact .inr ⟨front, rfl⟩

/-- Within a dotted name another one stands at the end, before it nothing or a dot. -/
theorem nameWithin_text_iff (t : DottedName) :
    nameWithin n.text.toList true t.text.toList = true ↔
      t.text.toList = n.text.toList ∨
        ∃ front, t.text.toList = front ++ '.' :: n.text.toList := by
  rw [nameWithin_iff]
  constructor
  · rintro ⟨before, after, htext, hstarts, hends⟩
    have hafter : after = [] := t.eq_nil_of_endsName (by rw [htext, ← List.append_assoc]) hends
    rw [hafter, List.append_nil] at htext
    rcases t.eq_nil_or_dot_of_startsName htext hstarts with rfl | ⟨front, rfl⟩
    · exact .inl htext
    · exact .inr ⟨front, by rw [htext, List.append_assoc, List.singleton_append]⟩
  · rintro (htext | ⟨front, htext⟩)
    · exact ⟨[], [], by rw [htext, List.append_nil, List.nil_append], rfl, rfl⟩
    · refine ⟨front ++ ['.'], [], ?_, ?_, rfl⟩
      · rw [htext, List.append_assoc, List.append_nil, List.singleton_append]
      · rw [startsName_concat]
        decide

/-- The last segments of a name follow its head or a dot. -/
theorem suffix_segments_iff (t : DottedName) :
    n.segments <:+ t.segments ↔ t.text.toList = n.text.toList ∨
      ∃ front, t.text.toList = front ++ '.' :: n.text.toList := by
  constructor
  · rintro ⟨front, hsegments⟩
    by_cases hfront : front = []
    · rw [hfront, List.nil_append] at hsegments
      exact .inl (by rw [text, text, hsegments])
    · refine .inr ⟨(".".intercalate front).toList, ?_⟩
      rw [text, ← hsegments, String.intercalate_append_of_ne_nil hfront n.ne_nil, ← text,
        String.toList_append, String.toList_append, List.append_assoc]
      rfl
  · intro htext
    -- cutting both texts at their dots turns the equation into one of segments
    have hmap : n.segments.map String.toList <:+ t.segments.map String.toList := by
      rw [← splitOn_text, ← splitOn_text]
      rcases htext with htext | ⟨front, htext⟩
      · simp only [htext, List.suffix_rfl]
      · rw [htext, List.splitOn_append_cons_self]
        exact List.suffix_append _ _
    obtain ⟨front, hfront⟩ := hmap
    obtain ⟨before, after, hsplit, -, hafter⟩ := List.map_eq_append_iff.mp hfront.symm
    have hinj : Function.Injective String.toList := fun _ _ => String.toList_inj.mp
    rw [hsplit, hinj.list_map hafter]
    exact List.suffix_append _ _

end DottedName

/-- A type name matches a qualified name exactly if the segments of the qualified name are its last
segments. -/
theorem qualnameMatches_iff_segments (t n : DottedName) :
    qualnameMatches t.text n.text = true ↔ n.segments <:+ t.segments := by
  rw [DottedName.suffix_segments_iff, ← DottedName.nameWithin_text_iff, qualnameMatches,
    t.text_isEmpty, n.text_isEmpty, Bool.or_self, if_neg (by simp), Bool.or_eq_true, beq_iff_eq,
    or_iff_right_iff_imp]
  intro heq
  exact (n.nameWithin_text_iff t).mpr (.inl (by rw [heq]))

example : qualnameMatches "lib.context.Context" "context.Context" = true ∧
    qualnameMatches "mycontext.Context" "context.Context" = false := by decide +kernel

end ContextLint.Typing
