import Mathlib.Data.List.Basic
import Mathlib.Data.List.TakeWhile
import ContextLint.Text.Lines

/-!
# Lines with their ends

A text is divided into lines by the characters that end a line, where a carriage return and a line
feed behind it are one end. These two alone end the lines of a source text, more characters those of
a display text, so every line of a source text is one or more lines of the display text. Up to a
line, the two rules count the same if no other end stands above it.
-/

namespace ContextLint.Text

/-- A line and what ends it; the last line of a text may have no end. -/
structure Line where
  /-- The characters before the end. -/
  text : List Char
  /-- The end. -/
  ending : List Char
  deriving DecidableEq, Repr

/-- The line with its end. -/
def Line.whole (l : Line) : List Char := l.text ++ l.ending

/-- Put a character before the first line. -/
def putFront (c : Char) : List Line → List Line
  | [] => [⟨[c], []⟩]
  | l :: rest => ⟨c :: l.text, l.ending⟩ :: rest

/-- The lines of a text, where the given characters end a line. -/
def linesBy (ends : Char → Bool) : List Char → List Line
  | [] => []
  | '\r' :: '\n' :: rest => ⟨[], ['\r', '\n']⟩ :: linesBy ends rest
  | c :: rest =>
    if ends c then ⟨[], [c]⟩ :: linesBy ends rest else putFront c (linesBy ends rest)

/-- A character that ends a line of source text. -/
def isNewline (c : Char) : Bool := c == '\n' || c == '\r'

/-- The lines of a source text. -/
def sourceLines (cs : List Char) : List Line := linesBy isNewline cs

/-- The lines of a display text. -/
def displayLines (cs : List Char) : List Line := linesBy isLineBreak cs

variable {c : Char} {l : Line} {cs : List Char}

section

variable {ends : Char → Bool}

private theorem linesBy_cons (hc : c ≠ '\r') (rest : List Char) :
    linesBy ends (c :: rest) =
      if ends c then ⟨[], [c]⟩ :: linesBy ends rest else putFront c (linesBy ends rest) := by
  rw [linesBy]
  rintro _ rfl
  exact absurd rfl hc

private theorem flatMap_whole_putFront (c : Char) (ls : List Line) :
    (putFront c ls).flatMap Line.whole = c :: ls.flatMap Line.whole := by
  cases ls <;> simp [putFront, Line.whole]

/-- The lines with their ends are the text. -/
theorem flatMap_whole_linesBy (ends : Char → Bool) (cs : List Char) :
    (linesBy ends cs).flatMap Line.whole = cs := by
  fun_induction linesBy ends cs with
  | case1 => rfl
  | case2 rest ih | case3 c rest _ _ ih => rw [List.flatMap_cons, ih, Line.whole]; rfl
  | case4 c rest _ _ ih => rw [flatMap_whole_putFront, ih]

/-- What a line can be. -/
structure Line.Valid (ends : Char → Bool) (l : Line) : Prop where
  /-- There is a character in it. -/
  ne_nil : l.whole ≠ []
  /-- None before the end ends a line. -/
  text : ∀ c ∈ l.text, ends c = false
  /-- The end, if there is one, is a single character or the pair. -/
  ending : l.ending = [] ∨ l.ending = ['\r', '\n'] ∨ ∃ c, ends c = true ∧ l.ending = [c]

private theorem Line.Valid.cons (h : l.Valid ends) (hc : ends c = false) :
    Line.Valid ends ⟨c :: l.text, l.ending⟩ where
  ne_nil := List.cons_ne_nil _ _
  text := List.forall_mem_cons.mpr ⟨hc, h.text⟩
  ending := h.ending

/-- All lines are valid. -/
theorem valid_of_mem_linesBy : ∀ l ∈ linesBy ends cs, l.Valid ends := by
  fun_induction linesBy ends cs with
  | case1 => simp
  | case2 rest ih =>
    refine List.forall_mem_cons.mpr ⟨⟨?_, ?_, .inr (.inl rfl)⟩, ih⟩ <;> simp [Line.whole]
  | case3 c rest _ hc ih =>
    refine List.forall_mem_cons.mpr ⟨⟨?_, ?_, .inr (.inr ⟨c, hc, rfl⟩)⟩, ih⟩ <;>
      simp [Line.whole]
  | case4 c rest _ hc ih =>
    have hend : ends c = false := by simpa using hc
    cases hrest : linesBy ends rest with
    | nil =>
      simp only [putFront, List.forall_mem_singleton]
      exact ⟨List.cons_ne_nil _ _, by simpa using hend, .inl rfl⟩
    | cons l more =>
      rw [hrest, List.forall_mem_cons] at ih
      exact List.forall_mem_cons.mpr ⟨ih.1.cons hend, ih.2⟩

/-- A line with another one behind it has an end. -/
theorem pairwise_ending (ends : Char → Bool) (cs : List Char) :
    (linesBy ends cs).Pairwise fun l _ => l.ending ≠ [] := by
  fun_induction linesBy ends cs with
  | case1 => exact .nil
  | case2 rest ih | case3 c rest _ _ ih => exact .cons (fun _ _ => List.cons_ne_nil _ _) ih
  | case4 c rest _ _ ih =>
    cases hrest : linesBy ends rest with
    | nil => exact List.pairwise_singleton _ _
    | cons l more =>
      rw [hrest, List.pairwise_cons] at ih
      exact .cons ih.1 ih.2

end

private theorem foldl_putFront (front : List Char) (l : Line) (rest : List Line) :
    front.foldl (fun ls c => putFront c ls) (l :: rest) =
      ⟨front.reverse ++ l.text, l.ending⟩ :: rest := by
  induction front generalizing l with
  | nil => rfl
  | cons c front ih => rw [List.foldl_cons, putFront, ih, List.reverse_cons, List.append_assoc]; rfl

private theorem splitLinesOnto_eq (done : List (List Char)) (current cs : List Char) :
    splitLinesOnto done current cs = done.reverse ++
      (current.foldl (fun ls c => putFront c ls) (displayLines cs)).map Line.text := by
  unfold displayLines
  fun_induction splitLinesOnto done current cs with
  | case1 done current =>
    cases current with
    | nil => simp [linesBy]
    | cons c front =>
      rw [linesBy, List.foldl_cons, putFront, foldl_putFront]
      simp
  | case2 done current rest ih =>
    rw [ih, linesBy, foldl_putFront]
    simp
  | case3 done current c rest hpair hc ih =>
    rw [ih, linesBy, if_pos hc, foldl_putFront]
    · simp
    · exact hpair
  | case4 done current c rest hpair hc ih =>
    rw [ih, linesBy, if_neg hc]
    · rfl
    · exact hpair

/-- Splitting a display text gives its lines without their ends. -/
theorem splitLines_eq (cs : List Char) : splitLines cs = (displayLines cs).map Line.text :=
  splitLinesOnto_eq [] [] cs

/-- The lines of a display text with their ends. -/
def wholeLines (cs : List Char) : List (List Char) := (displayLines cs).map Line.whole

/-- A text is made of its lines and their ends. -/
theorem flatten_wholeLines (cs : List Char) : (wholeLines cs).flatten = cs := by
  rw [wholeLines, ← List.flatMap_def]
  exact flatMap_whole_linesBy isLineBreak cs

/-- The line with a line feed in the place of its end. -/
def Line.unified (l : Line) : List Char := l.text ++ if l.ending = [] then [] else ['\n']

private theorem flatMap_unified_putFront (c : Char) (ls : List Line) :
    (putFront c ls).flatMap Line.unified = c :: ls.flatMap Line.unified := by
  cases ls <;> simp [putFront, Line.unified]

private theorem unifyNewlinesOnto_eq (done cs : List Char) :
    unifyNewlinesOnto done cs = done.reverse ++ (sourceLines cs).flatMap Line.unified := by
  unfold sourceLines
  fun_induction unifyNewlinesOnto done cs with
  | case1 done => simp [linesBy]
  | case2 done rest ih =>
    rw [ih, linesBy]
    simp [Line.unified]
  | case3 done rest hpair ih =>
    rw [ih, linesBy, if_pos (by decide)]
    · simp [Line.unified]
    · intro rest' _ hrest
      exact hpair rest' hrest
  | case4 done c rest _ hreturn ih =>
    have hc : c ≠ '\r' := fun heq => hreturn heq
    rw [ih, linesBy_cons hc]
    by_cases hfeed : c = '\n'
    · subst hfeed
      simp [isNewline, Line.unified]
    · rw [if_neg (by simp [isNewline, hc, hfeed]), flatMap_unified_putFront]
      simp

/-- Unifying newlines puts a line feed in the place of every end of a source line. -/
theorem unifyNewlines_eq (cs : List Char) :
    unifyNewlines cs = (sourceLines cs).flatMap Line.unified :=
  unifyNewlinesOnto_eq [] cs

/-- Unifying newlines makes no text longer. -/
theorem length_unifyNewlines_le (cs : List Char) : (unifyNewlines cs).length ≤ cs.length := by
  have hline (l : Line) : l.unified.length ≤ l.whole.length := by
    rw [Line.unified, Line.whole, List.length_append, List.length_append]
    split
    · exact Nat.add_le_add_left (Nat.zero_le _) _
    · next hending => exact Nat.add_le_add_left (List.length_pos_iff.mpr hending) _
  have hlines (ls : List Line) :
      (ls.flatMap Line.unified).length ≤ (ls.flatMap Line.whole).length := by
    induction ls with
    | nil => exact Nat.le_refl _
    | cons l ls ih =>
      rw [List.flatMap_cons, List.flatMap_cons, List.length_append, List.length_append]
      exact Nat.add_le_add (hline l) ih
  calc (unifyNewlines cs).length
      = ((sourceLines cs).flatMap Line.unified).length := by rw [unifyNewlines_eq]
    _ ≤ ((sourceLines cs).flatMap Line.whole).length := hlines _
    _ = cs.length := by rw [sourceLines, flatMap_whole_linesBy]

/-- A text without carriage returns is not changed. -/
theorem unifyNewlines_of_no_return (h : '\r' ∉ cs) : unifyNewlines cs = cs := by
  have hwhole := flatMap_whole_linesBy isNewline cs
  rw [unifyNewlines_eq]
  refine Eq.trans (List.flatMap_congr ?_) hwhole
  intro l hl
  have hno : '\r' ∉ l.whole := by
    intro hmem
    rw [← hwhole] at h
    exact h (List.mem_flatMap.mpr ⟨l, hl, hmem⟩)
  rw [Line.whole, List.mem_append, not_or] at hno
  rw [Line.unified, Line.whole]
  rcases (valid_of_mem_linesBy l hl).ending with hending | hending | ⟨c, hc, hending⟩
  · rw [hending, if_pos rfl]
  · rw [hending] at hno
    exact absurd List.mem_cons_self hno.2
  · rw [hending] at hno ⊢
    have hfeed : c = '\n' := by
      rw [isNewline, Bool.or_eq_true, beq_iff_eq, beq_iff_eq] at hc
      refine hc.resolve_right ?_
      rintro rfl
      exact hno.2 List.mem_cons_self
    rw [if_neg (List.cons_ne_nil _ _), hfeed]

private theorem isLineBreak_of_isNewline (h : isNewline c = true) : isLineBreak c = true := by
  rw [isNewline, Bool.or_eq_true, beq_iff_eq, beq_iff_eq] at h
  rcases h with rfl | rfl <;> decide

private theorem ne_return_of_not_isNewline (h : isNewline c = false) : c ≠ '\r' := by
  rintro rfl
  exact absurd h (by decide)

private theorem displayLines_cons (hc : isNewline c = false) (rest : List Char) :
    displayLines (c :: rest) =
      if isLineBreak c then ⟨[], [c]⟩ :: displayLines rest else putFront c (displayLines rest) :=
  linesBy_cons (ne_return_of_not_isNewline hc) rest

private theorem displayLines_ne_nil (h : cs ≠ []) : displayLines cs ≠ [] := by
  intro hnil
  have hwhole := flatMap_whole_linesBy isLineBreak cs
  rw [← displayLines, hnil] at hwhole
  exact h hwhole.symm

private theorem putFront_append {ls : List Line} (h : ls ≠ []) (c : Char) (more : List Line) :
    putFront c (ls ++ more) = putFront c ls ++ more := by
  obtain ⟨l, rest, rfl⟩ := List.exists_cons_of_ne_nil h
  rfl

/-- Each line of a source text is divided into lines of the display text. -/
theorem displayLines_eq_flatMap (cs : List Char) :
    displayLines cs = (sourceLines cs).flatMap fun l => displayLines l.whole := by
  unfold sourceLines
  fun_induction linesBy isNewline cs with
  | case1 => rfl
  | case2 rest ih =>
    rw [List.flatMap_cons, ← ih]
    rfl
  | case3 c rest hpair hc ih =>
    have hbreak := isLineBreak_of_isNewline hc
    rw [List.flatMap_cons, ← ih, displayLines, linesBy, if_pos hbreak]
    · simp [Line.whole, displayLines, linesBy, hbreak]
    · exact hpair
  | case4 c rest _ hc ih =>
    have hnewline : isNewline c = false := by simpa using hc
    -- The character goes to the first display line of the first source line.
    rw [displayLines_cons hnewline, ih]
    cases hrest : linesBy isNewline rest with
    | nil =>
      simp only [putFront, List.flatMap_nil, List.flatMap_singleton, Line.whole, List.append_nil]
      rw [displayLines_cons hnewline]
      rfl
    | cons l more =>
      have hvalid := valid_of_mem_linesBy l (hrest ▸ List.mem_cons_self)
      have hne := displayLines_ne_nil hvalid.ne_nil
      simp only [putFront, List.flatMap_cons, Line.whole, List.cons_append]
      rw [displayLines_cons hnewline]
      split
      · rfl
      · exact putFront_append hne _ _

/-- The characters of a line that end a line of display text only. -/
def Line.breaks (l : Line) : Nat := l.text.countP isLineBreak

/-- The start of a line up to the first character that ends a line of display text. -/
def Line.front (l : Line) : List Char := l.text.takeWhile fun c => !isLineBreak c

/-- Without breaks the front is the whole line. -/
theorem Line.front_of_no_breaks (h : l.breaks = 0) : l.front = l.text := by
  rw [Line.breaks, List.countP_eq_zero] at h
  exact List.takeWhile_eq_self_iff.mpr fun c hc => by simpa using h c hc

/-- The end of a line is a display line of its own. -/
theorem displayLines_ending (h : l.Valid isNewline) (hend : l.ending ≠ []) :
    displayLines l.ending = [⟨[], l.ending⟩] := by
  rcases h.ending with hnil | hpair | ⟨c, hc, hsingle⟩
  · exact absurd hnil hend
  · rw [hpair]
    rfl
  · have hbreak := isLineBreak_of_isNewline hc
    rw [hsingle]
    simp [displayLines, linesBy, hbreak]

/-- A line shows its front first. -/
theorem head_displayLines (h : l.Valid isNewline) :
    (displayLines l.whole).head?.map Line.text = some l.front := by
  have hending := displayLines_ending h
  obtain ⟨text, ending⟩ := l
  obtain ⟨hne, htext, -⟩ := h
  dsimp only [Line.whole, Line.front] at *
  induction text with
  | nil =>
    rw [List.nil_append] at hne ⊢
    rw [hending hne]
    rfl
  | cons c text ih =>
    rw [List.forall_mem_cons] at htext
    rw [List.cons_append, displayLines_cons htext.1]
    cases hc : isLineBreak c with
    | true => simp [hc]
    | false =>
      rw [if_neg Bool.false_ne_true, List.takeWhile_cons_of_pos (by simp [hc])]
      by_cases hrest : text ++ ending = []
      · obtain ⟨rfl, rfl⟩ := List.append_eq_nil_iff.mp hrest
        rfl
      · have hhead := ih hrest htext.2
        obtain ⟨l, rest, hlines⟩ := List.exists_cons_of_ne_nil (displayLines_ne_nil hrest)
        rw [hlines, List.head?_cons, Option.map_some, Option.some_inj] at hhead
        rw [hlines, putFront, List.head?_cons, Option.map_some, hhead]

/-- A line with an end is as many display lines as there are breaks in it, and one more. -/
theorem length_displayLines (h : l.Valid isNewline) (hend : l.ending ≠ []) :
    (displayLines l.whole).length = l.breaks + 1 := by
  have hending := displayLines_ending h hend
  obtain ⟨text, ending⟩ := l
  obtain ⟨-, htext, -⟩ := h
  dsimp only [Line.whole, Line.breaks] at *
  induction text with
  | nil =>
    rw [List.nil_append, hending]
    rfl
  | cons c text ih =>
    rw [List.forall_mem_cons] at htext
    have hrest := ih htext.2
    rw [List.cons_append, displayLines_cons htext.1]
    cases hc : isLineBreak c with
    | true =>
      rw [if_pos rfl, List.length_cons, hrest, List.countP_cons_of_pos hc]
    | false =>
      have hne : text ++ ending ≠ [] := by simp [hend]
      obtain ⟨l, rest, hlines⟩ := List.exists_cons_of_ne_nil (displayLines_ne_nil hne)
      rw [hlines, List.length_cons] at hrest
      rw [if_neg Bool.false_ne_true, hlines, putFront, List.length_cons, hrest,
        List.countP_cons_of_neg (by simp [hc])]

/-- The breaks in several lines. -/
def breaksIn : List Line → Nat
  | [] => 0
  | l :: ls => l.breaks + breaksIn ls

section

variable {cs : List Char} {above below : List Line} {l : Line}

/-- The lines above a line are as many display lines as they and the breaks in them are. -/
theorem length_displayLines_above (h : sourceLines cs = above ++ l :: below) :
    (above.flatMap fun a => displayLines a.whole).length = above.length + breaksIn above := by
  have hends : ∀ a ∈ above, a.ending ≠ [] := by
    have hpairs := pairwise_ending isNewline cs
    rw [← sourceLines, h, List.pairwise_append] at hpairs
    exact fun a ha => hpairs.2.2 a ha l List.mem_cons_self
  have hvalid : ∀ a ∈ above, a.Valid isNewline := by
    intro a ha
    apply valid_of_mem_linesBy
    rw [← sourceLines, h]
    exact List.mem_append_left _ ha
  clear h
  induction above with
  | nil => rfl
  | cons a above ih =>
    rw [List.forall_mem_cons] at hends hvalid
    have hrest := ih hends.2 hvalid.2
    have hfirst := length_displayLines hvalid.1 hends.1
    rw [List.flatMap_cons, List.length_append, hrest, hfirst, List.length_cons, breaksIn]
    omega

/-- If no break stands above a line, the display line of its number is the line's front. -/
theorem splitLines_of_no_breaks (h : sourceLines cs = above ++ l :: below)
    (hbreaks : breaksIn above = 0) : (splitLines cs)[above.length]? = some l.front := by
  have hvalid : l.Valid isNewline := by
    apply valid_of_mem_linesBy
    rw [← sourceLines, h]
    exact List.mem_append_right _ List.mem_cons_self
  have hlength := length_displayLines_above h
  rw [hbreaks, Nat.add_zero] at hlength
  obtain ⟨first, rest, hlines⟩ := List.exists_cons_of_ne_nil (displayLines_ne_nil hvalid.ne_nil)
  have hhead := head_displayLines hvalid
  rw [hlines, List.head?_cons, Option.map_some] at hhead
  rw [splitLines_eq, displayLines_eq_flatMap, h, List.flatMap_append, List.flatMap_cons, hlines,
    List.getElem?_map, ← hlength, List.getElem?_append_right (Nat.le_refl _), Nat.sub_self]
  exact hhead

/-- If a break stands above a line, the display line of its number is a part of a line above. -/
theorem splitLines_of_breaks (h : sourceLines cs = above ++ l :: below)
    (hbreaks : breaksIn above ≠ 0) :
    ∃ a ∈ above, ∃ part ∈ displayLines a.whole,
      (splitLines cs)[above.length]? = some part.text := by
  have hlength := length_displayLines_above h
  have hindex : above.length < (above.flatMap fun a => displayLines a.whole).length := by omega
  have hmem := List.getElem_mem hindex
  obtain ⟨a, ha, hpart⟩ := List.mem_flatMap.mp hmem
  refine ⟨a, ha, _, hpart, ?_⟩
  rw [splitLines_eq, displayLines_eq_flatMap, h, List.flatMap_append, List.getElem?_map,
    List.getElem?_append_left hindex, List.getElem?_eq_getElem hindex, Option.map_some]

end

end ContextLint.Text
