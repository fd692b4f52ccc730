import ContextLint.Report.Markdown
import ContextLint.Text.Identifier
import ContextLint.Text.Lines

/-!
# Cells of table rows

A bar divides the cells of a row unless it stands behind an odd number of backslashes. The text of a
cell gets a backslash before each bar, but backslashes stay as they are: a bar that was escaped
already then divides the cell. Without such bars the row of a diagnostic has its four cells.
-/

namespace ContextLint.Report

open Text

/-- The cells of a text behind a number of backslashes. -/
def cellsBehind : Nat → List Char → List (List Char)
  | _, [] => [[]]
  | slashes, c :: rest =>
    if c = '|' ∧ slashes % 2 = 0 then [] :: cellsBehind 0 rest
    else (cellsBehind (if c = '\\' then slashes + 1 else 0) rest).modifyHead (c :: ·)

/-- The cells of a row, which starts and ends with a bar. -/
def cells (row : String) : List String :=
  ((cellsBehind 0 row.toList).tail.dropLast).map String.ofList

/-- The number of bars behind an odd number of backslashes. -/
def escapedBars : Nat → List Char → Nat
  | _, [] => 0
  | slashes, c :: rest =>
    if c = '|' then slashes % 2 + escapedBars 0 rest
    else escapedBars (if c = '\\' then slashes + 1 else 0) rest

/-- A cell without bars ends at the bar behind its last blank. -/
theorem cellsBehind_plain {cs : List Char} (h : '|' ∉ cs) (slashes : Nat) (rest : List Char) :
    cellsBehind slashes (cs ++ ' ' :: '|' :: rest) = (cs ++ [' ']) :: cellsBehind 0 rest := by
  induction cs generalizing slashes with
  | nil => simp [cellsBehind]
  | cons c cs ih =>
    rw [List.mem_cons, not_or] at h
    simp [cellsBehind, Ne.symm h.1, ih h.2]

/-- Any character but a bar stays a single one, and the backslashes are the same as before. -/
theorem cellChar_of_ne_bar {c : Char} (h : c ≠ '|') :
    ∃ x, cellChar c = [x] ∧ x ≠ '|' ∧ (x = '\\' ↔ c = '\\') := by
  by_cases htick : c = '`'
  · exact ⟨'\'', by simp [cellChar, htick], by decide, by simp [htick]⟩
  · exact ⟨c, by simp [cellChar, h, htick], h, Iff.rfl⟩

/-- Escaped code is divided at the bars that were escaped before. -/
theorem cellsBehind_cell (cs : List Char) (slashes : Nat) (rest : List Char) :
    (cellsBehind slashes (cs.flatMap cellChar ++ '`' :: rest)).length =
        escapedBars slashes cs + (cellsBehind 0 rest).length ∧
      (escapedBars slashes cs = 0 → cellsBehind slashes (cs.flatMap cellChar ++ '`' :: rest) =
        (cellsBehind 0 rest).modifyHead (cs.flatMap cellChar ++ '`' :: ·)) := by
  induction cs generalizing slashes with
  | nil => simp [cellsBehind, escapedBars]
  | cons c cs ih =>
    by_cases hbar : c = '|'
    · obtain ⟨hlength, hcells⟩ := ih 0
      -- The backslash before the bar turns the parity around.
      obtain h | h := Nat.mod_two_eq_zero_or_one slashes
      · have hnext : (slashes + 1) % 2 = 1 := by omega
        simp +contextual [hbar, cellChar, cellsBehind, escapedBars, h, hnext, hlength, hcells,
          Function.comp_def]
      · have hnext : (slashes + 1) % 2 = 0 := by omega
        simp [hbar, cellChar, cellsBehind, escapedBars, h, hnext, hlength]
        omega
    · obtain ⟨x, hx, hxbar, hslash⟩ := cellChar_of_ne_bar hbar
      obtain ⟨hlength, hcells⟩ := ih (if c = '\\' then slashes + 1 else 0)
      simp +contextual [hx, cellsBehind, escapedBars, hbar, hxbar, hslash, hlength, hcells,
        Function.comp_def]

private theorem mem_cellChar {c x : Char} (h : c ∈ cellChar x) :
    c ≠ '`' ∧ (c = x ∨ isLineBreak c = false) := by
  by_cases hbar : x = '|'
  · obtain rfl | rfl : c = '\\' ∨ c = '|' := by simpa [cellChar, hbar] using h
    all_goals exact ⟨by decide, .inr (by decide)⟩
  · by_cases htick : x = '`'
    · obtain rfl : c = '\'' := by simpa [cellChar, htick] using h
      exact ⟨by decide, .inr (by decide)⟩
    · obtain rfl : c = x := by simpa [cellChar, hbar, htick] using h
      exact ⟨htick, .inl rfl⟩

private theorem tick_notMem_cell (text : String) : '`' ∉ (cell text).toList := by
  rw [cell, String.toList_ofList, List.mem_flatMap]
  rintro ⟨x, -, hx⟩
  exact (mem_cellChar hx).1 rfl

private theorem oneLine_cell {cs : List Char} (h : cs.any isLineBreak = false) :
    (cs.flatMap cellChar).any isLineBreak = false := by
  rw [List.any_eq_false] at h ⊢
  intro c hc
  obtain ⟨x, hx, hc⟩ := List.mem_flatMap.mp hc
  obtain rfl | hplain := (mem_cellChar hc).2
  · exact h c hx
  · simp [hplain]

/-- A character at which a line or a cell may end. -/
def isEdge (c : Char) : Bool := c == '|' || isLineBreak c

private theorem any_isEdge {cs : List Char} (h : cs.any isEdge = false) :
    '|' ∉ cs ∧ cs.any isLineBreak = false := by
  have hplain := List.any_eq_false.mp h
  refine ⟨fun hbar => hplain _ hbar rfl, List.any_eq_false.mpr fun c hc hbreak => ?_⟩
  exact hplain c hc (by simp [isEdge, hbreak])

/-- The characters of identifiers and numbers end neither. -/
theorem isEdge_eq_false {c : Char} (h : isIdentifierStart c = true ∨ isIdentifierPart c = true ∨
    c.isDigit = true ∨ c = '-') : ¬ isEdge c = true := by
  intro hedge
  have hcode : c.toNat ∈ [124, 10, 11, 12, 13, 28, 29, 30, 0x85, 0x2028, 0x2029] := by
    simp only [isEdge, isLineBreak, Bool.or_eq_true, Bool.and_eq_true, decide_eq_true_eq,
      beq_iff_eq] at hedge
    obtain rfl | hbreak := hedge
    · decide
    · simp only [List.mem_cons, List.not_mem_nil]
      omega
  rw [← Char.ofNat_toNat c] at h
  revert h
  generalize c.toNat = n at hcode
  revert n
  decide +kernel

private theorem any_isEdge_repr (z : Int) : z.repr.toList.any isEdge = false := by
  have hdigits (n : Nat) : n.repr.toList.any isEdge = false := by
    rw [Nat.toList_repr, List.any_eq_false]
    intro c hc
    have hdigit := Nat.isDigit_of_mem_toDigits (by decide) (by decide) hc
    exact isEdge_eq_false (.inr (.inr (.inl hdigit)))
  rw [Int.repr_eq_if]
  split
  · exact hdigits _
  · rw [String.toList_append, List.any_append, hdigits]
    decide

private theorem any_isEdge_identifier {cs : List Char} (h : isIdentifier cs = true) :
    cs.any isEdge = false := by
  cases cs with
  | nil => rfl
  | cons c cs =>
    rw [isIdentifier, Bool.and_eq_true, List.all_eq_true] at h
    rw [List.any_eq_false, List.forall_mem_cons]
    exact ⟨isEdge_eq_false (.inl h.1), fun d hd => isEdge_eq_false (.inr (.inl (h.2 d hd)))⟩

private theorem toList_row (d : Diagnostic) : (row d).toList = '|' ::
    ((' ' :: d.line.repr.toList) ++ ' ' :: '|' :: ((' ' :: d.column.repr.toList) ++ ' ' :: '|' ::
    ((' ' :: '`' :: (d.method.toList ++ ['(', ')', '`'])) ++ ' ' :: '|' :: ' ' :: '`' ::
    (d.snippet.toList.flatMap cellChar ++ '`' :: [' ', '|'])))) := by
  simp [row, code, cell]

private theorem cellsBehind_row {d : Diagnostic} (hmethod : isIdentifier d.method.toList = true) :
    cellsBehind 0 (row d).toList = [] :: (" " ++ toString d.line ++ " ").toList ::
      (" " ++ toString d.column ++ " ").toList :: (" " ++ code (d.method ++ "()") ++ " ").toList ::
      (cellsBehind 0 (d.snippet.toList.flatMap cellChar ++ '`' :: [' ', '|'])).modifyHead
        (' ' :: '`' :: ·) := by
  rw [toList_row, cellsBehind, cellsBehind_plain, cellsBehind_plain, cellsBehind_plain]
  · simp [cellsBehind, code, Function.comp_def]
  · simp [(any_isEdge (any_isEdge_identifier hmethod)).1]
  · simp [(any_isEdge (any_isEdge_repr d.column)).1]
  · simp [(any_isEdge (any_isEdge_repr d.line)).1]

/-- The row of a diagnostic is one line. It has four cells and one more for each bar of the snippet
that stands behind an odd number of backslashes; if there is none, the last cell is the snippet, and
no backtick stands in it. -/
theorem row_divided_at_escaped_bars (d : Diagnostic) (hmethod : isIdentifier d.method.toList = true)
    (hsnippet : d.snippet.toList.any isLineBreak = false) :
    (row d).toList.any isLineBreak = false ∧
    (cells (row d)).length = 4 + escapedBars 0 d.snippet.toList ∧
    (escapedBars 0 d.snippet.toList = 0 → cells (row d) =
      [" " ++ toString d.line ++ " ", " " ++ toString d.column ++ " ",
        " " ++ code (d.method ++ "()") ++ " ", " " ++ code (cell d.snippet) ++ " "]) ∧
    '`' ∉ (cell d.snippet).toList := by
  obtain ⟨hlength, hwhole⟩ := cellsBehind_cell d.snippet.toList 0 [' ', '|']
  have hend : cellsBehind 0 [' ', '|'] = [[' '], []] := by decide
  refine ⟨?_, ?_, ?_, tick_notMem_cell _⟩
  · simp only [toList_row, List.any_cons, List.any_append, oneLine_cell hsnippet,
      (any_isEdge (any_isEdge_repr _)).2, (any_isEdge (any_isEdge_identifier hmethod)).2]
    decide
  · simp only [cells, cellsBehind_row hmethod, List.length_map, List.length_dropLast,
      List.tail_cons, List.length_cons, List.length_modifyHead, hlength, hend, List.length_nil]
    omega
  · intro hnone
    have hlast : ' ' :: '`' :: (d.snippet.toList.flatMap cellChar ++ ['`', ' ']) =
        (" " ++ code (cell d.snippet) ++ " ").toList := by simp [code, cell]
    rw [cells, cellsBehind_row hmethod, hwhole hnone, hend, List.modifyHead_cons,
      List.modifyHead_cons, hlast]
    simp only [List.tail_cons, List.dropLast_cons_cons, List.dropLast_singleton, List.map_cons,
      List.map_nil, String.ofList_toList]

/-- A diagnostic with a snippet. -/
def snippetDiagnostic (snippet : String) : Diagnostic :=
  ⟨"a.py", 1, 1, "logctx", "msg", [], snippet⟩

/-- A bar that is not escaped stays in its cell. -/
theorem bar_kept_in_cell : (cells (row (snippetDiagnostic "log.info().msg(\"a|b\")"))).length = 4 :=
  (row_divided_at_escaped_bars (snippetDiagnostic "log.info().msg(\"a|b\")") (by decide +kernel)
    (by decide +kernel)).2.1

/-- A bar that the code has escaped divides its cell. -/
theorem escaped_bar_divides_cell :
    let d := snippetDiagnostic "log.info().msg(\"a\\|b\")"
    isIdentifier d.method.toList = true ∧ d.snippet.toList.any isLineBreak = false ∧
      cells (row d) = [" 1 ", " 1 ", " `msg()` ", " `log.info().msg(\"a\\\\", "b\")` "] := by
  decide +kernel

end ContextLint.Report
