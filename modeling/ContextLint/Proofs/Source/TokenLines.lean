import ContextLint.Proofs.Source.Scanned

/-!
# Lines of tokens

The scanner counts the line ends that it reads. So in a text whose last line is ended every token
starts on a line of the text, and a string literal stretches over lines of the text only.
-/

namespace ContextLint.Source

/-- Number of line ends in a text. -/
def lineEnds (cs : List Char) : Nat := cs.count '\n'

/-- Line ends add up. -/
theorem lineEnds_append (cs cs' : List Char) : lineEnds (cs ++ cs') = lineEnds cs + lineEnds cs' :=
  List.count_append

/-- A text that starts on the given line stretches over lines of the set only. -/
def Covers (lines : Nat → Prop) (line : Nat) (cs : List Char) : Prop :=
  ∀ k ≤ lineEnds cs, lines (line + k)

section

variable {lines : Nat → Prop} {line : Nat} {cs cs' : List Char}

/-- The first line is covered. -/
theorem Covers.start (h : Covers lines line cs) : lines line := h 0 (Nat.zero_le _)

/-- The lines of a front are covered. -/
theorem Covers.front (h : Covers lines line (cs ++ cs')) : Covers lines line cs := by
  intro k hk
  apply h
  rw [lineEnds_append]
  omega

/-- The lines of a rest are covered from where it starts. -/
theorem Covers.back (h : Covers lines line (cs ++ cs')) :
    Covers lines (line + lineEnds cs) cs' := by
  intro k hk
  rw [Nat.add_assoc]
  apply h
  rw [lineEnds_append]
  omega

end

private theorem Scan.Point.line_advance (p : Point) (cs : List Char) :
    (p.advance cs).line = p.line + lineEnds cs := by
  induction cs generalizing p with
  | nil => rfl
  | cons c cs ih =>
    change ((p.after c).advance cs).line = _
    rw [ih, Point.after, lineEnds, lineEnds, List.count_cons]
    by_cases hc : c = '\n'
    · rw [if_pos hc, if_pos (beq_iff_eq.mpr hc)]
      dsimp only
      omega
    · rw [if_neg hc, if_neg (by simpa using hc)]
      rfl

/-- The lines behind a point that advances are covered. -/
theorem Covers.advance {lines : Nat → Prop} {p : Scan.Point} {cs cs' : List Char}
    (h : Covers lines p.line (cs ++ cs')) : Covers lines (p.advance cs).line cs' := by
  rw [Scan.Point.line_advance]
  exact h.back

/-- The token starts on a line of the set, and a string literal stretches over such lines only. -/
structure Token.On (lines : Nat → Prop) (t : Token) : Prop where
  /-- The first line. -/
  start : lines t.span.line
  /-- The lines of a string literal. -/
  string : t.kind = .string → Covers lines t.span.line t.text.toList

/-- All tokens are on lines of the set. -/
def Lexed.On (lines : Nat → Prop) (l : Lexed) : Prop := ∀ t ∈ l.tokens, t.On lines

namespace Scan

/-- The scanner has read a part of the text and stands behind it. -/
structure State.Stands (lines : Nat → Prop) (first : Nat) (text : List Char) (s : State) :
    Prop where
  /-- The first line of the text. -/
  firstLine : s.firstLine = first
  /-- What has been read, and the place behind it. -/
  place : ∃ done, text = done ++ s.rest ∧ s.point = Point.advance ⟨first, 0⟩ done
  tokens : ∀ t ∈ s.tokens, t.On lines

section

variable {lines : Nat → Prop} {first : Nat} {text : List Char} {s : State}
  (hlines : ∀ k < lineEnds text, lines (first + k)) (hend : text.getLast? = some '\n')

include hend in
private theorem lineEnds_pos {done rest : List Char} (htext : text = done ++ rest)
    (hne : rest ≠ []) : 0 < lineEnds rest := by
  rw [htext, List.getLast?_append_of_ne_nil _ hne] at hend
  exact List.count_pos_iff.mpr (List.mem_of_getLast? hend)

include hlines hend

/-- As long as there is text to read, the scanner stands on a line of it. -/
theorem State.Stands.line (h : s.Stands lines first text) (hne : s.rest ≠ []) :
    lines s.point.line := by
  obtain ⟨done, htext, hpoint⟩ := h.place
  have hrest := lineEnds_pos hend htext hne
  rw [hpoint, Point.line_advance]
  apply hlines
  rw [htext, lineEnds_append]
  omega

private theorem State.Stands.lastLine (h : s.Stands lines first text) : lines s.lastLine := by
  by_cases hne : s.rest = []
  · obtain ⟨done, htext, hpoint⟩ := h.place
    rw [hne, List.append_nil] at htext
    subst htext
    obtain ⟨front, hfront⟩ := List.getLast?_eq_some_iff.mp hend
    have hplace : s.point = ⟨first + lineEnds front + 1, 0⟩ := by
      rw [hpoint, hfront, Point.advance_append, Point.advance_newline, Point.line_advance]
    have hline : s.lastLine = first + lineEnds front := by
      rw [State.lastLine, hplace, h.firstLine, if_pos]
      · rfl
      · simp only [hne, List.isEmpty_nil, Bool.true_and, beq_self_eq_true, decide_eq_true_eq]
        omega
    rw [hline]
    apply hlines
    rw [hfront, lineEnds_append]
    exact Nat.lt_add_of_pos_right (by decide)
  · have hline : s.lastLine = s.point.line := by
      rw [State.lastLine, if_neg]
      simp [hne]
    rw [hline]
    exact h.line hlines hend hne

private theorem State.Stands.pushLayout (h : s.Stands lines first text) {kind : TokenKind}
    (hkind : kind ≠ .string) : (s.pushLayout kind).Stands lines first text where
  firstLine := h.firstLine
  place := h.place
  tokens t ht := by
    rcases Array.mem_push.mp ht with ht | rfl
    · exact h.tokens t ht
    · exact ⟨h.lastLine hlines hend, fun hstring => absurd hstring hkind⟩

private theorem State.Stands.push (h : s.Stands lines first text) {kind : TokenKind}
    {token rest : List Char} (hrest : s.rest = token ++ rest) (hne : s.rest ≠ [])
    (hstring : kind = .string → ∃ quote, isQuote quote = true ∧ token.getLast? = some quote) :
    (s.push kind token (s.point.advance token) rest).Stands lines first text := by
  obtain ⟨done, htext, hpoint⟩ := h.place
  have hsplit : text = (done ++ token) ++ rest := by rw [htext, hrest, List.append_assoc]
  refine ⟨h.firstLine, ⟨done ++ token, hsplit, ?_⟩, ?_⟩
  · rw [Point.advance_append, ← hpoint]
    rfl
  · intro t ht
    rcases Array.mem_push.mp ht with ht | rfl
    · exact h.tokens t ht
    · refine ⟨h.line hlines hend hne, fun hkind => ?_⟩
      obtain ⟨quote, hquote, hlast⟩ := hstring hkind
      -- A literal does not end in a line end, so one comes behind it.
      have hmore : rest ≠ [] := by
        rintro rfl
        rw [hsplit, List.append_nil, List.getLast?_append, hlast] at hend
        obtain rfl := Option.some.inj hend
        exact absurd hquote (by decide)
      have hpos := lineEnds_pos hend hsplit hmore
      intro k hk
      have hline : s.point.line + k = first + (lineEnds done + k) := by
        rw [hpoint, Point.line_advance, Nat.add_assoc]
      rw [String.toList_ofList] at hk
      change lines (s.point.line + k)
      rw [hline]
      apply hlines
      rw [hsplit, lineEnds_append, lineEnds_append]
      omega

/-- The scanner keeps to the lines of the text. -/
theorem kept_stands : Kept (State.Stands lines first text) (Lexed.On lines) where
  stop h _ _ := h.tokens
  finish h _ := (h.pushLayout hlines hend (by decide)).tokens
  layout h _ hkind := h.pushLayout hlines hend hkind
  indents h _ := ⟨h.firstLine, h.place, h.tokens⟩
  brackets h _ := ⟨h.firstLine, h.place, h.tokens⟩
  pass h front rest hrest := by
    obtain ⟨done, htext, hpoint⟩ := h.place
    refine ⟨h.firstLine, ⟨done ++ front, ?_, ?_⟩, h.tokens⟩
    · rw [htext, hrest, List.append_assoc]
    · rw [Point.advance_append, ← hpoint]
  push h _ _ _ hrest hne hstring := h.push hlines hend hrest hne hstring

end

end Scan

/-- The tokens of a text whose last line is ended are on lines of the text. -/
theorem Lexed.ofFragment_on {lines : Nat → Prop} {line : Nat} {text : List Char}
    (hlines : ∀ k < lineEnds text, lines (line + k)) (hend : text.getLast? = some '\n')
    (col : Nat) : (Lexed.ofFragment line col text).On lines :=
  (Scan.kept_stands hlines hend).run ⟨rfl, ⟨[], rfl, rfl⟩, by simp⟩ _ _

end ContextLint.Source
