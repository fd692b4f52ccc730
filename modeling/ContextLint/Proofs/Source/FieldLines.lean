import ContextLint.Proofs.Source.Literals
import ContextLint.Proofs.Source.TokenLines

/-!
# Lines of replacement fields

The expression of a replacement field is a part of its string literal, and the place that it is
taken to start at is the place of its brace. So it stretches over lines of the literal only, and so
does the expression of a field inside the format of another.
-/

namespace ContextLint.Source

variable {lines : Nat → Prop}

private theorem Covers.nil {line : Nat} (h : lines line) : Covers lines line [] := by
  intro k hk
  obtain rfl := Nat.le_zero.mp hk
  exact h

variable {text rest : List Char}

/-- The place behind the part of a text that is read. -/
theorem Covers.suffix {p : Scan.Point} (h : Covers lines p.line text) (hrest : rest <:+ text) :
    Covers lines (p.advance (text.take (text.length - rest.length))).line rest := by
  obtain ⟨front, rfl⟩ := hrest
  rw [List.length_append, Nat.add_sub_cancel, List.take_left]
  exact h.advance

variable {top : Bool} {acc body : List Char} {c : Char} {ending : LiteralEnd} {fuel : Nat}
  {point : Point}

namespace Interpolation

open Scan (Point)

private theorem brace_suffix {rest' : List Char}
    (h : literalRun.brace top acc c rest = some (text, ending, rest')) : rest' <:+ c :: rest := by
  unfold literalRun.brace at h
  repeat' split at h
  all_goals first
    | cases h; done
    | obtain ⟨-, -, rfl⟩ := by simpa using h
      simp [List.suffix_cons_iff]

/-- Literal text is read from the front. -/
theorem literalRun_suffix {raw : Bool}
    (h : literalRun raw top acc fuel body = some (text, ending, rest)) : rest <:+ body := by
  fun_induction literalRun raw top acc fuel body with
  | case1 => cases h
  | case2 =>
    obtain ⟨-, -, rfl⟩ := by simpa using h
    exact List.suffix_refl _
  | case3 =>
    obtain ⟨-, -, rfl⟩ := by simpa using h
    exact List.nil_suffix
  | case4 acc fuel c _ more name tail ih =>
    have htail : tail <:+ more := List.dropWhile_suffix _
    have hmore : more <:+ c :: 'N' :: '{' :: more := ⟨[c, 'N', '{'], rfl⟩
    exact (ih h).trans ((List.drop_suffix 1 tail).trans (htail.trans hmore))
  | case5 acc fuel c _ d more _ ih => exact (ih h).trans ⟨[c, 'N', d], rfl⟩
  | case6 acc fuel c _ d more _ _ _ => exact (brace_suffix h).trans (List.suffix_cons c _)
  | case7 acc fuel c _ d more _ _ _ ih => exact (ih h).trans ⟨[c, d], rfl⟩
  | case8 acc fuel c rest _ _ => exact brace_suffix h
  | case9 acc fuel c rest _ _ ih => exact (ih h).trans (List.suffix_cons c _)

/-- The source of a field's expression is a part of the text. -/
theorem expressionRun_keeps (quote : Option (Char × Nat)) (openBrackets acc : List Char)
    (fuel : Nat) (text : List Char) :
    Keeps (expressionRun quote openBrackets acc fuel text) (acc.reverse ++ text) := by
  fun_induction expressionRun quote openBrackets acc fuel text
  all_goals simp_all

private theorem conversion_suffix (h : conversion text = some rest) : rest <:+ text := by
  unfold conversion at h
  split at h
  · split at h
    · split at h
      · obtain rfl := Option.some.inj h
        exact (List.drop_suffix 1 _).trans (List.suffix_cons _ _)
      · cases h
    · cases h
  · obtain rfl := Option.some.inj h
    exact List.suffix_refl _

/-- The expressions of fields stretch over lines of the set only. -/
inductive Piece.Covered (lines : Nat → Prop) : Piece → Prop where
  | text (points : List Nat) : Covered lines (.text points)
  | field {line col source format} (hsource : Covers lines line source)
      (hformat : ∀ pieces, format = some pieces → ∀ p ∈ pieces, Covered lines p) :
      Covered lines (.field line col source format)
  | broken : Covered lines .broken

variable {names : CharacterNames} {lines : Nat → Prop}

private theorem merge_covered {ps : List Piece} (h : ∀ p ∈ ps, p.Covered lines) :
    ∀ p ∈ merge ps, p.Covered lines := by
  fun_induction merge ps with
  | case1 a rest b more hmerge ih =>
    rw [List.forall_mem_cons] at h
    have hrest := ih h.2
    rw [hmerge, List.forall_mem_cons] at hrest
    exact List.forall_mem_cons.mpr ⟨.text _, hrest.2⟩
  | case2 a rest hmore ih | case3 p rest hp ih =>
    rw [List.forall_mem_cons] at h
    exact List.forall_mem_cons.mpr ⟨h.1, ih h.2⟩
  | case4 => simp

section

variable {point : Point} {source shown afterValue : List Char}

/-- A field's expression stands on the lines behind its brace. -/
theorem covers_shown (h : Covers lines point.line ('{' :: source))
    (hvalue : expressionRun none [] [] fuel source = some (shown, afterValue)) :
    Covers lines point.line shown.reverse := by
  have hsource : shown.reverse ++ afterValue = source :=
    expressionRun_keeps none [] [] fuel source _ hvalue
  have hbrace : Covers lines point.line (['{'] ++ source) := h
  have hbehind := hbrace.back
  rw [← hsource] at hbehind
  exact hbehind.front

/-- What follows the expression of a field, its shown text and its conversion. -/
theorem suffix_of_conversion
    (hconversion : conversion (match afterValue with
      | '=' :: more => more.dropWhile isAsciiBlank
      | _ => afterValue) = some rest)
    (hvalue : expressionRun none [] [] fuel source = some (shown, afterValue)) :
    rest <:+ source := by
  have hsource : shown.reverse ++ afterValue = source :=
    expressionRun_keeps none [] [] fuel source _ hvalue
  refine (conversion_suffix hconversion).trans (List.IsSuffix.trans ?_ ⟨_, hsource⟩)
  split
  · exact (List.dropWhile_suffix _).trans (List.suffix_cons _ _)
  · exact List.suffix_refl _

/-- The place behind a part of a field. -/
theorem covers_placed (h : Covers lines point.line ('{' :: source)) (hrest : c :: rest <:+ source) :
    Covers lines
      (point.advance (('{' :: source).take (source.length + 1 - rest.length))).line rest :=
  h.suffix ((List.suffix_cons c rest).trans (hrest.trans (List.suffix_cons '{' source)))

end

private theorem text_covered (points : List Nat) :
    ∀ p ∈ (if points.isEmpty then [] else [Piece.text points]), p.Covered lines := by
  split
  · simp
  · simpa using Piece.Covered.text points

/-- The parts that are read, and what is left to read, stretch over lines of the set only. -/
structure ReadCovered (lines : Nat → Prop) (r : List Piece × Point × List Char) : Prop where
  pieces : ∀ p ∈ r.1, p.Covered lines
  /-- The rest and its place. -/
  rest : Covers lines r.2.1.line r.2.2

private theorem ReadCovered.append {front : List Piece} (hfront : ∀ p ∈ front, p.Covered lines)
    {r : List Piece × Point × List Char} (h : ReadCovered lines r) :
    ReadCovered lines (front ++ r.1, r.2.1, r.2.2) :=
  ⟨List.forall_mem_append.mpr ⟨hfront, h.pieces⟩, h.rest⟩

/-- Reading stops at a malformed part. -/
theorem readCovered_broken (h : lines point.line) : ReadCovered lines ([.broken], point, []) :=
  ⟨by simpa using Piece.Covered.broken, .nil h⟩

/-- The parts up to a field and the field itself. -/
theorem field_covered (points own : List Nat) (isShown : Bool) {source : List Char}
    (hsource : Covers lines point.line source) (col : Nat) (format : Option (List Piece))
    (hformat : ∀ pieces, format = some pieces → ∀ p ∈ pieces, p.Covered lines) :
    ∀ p ∈ (if points.isEmpty then [] else [Piece.text points]) ++
      (if isShown then [Piece.text own] else []) ++ [.field point.line col source format],
      p.Covered lines := by
  have hown : ∀ p ∈ (if isShown then [Piece.text own] else []), p.Covered lines := by
    split
    · simpa using Piece.Covered.text own
    · simp
  refine List.forall_mem_append.mpr ⟨List.forall_mem_append.mpr ⟨text_covered points, hown⟩, ?_⟩
  simpa using Piece.Covered.field hsource hformat

/-- The fields of a body stretch over the lines of the body only. -/
theorem pieces_covered (raw : Bool) (literal : Point) (fuel level : Nat)
    (h : Covers lines point.line body) :
    ReadCovered lines (pieces names raw literal fuel level point body) := by
  fun_induction pieces names raw literal fuel level point body with
  | case1 level point body | case2 fuel level point body _ => exact readCovered_broken h.start
  | case3 fuel level point body _ _ _ _ _ _ => exact readCovered_broken h.start
  | case4 fuel level point body _ _ _ points _ _ _ _ _ _ _ hrun ih =>
    exact (ih (h.suffix (literalRun_suffix hrun))).append (text_covered points)
  | case5 fuel level point body _ _ points _ _ source _ _ hrun =>
    have hbrace := h.suffix (literalRun_suffix hrun)
    exact (readCovered_broken hbrace.start).append (text_covered points)
  | case6 fuel level point body _ _ points _ _ source _ _ _ hrun =>
    have hbrace := h.suffix (literalRun_suffix hrun)
    exact (readCovered_broken hbrace.start).append (text_covered points)
  | case7 fuel level point body _ _ points _ _ source _ shown afterValue hvalue _ _ _ _ _ _ _ _
      hrun =>
    have hbrace := h.suffix (literalRun_suffix hrun)
    exact (readCovered_broken hbrace.start).append
      (field_covered points _ _ (covers_shown hbrace hvalue) _ none (by simp))
  | case8 fuel level point body _ _ points _ _ source _ shown afterValue hvalue _ _ _ formatBody
      hconversion _ format last rest more last' rest' hmore _ _ _ hrun hformat ih ih' =>
    have hbrace := h.suffix (literalRun_suffix hrun)
    have hinner := ih (covers_placed hbrace (suffix_of_conversion hconversion hvalue))
    rw [hformat] at hinner
    have hclosed : Covers lines last.line (['}'] ++ rest) := hinner.rest
    have hbehind := ih' hclosed.advance
    rw [hmore] at hbehind
    refine hbehind.append (field_covered points _ _ (covers_shown hbrace hvalue) _ (some _) ?_)
    simpa using merge_covered hinner.pieces
  | case9 fuel level point body _ _ points _ _ source _ shown afterValue hvalue _ _ _ formatBody
      hconversion _ format last rest _ _ _ _ hformat hrun ih =>
    have hbrace := h.suffix (literalRun_suffix hrun)
    have hinner := ih (covers_placed hbrace (suffix_of_conversion hconversion hvalue))
    rw [hformat] at hinner
    refine (readCovered_broken hinner.rest.start).append
      (field_covered points _ _ (covers_shown hbrace hvalue) _ (some _) ?_)
    simpa using merge_covered hinner.pieces
  | case10 fuel level point body _ _ points _ _ source _ shown afterValue hvalue _ _ _ rest
      hconversion more last rest' _ _ _ hmore hrun ih =>
    have hbrace := h.suffix (literalRun_suffix hrun)
    have hbehind := ih (covers_placed hbrace (suffix_of_conversion hconversion hvalue))
    rw [hmore] at hbehind
    exact hbehind.append (field_covered points _ _ (covers_shown hbrace hvalue) _ none (by simp))
  | case11 fuel level point body _ _ points _ _ source _ shown afterValue hvalue _ _ _ _ _ _ _
      hrun =>
    have hbrace := h.suffix (literalRun_suffix hrun)
    exact (readCovered_broken hbrace.start).append
      (field_covered points _ _ (covers_shown hbrace hvalue) _ none (by simp))
  | case12 fuel level point body _ _ points _ _ rest _ _ hrun =>
    exact ⟨text_covered points, h.suffix (literalRun_suffix hrun)⟩

/-- A literal is its opening, its body and its closing quotes. -/
theorem opening_body_prefix (text : List Char) :
    (Literal.Quoted.ofText text).opening ++ (Literal.Quoted.ofText text).body <+: text := by
  have hquoted (quoted : List Char) (size count : Nat) :
      quoted.take size ++ (quoted.drop size).take count <+: quoted := by
    have happend := List.take_append_drop size quoted
    conv_rhs => rw [← happend]
    exact List.prefix_append_right_inj _ |>.mpr (List.take_prefix _ _)
  have hletters := List.prefix_iff_eq_append.mp (List.takeWhile_prefix Char.isAlpha (l := text))
  unfold Literal.Quoted.ofText
  dsimp only
  rw [List.append_assoc]
  conv_rhs => rw [← hletters]
  exact List.prefix_append_right_inj _ |>.mpr (hquoted _ _ _)

/-- The fields of a string literal stretch over the lines of the literal only. -/
theorem piecesOf_covered {t : Token} (h : t.On lines) (hstring : t.kind = .string) :
    ∀ p ∈ piecesOf names t (Literal.Quoted.ofText t.text.toList), p.Covered lines := by
  unfold piecesOf
  split
  · obtain ⟨closing, htext⟩ := opening_body_prefix t.text.toList
    have hcovers := h.string hstring
    rw [← htext] at hcovers
    have hbody := Covers.advance (p := ⟨t.span.line, t.span.col⟩) hcovers.front
    exact (pieces_covered _ _ _ _ hbody).pieces
  · split
    · exact text_covered _
    · simpa using Piece.Covered.broken

/-- The fields of adjacent string literals stretch over the lines of the literals only. -/
theorem adjacentPieces_covered (names : CharacterNames) {ts : List Token}
    (h : ∀ t ∈ ts, t.On lines ∧ t.kind = .string) :
    ∀ p ∈ adjacentPieces names (ts.map fun t => (t, Literal.Quoted.ofText t.text.toList)),
      p.Covered lines := by
  unfold adjacentPieces
  split
  · simpa using Piece.Covered.broken
  · apply merge_covered
    intro p hp
    obtain ⟨⟨t, q⟩, hq, hp⟩ := List.mem_flatMap.mp hp
    obtain ⟨t', ht, heq⟩ := List.mem_map.mp hq
    obtain ⟨rfl, rfl⟩ := Prod.mk.inj heq
    exact piecesOf_covered (h t' ht).1 (h t' ht).2 p hp

end Interpolation

end ContextLint.Source
