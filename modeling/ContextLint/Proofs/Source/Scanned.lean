import Mathlib.Data.List.Basic
import ContextLint.Source.Token.Scan

/-!
# Tokens of a text

The scanner takes the text apart into tokens and what stands between them, so it reads each
character once. What everything that it can do keeps holds of the tokens of every text. So the
string literals are together no longer than the text, and a scan without a fault ends with a
`finish` token.
-/

namespace ContextLint.Source

/-- The characters of a string literal; other tokens have none. -/
def Token.literal (t : Token) : List Char := if t.kind = .string then t.text.toList else []

/-- Number of characters of the string literals among the tokens. -/
def stringTotal (ts : List Token) : Nat := (ts.flatMap Token.literal).length

/-- Whatever a reader delivers, the characters read, which are in reverse, and those left are the
text. -/
def Keeps (x : Option (List Char × List Char)) (text : List Char) : Prop :=
  ∀ r, x = some r → r.1.reverse ++ r.2 = text

variable {r : List Char × List Char} {text : List Char}

@[simp] theorem keeps_none (text : List Char) : Keeps none text := by rintro r ⟨⟩

@[simp] theorem keeps_some : Keeps (some r) text ↔ r.1.reverse ++ r.2 = text := by
  simp [Keeps]

variable {x : Option (List Char × List Char)}

private theorem Keeps.of_eq {text' : List Char} (h : Keeps x text) (heq : text = text') :
    Keeps x text' := heq ▸ h

/-- Readers one after the other keep the text if each does. -/
theorem Keeps.bind {f : List Char × List Char → Option (List Char × List Char)} (hx : Keeps x text)
    (hf : ∀ acc rest, Keeps (f (acc, rest)) (acc.reverse ++ rest)) : Keeps (x.bind f) text := by
  cases x with
  | none => exact keeps_none text
  | some mid => exact (hf mid.1 mid.2).of_eq (keeps_some.mp hx)

namespace Number

private theorem digits_keeps (acc rest : List Char) :
    Keeps (digits acc rest) (acc.reverse ++ rest) := by
  fun_induction digits acc rest with
  | case1 | case2 => simp
  | case3 acc d rest _ ih => exact ih.of_eq (by simp)
  | case4 => simp
  | case5 acc c rest _ _ _ ih => exact ih.of_eq (by simp)
  | case6 => simp

private theorem radixDigits_keeps (isDigit : Char → Bool) (acc : List Char) (fresh : Bool)
    (rest : List Char) : Keeps (radixDigits isDigit acc fresh rest) (acc.reverse ++ rest) := by
  fun_induction radixDigits isDigit acc fresh rest with
  | case1 | case2 => simp
  | case3 acc fresh d rest _ ih => exact ih.of_eq (by simp)
  | case4 => simp
  | case5 acc fresh c rest _ _ ih => exact ih.of_eq (by simp)
  | case6 | case7 => simp

private theorem close_keeps (acc rest : List Char) :
    Keeps (close acc rest) (acc.reverse ++ rest) := by
  unfold close
  split <;> simp

private theorem imaginary_keeps (acc rest : List Char) :
    Keeps (imaginary acc rest) (acc.reverse ++ rest) := by
  unfold imaginary
  split
  · exact (close_keeps _ _).of_eq (by simp)
  · exact (close_keeps _ _).of_eq (by simp)
  · exact close_keeps _ _

private theorem exponent_keeps (acc : List Char) (e : Char) (rest : List Char) :
    Keeps (exponent acc e rest) (acc.reverse ++ e :: rest) := by
  have hread (acc rest : List Char) :
      Keeps ((digits acc rest).bind fun x => imaginary x.1 x.2) (acc.reverse ++ rest) :=
    (digits_keeps acc rest).bind imaginary_keeps
  unfold exponent
  split
  · split
    · exact (hread _ _).of_eq (by simp)
    · exact keeps_none _
  · split
    · exact (hread _ _).of_eq (by simp)
    · exact keeps_none _
  · exact keeps_none _
  · exact keeps_none _
  · split
    · exact (hread _ _).of_eq (by simp)
    · exact close_keeps _ _
  · exact close_keeps _ _

private theorem scale_keeps (acc rest : List Char) :
    Keeps (scale acc rest) (acc.reverse ++ rest) := by
  unfold scale
  split
  · exact exponent_keeps _ _ _
  · exact exponent_keeps _ _ _
  · exact imaginary_keeps _ _

private theorem fraction_keeps (acc rest : List Char) :
    Keeps (fraction acc rest) (acc.reverse ++ rest) := by
  unfold fraction
  split
  · split
    · exact ((digits_keeps _ _).bind scale_keeps).of_eq (by simp)
    · exact scale_keeps _ _
  · exact scale_keeps _ _

private theorem afterInteger_keeps (acc rest : List Char) :
    Keeps (afterInteger acc rest) (acc.reverse ++ rest) := by
  unfold afterInteger
  split
  · exact (fraction_keeps _ _).of_eq (by simp)
  · exact scale_keeps _ _

private theorem zeros_keeps (acc rest : List Char) :
    Keeps (zeros acc rest) (acc.reverse ++ rest) := by
  fun_induction zeros acc rest with
  | case1 => simp
  | case2 acc d rest hd ih =>
    rw [beq_iff_eq] at hd
    exact ih.of_eq (by simp [hd])
  | case3 acc d rest _ _ | case4 => simp
  | case5 acc rest ih => exact ih.of_eq (by simp)
  | case6 => simp

private theorem afterZero_keeps (acc rest : List Char) :
    Keeps (afterZero acc rest) (acc.reverse ++ rest) := by
  refine (zeros_keeps acc rest).bind fun acc rest => ?_
  dsimp only
  split
  · split
    · refine Keeps.of_eq ((digits_keeps _ _).bind fun acc rest => ?_) (by simp)
      dsimp only
      split
      all_goals first | exact afterInteger_keeps _ _ | exact keeps_none _
    · exact afterInteger_keeps _ _
  · exact afterInteger_keeps _ _

private theorem radix_keeps (isDigit : Char → Bool) (mark : Char) (rest : List Char) :
    Keeps (radix isDigit mark rest) ('0' :: mark :: rest) :=
  (radixDigits_keeps isDigit [mark, '0'] true rest).bind close_keeps

/-- Reading a number keeps the text. -/
theorem read_keeps (text : List Char) : Keeps (read text) text := by
  unfold read
  split
  · exact fraction_keeps _ _
  all_goals first
    | exact radix_keeps _ _ _
    | exact afterZero_keeps _ _
    | exact (digits_keeps _ _).bind afterInteger_keeps
    | exact keeps_none _

end Number

variable {acc rest : List Char} {quote : Char} {s : State} {kind : TokenKind}

namespace Scan

private theorem stringBody_keeps (quote : Char) (size run : Nat) (acc text : List Char) :
    Keeps (stringBody quote size run acc text) (acc.reverse ++ text) := by
  fun_induction stringBody quote size run acc text with
  | case1 | case2 => simp
  | case3 run acc c rest ih => exact ih.of_eq (by simp)
  | case4 run acc rest _ _ _ => simp
  | case5 run acc rest _ _ _ ih => exact ih.of_eq (by simp)
  | case6 => simp
  | case7 run acc c rest _ _ _ _ ih => exact ih.of_eq (by simp)

private theorem stringLiteral_keeps (acc : List Char) (quote : Char) (rest : List Char) :
    Keeps (stringLiteral acc quote rest) (acc.reverse ++ quote :: rest) := by
  unfold stringLiteral
  split
  · split
    · exact (stringBody_keeps _ _ _ _ _).of_eq (by simp)
    · split
      · simp
      · exact (stringBody_keeps _ _ _ _ _).of_eq (by simp)
  · split
    · simp
    · exact keeps_none _
  · exact keeps_none _

/-- What stands before a string literal's body is its letters and the quotation mark. -/
theorem stringStart_eq {body : List Char} (h : stringStart text = some (acc, quote, body)) :
    isQuote quote = true ∧ acc.reverse ++ quote :: body = text := by
  unfold stringStart at h
  repeat' split at h
  all_goals first
    | cases h; done
    | obtain ⟨rfl, rfl, rfl⟩ := by simpa using h
      simp_all

/-- A property of the scanner's states and one of the tokens that it stops with, which all that the
scanner does keeps. -/
structure Kept (P : State → Prop) (L : Lexed → Prop) : Prop where
  /-- A fault. -/
  stop {s : State} (h : P s) (line : Nat) (loud : Bool) : L (s.stop line loud)
  /-- The end of the text. -/
  finish {s : State} (h : P s) (hrest : s.rest = []) : L ⟨(s.pushLayout .finish).tokens, none⟩
  /-- A layout token. -/
  layout {s : State} (h : P s) {kind : TokenKind} (hkind : kind ≠ .string) : P (s.pushLayout kind)
  /-- Other levels of indentation. -/
  indents {s : State} (h : P s) (indents : List (Nat × Nat)) : P { s with indents := indents }
  /-- Other brackets. -/
  brackets {s : State} (h : P s) (brackets : List (Char × Nat)) : P { s with brackets := brackets }
  /-- Text that is no token. -/
  pass {s : State} (h : P s) {front rest : List Char} (hrest : s.rest = front ++ rest) :
    P { s with rest := rest, point := s.point.advance front }
  /-- A token; a string literal ends with its quotation mark. -/
  push {s : State} (h : P s) {kind : TokenKind} {text rest : List Char}
    (hrest : s.rest = text ++ rest) (hne : s.rest ≠ [])
    (hstring : kind = .string → ∃ quote, isQuote quote = true ∧ text.getLast? = some quote) :
    P (s.push kind text (s.point.advance text) rest)

/-- A step of the scanner stops with tokens of one property or goes on with another. -/
def Leads {α : Type} (L : Lexed → Prop) (P : α → Prop) : Except Lexed α → Prop
  | .error l => L l
  | .ok a => P a

private theorem Leads.map {P : State → Prop} {L : Lexed → Prop} {x : Except Lexed State}
    (h : Leads L P x)
    (fresh : Bool) : Leads L (fun r => P r.1) (x.map (·, fresh)) := by
  cases x with
  | error l | ok s => exact h

/-- A point advances over one text after the other. -/
theorem Point.advance_append (p : Point) (cs cs' : List Char) :
    p.advance (cs ++ cs') = (p.advance cs).advance cs' :=
  List.foldl_append

theorem Point.advance_newline (p : Point) : p.advance ['\n'] = ⟨p.line + 1, 0⟩ := rfl

private theorem Point.advance_continuation (p : Point) :
    p.advance ['\\', '\n'] = ⟨p.line + 1, 0⟩ := by
  simp [Point.advance, Point.after]

/-- The margin of a line is a part of the text, and its place is the place behind that part. -/
theorem margin_eq {m m' : Margin} (h : margin m text = .ok (m', rest)) :
    ∃ front, text = front ++ rest ∧ m'.point = m.point.advance front := by
  have hcons {c : Char} {text : List Char} {p : Point}
      (h : ∃ front, text = front ++ rest ∧ m'.point = (p.after c).advance front) :
      ∃ front, c :: text = front ++ rest ∧ m'.point = p.advance front := by
    obtain ⟨front, rfl, hpoint⟩ := h
    exact ⟨c :: front, rfl, hpoint⟩
  fun_induction margin m text with
  | case1 m rest ih | case2 m rest ih | case3 m rest ih => exact hcons (ih h)
  | case4 => cases h
  | case5 m rest _ ih =>
    obtain ⟨front, rfl, hpoint⟩ := ih h
    refine ⟨['\\', '\n'] ++ front, rfl, ?_⟩
    rw [Point.advance_append, Point.advance_continuation]
    exact hpoint
  | case6 => cases h
  | case7 m rest =>
    obtain ⟨rfl, rfl⟩ := by simpa using h
    exact ⟨[], rfl, rfl⟩

/-- A string literal ends with its quotation mark. -/
theorem stringBody_head {size run : Nat} (h : stringBody quote size run acc text = some r) :
    r.1.head? = some quote := by
  fun_induction stringBody quote size run acc text with
  | case1 | case2 => cases h
  | case3 run acc c rest ih => exact ih h
  | case4 run acc rest _ _ _ =>
    obtain rfl := Option.some.inj h
    rfl
  | case5 run acc rest _ _ _ ih => exact ih h
  | case6 => cases h
  | case7 run acc c rest _ _ _ _ ih => exact ih h

private theorem stringLiteral_head (h : stringLiteral acc quote text = some r) :
    r.1.head? = some quote := by
  unfold stringLiteral at h
  split at h
  · split at h
    · exact stringBody_head h
    · split at h
      · next ha =>
        obtain rfl := Option.some.inj h
        exact congrArg some ha
      · exact stringBody_head h
  · split at h
    · next ha =>
      obtain rfl := Option.some.inj h
      exact congrArg some ha
    · cases h
  · cases h

/-- The rest of a line ends before a line end. -/
theorem exists_newline_of_skip (h : (s.skip (· ≠ '\n')).rest ≠ []) :
    ∃ more, (s.skip (· ≠ '\n')).rest = '\n' :: more := by
  obtain ⟨c, more, hrest⟩ := List.exists_cons_of_ne_nil h
  have hhead := List.head?_dropWhile_not (· ≠ '\n') s.rest
  change s.rest.dropWhile _ = _ at hrest
  rw [hrest] at hhead
  have hc : c = '\n' := by simpa using hhead
  exact ⟨more, hc ▸ hrest⟩

/-- The operator at the head of a text is a part of it. -/
theorem operator_prefix (c : Char) (rest : List Char) : operator c rest <+: c :: rest := by
  unfold operator
  split
  · next op hop =>
    have hprefix := List.find?_some hop
    exact List.isPrefixOf_iff_prefix.mp hprefix
  · exact ⟨rest, rfl⟩

section

variable {P : State → Prop} {L : Lexed → Prop} (hkept : Kept P L) {s : State}

include hkept

private theorem Kept.layouts (h : P s) (hkind : kind ≠ .string) (count : Nat) :
    P (s.pushLayouts kind count) := by
  induction count generalizing s with
  | zero => exact h
  | succ count ih => exact ih (hkept.layout h hkind)

private theorem Kept.skip (h : P s) (p : Char → Bool) : P (s.skip p) :=
  hkept.pass h List.takeWhile_append_dropWhile.symm

private theorem Kept.nextLine (h : P s) (hrest : s.rest = '\n' :: rest) : P s.nextLine := by
  have hpass := hkept.pass h (show s.rest = ['\n'] ++ rest from hrest)
  rw [Point.advance_newline] at hpass
  rw [State.nextLine, hrest]
  exact hpass

private theorem Kept.indentTo (h : P s) (width narrow : Nat) :
    Leads L P (indentTo width narrow s) := by
  unfold Scan.indentTo
  split
  · exact h
  · split
    · split
      · exact h
      · exact hkept.stop h _ _
    · split
      · split
        · exact hkept.stop h _ _
        · split
          · exact hkept.stop h _ _
          · exact hkept.layout (hkept.indents h _) (by decide)
      · dsimp only
        split
        · exact hkept.layouts (hkept.indents h _) (by decide) _
        · exact hkept.stop h _ _

private theorem Kept.lineStart (h : P s) : Leads L (fun r => P r.1) (lineStart s) := by
  unfold Scan.lineStart
  split
  · exact hkept.stop h _ _
  · next m rest hmargin =>
    obtain ⟨front, hfront, hpoint⟩ := margin_eq hmargin
    have hline := hkept.pass h hfront
    rw [← hpoint] at hline
    dsimp only
    split
    · have hskip := hkept.skip hline (· ≠ '\n')
      split
      · exact hskip
      · next hmore =>
        obtain ⟨more, hrest⟩ := exists_newline_of_skip fun hnil => hmore (List.isEmpty_iff.mpr hnil)
        exact hkept.nextLine hskip hrest
    · exact hkept.nextLine hline rfl
    · split
      · exact (hkept.indentTo hline _ _).map false
      · exact hline

private theorem Kept.operatorToken (h : P s) {c : Char} {rest : List Char}
    (hrest : s.rest = c :: rest) : Leads L P (operatorToken s c rest) := by
  unfold Scan.operatorToken
  dsimp only
  split
  · exact hkept.stop h _ _
  · obtain ⟨after, hafter⟩ := operator_prefix c rest
    refine hkept.push (hkept.brackets h _) ?_ ?_ (by rintro ⟨⟩)
    · rw [← hafter, List.drop_left, hafter]
      exact hrest
    · rw [hrest]
      exact List.cons_ne_nil _ _

private theorem Kept.nameToken (h : P s) (hne : s.rest ≠ []) : Leads L P (nameToken s) := by
  unfold Scan.nameToken
  dsimp only
  split
  · exact hkept.push h List.takeWhile_append_dropWhile.symm hne (by rintro ⟨⟩)
  · exact hkept.stop h _ _

private theorem Kept.plainToken (h : P s) {c : Char} {rest : List Char}
    (hrest : s.rest = c :: rest) : Leads L P (plainToken s c rest) := by
  have hne : s.rest ≠ [] := by
    rw [hrest]
    exact List.cons_ne_nil _ _
  unfold Scan.plainToken
  split
  · next acc quote body hstart =>
    obtain ⟨hquote, hbody⟩ := stringStart_eq hstart
    split
    · next text rest' hliteral =>
      have hkeeps := stringLiteral_keeps acc quote body _ hliteral
      have hhead := stringLiteral_head hliteral
      refine hkept.push h (hbody.symm.trans hkeeps.symm) hne fun _ => ⟨quote, hquote, ?_⟩
      rw [List.getLast?_reverse]
      exact hhead
    · exact hkept.stop h _ _
  · split
    · split
      · next text rest' hnumber =>
        exact hkept.push h (Number.read_keeps s.rest _ hnumber).symm hne (by rintro ⟨⟩)
      · exact hkept.stop h _ _
    · split
      · exact hkept.nameToken h hne
      · exact hkept.operatorToken h hrest

private theorem Kept.withinLine (h : P s) : Leads L (fun r => P r.1) (withinLine s) := by
  have hskip := hkept.skip h isGap
  unfold Scan.withinLine
  dsimp only
  split
  · next hrest =>
    split
    · exact hkept.stop hskip _ _
    · exact hkept.finish hskip hrest
  · exact hkept.skip hskip _
  · next rest hrest =>
    split
    · exact hkept.nextLine (hkept.layout hskip (by decide)) hrest
    · exact hkept.nextLine hskip hrest
  · next rest hrest =>
    split
    · exact hkept.stop hskip _ _
    · have hpass := hkept.pass hskip (show _ = ['\\', '\n'] ++ rest from hrest)
      rw [Point.advance_continuation] at hpass
      exact hpass
  · exact hkept.stop hskip _ _
  · next c rest _ _ _ _ hrest => exact (hkept.plainToken hskip hrest).map false

/-- What all that the scanner does keeps holds of the tokens that it stops with. -/
theorem Kept.run (h : P s) (fuel : Nat) (fresh : Bool) : L (run fuel fresh s) := by
  induction fuel generalizing s fresh with
  | zero => exact hkept.stop h _ _
  | succ fuel ih =>
    have hstep : Leads L (fun r => P r.1)
        (if fresh then Scan.lineStart s else Scan.withinLine s) := by
      split
      · exact hkept.lineStart h
      · exact hkept.withinLine h
    rw [Scan.run]
    split
    · next l hl =>
      rw [hl] at hstep
      exact hstep
    · next s' fresh' hs' =>
      rw [hs'] at hstep
      exact ih hstep fresh'

end

/-- The string literals found so far and the text not yet read are together within a length. -/
def State.Within (n : Nat) (s : State) : Prop := stringTotal s.tokens.toList + s.rest.length ≤ n

end Scan

/-- The string literals are together within a length, and only a fault can stand in the place of a
last token `finish`. -/
structure Lexed.Within (n : Nat) (l : Lexed) : Prop where
  /-- The string literals. -/
  total : stringTotal l.tokens.toList ≤ n
  /-- The last token. -/
  finish : l.fault = none → ∃ t, l.tokens.back? = some t ∧ t.kind = .finish

variable {n : Nat}

namespace Scan

/-- A token costs the text that is read no less than the characters of a string literal. -/
theorem State.Within.push (h : s.Within n) (hrest : s.rest = text ++ rest) (finish : Point) :
    (s.push kind text finish rest).Within n := by
  have htoken (span : Span) :
      (Token.literal ⟨kind, String.ofList text, span⟩).length ≤ text.length := by
    unfold Token.literal
    split
    · simp only [String.toList_ofList, Nat.le_refl]
    · exact Nat.zero_le _
  have hcost := htoken ⟨s.point.line, s.point.col +
    (if finish.line == s.firstLine then s.shift else 0), finish.line, finish.col +
    (if finish.line == s.firstLine then s.shift else 0)⟩
  unfold State.Within at h ⊢
  rw [hrest, List.length_append] at h
  simp only [State.push, Array.toList_push, stringTotal, List.flatMap_append,
    List.flatMap_singleton, List.length_append] at h ⊢
  omega

private theorem State.Within.pushLayout (h : s.Within n) (hkind : kind ≠ .string) :
    (s.pushLayout kind).Within n := by
  have htoken (span : Span) : Token.literal ⟨kind, "", span⟩ = [] := if_neg hkind
  unfold State.Within at h ⊢
  simpa [State.pushLayout, stringTotal, htoken] using h

/-- The scanner reads each character once. -/
theorem kept_within (n : Nat) : Kept (State.Within n) (Lexed.Within n) where
  stop h _ _ := ⟨Nat.le_of_add_right_le h, by rintro ⟨⟩⟩
  finish h _ :=
    ⟨Nat.le_of_add_right_le (h.pushLayout (by decide)), fun _ => ⟨_, Array.back?_push, rfl⟩⟩
  layout h _ hkind := h.pushLayout hkind
  indents h _ := h
  brackets h _ := h
  pass := by
    intro s h front rest hrest
    unfold State.Within at h ⊢
    rw [hrest, List.length_append] at h
    dsimp only
    omega
  push h _ _ _ hrest _ _ := h.push hrest _

end Scan

/-- The string literals of a text are together within its length. -/
theorem Lexed.ofText_within (text : List Char) : (Lexed.ofText text).Within text.length := by
  refine (Scan.kept_within text.length).run ?_ _ _
  simp [Scan.State.Within, stringTotal]

end ContextLint.Source
