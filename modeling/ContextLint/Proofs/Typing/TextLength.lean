import Mathlib.Data.List.Flatten
import ContextLint.Proofs.Source.InheritedStatements
import ContextLint.Proofs.Source.Literals
import ContextLint.Proofs.Text.Lines
import ContextLint.Typing.Annotation

/-!
# Texts inside texts are shorter

A text that stands in an expression is written between quotes, so it is shorter than the text of the
expression.
-/

namespace ContextLint.Source.Grammar

open Source.Parser Typing

variable {l : Lexed} {n : Nat}

/-- One round of reading adjacent string literals. -/
def stringRound (ts : List Token) : Parser (Round (List Token) (List Token)) := do
  let t ← peek
  if t.kind == .string then advance; return .again (t :: ts) else return .leave ts.reverse

/-- A string literal that is read is the next token; there is none behind the end. -/
theorem stringRound_eq_some (hl : l.Within n) {ts : List Token} {c c' : Cursor}
    {outcome : Round (List Token) (List Token)} (h : stringRound ts l c = some (outcome, c')) :
    (∃ t, l.tokens[c.next]? = some t ∧ t.kind = .string ∧ outcome = .again (t :: ts) ∧
      c'.next = c.next + 1) ∨ outcome = .leave ts.reverse := by
  obtain ⟨t, mid, hpeek, hstep⟩ := exists_of_bind h
  obtain ⟨rfl, ht⟩ := peek_eq_some hpeek
  split at hstep
  · next hkind =>
    rw [beq_iff_eq] at hkind
    obtain ⟨rfl, rfl⟩ := Prod.mk.inj (Option.some.inj hstep)
    refine .inl ⟨t, ht.resolve_right fun ⟨hback, hfault⟩ => ?_, hkind, rfl, rfl⟩
    obtain ⟨t', hback', hfinish⟩ := hl.finish hfault
    obtain rfl := Option.some.inj (hback.symm.trans hback')
    rw [hkind] at hfinish
    cases hfinish
  · obtain ⟨rfl, -⟩ := Prod.mk.inj (Option.some.inj hstep)
    exact .inr rfl

/-- The literals read are string literals, each read once. -/
theorem iterate_stringRound (hl : l.Within n) (fuel : Nat) {ts found : List Token} {c c' : Cursor}
    (hts : ∀ t ∈ ts, t.kind = .string)
    (htotal : stringTotal ts ≤ stringTotal (l.tokens.toList.take c.next))
    (h : iterate stringRound fuel ts l c = some (found, c')) :
    (∀ t ∈ found, t.kind = .string) ∧ stringTotal found ≤ n := by
  induction fuel generalizing ts c with
  | zero => cases h
  | succ fuel ih =>
    obtain ⟨outcome, mid, hround, hrest⟩ := exists_of_bind h
    rcases stringRound_eq_some hl hround with ⟨t, ht, hkind, rfl, hnext⟩ | rfl
    · refine ih (List.forall_mem_cons.mpr ⟨hkind, hts⟩) ?_ hrest
      have ht' : l.tokens.toList[c.next]? = some t := by simpa using ht
      rw [hnext, List.take_add_one, ht']
      simp only [stringTotal, Option.toList_some, List.flatMap_append, List.flatMap_cons,
        List.flatMap_nil, List.length_append] at htotal ⊢
      omega
    · obtain ⟨rfl, -⟩ := Prod.mk.inj (Option.some.inj hrest)
      have htake : stringTotal (l.tokens.toList.take c.next) ≤ stringTotal l.tokens.toList :=
        ((List.take_sublist _ _).flatMap _).length_le
      refine ⟨fun t ht => hts t (List.mem_reverse.mp ht), ?_⟩
      exact ((List.reverse_perm ts).flatMap_right _).length_eq.trans_le
        (htotal.trans (htake.trans hl.total))

/-- The texts in the expression are shorter than the length, or empty. -/
def Short (n : Nat) (e : Expr) : Prop := longestText e ≤ n - 1

variable {r : Rules}

private theorem strings_short (hl : l.Within n) : Delivers l (strings r) (Short n) := by
  refine .seq fun start => ?_
  refine Delivers.bind (P := fun ts => (∀ t ∈ ts, t.kind = .string) ∧ stringTotal ts ≤ n) ?_ ?_
  · intro c found c' h
    exact iterate_stringRound hl _ (by simp) (Nat.zero_le _) h
  · rintro ts ⟨hstring, htotal⟩
    dsimp only
    split
    · exact .seq fun nodes => .seq fun site => .pure (Nat.zero_le _)
    · next hplain =>
      have hpieces := Interpolation.textTotal_adjacentPieces r.characters hstring
        (by simpa using hplain)
      split
      · refine .seq fun site => .pure ?_
        split <;> exact Nat.zero_le _
      · next points hpoints =>
        refine .seq fun site => .pure ?_
        split
        · exact Nat.zero_le _
        · rw [hpoints] at hpieces
          simp only [Interpolation.textTotal] at hpieces
          simp only [Short, longestText]
          omega
      · exact .miss

/-- A display is short if its elements are. -/
theorem short_sequence {site : Site} {kind : SequenceKind} {es : List Expr}
    (h : ∀ e ∈ es, Short n e) : Short n (.sequence site kind es) := by
  unfold Short longestText
  induction es with
  | nil => exact Nat.zero_le _
  | cons e rest ih =>
    rw [List.forall_mem_cons] at h
    exact max_le h.1 (ih h.2)

/-- String literals apart, an expression is short if its parts are. -/
theorem short_of_parts {e : Expr} (hplain : e.isText = false) (h : ∀ c ∈ e.children, Short n c) :
    Short n e := by
  cases e with
  | constant site value =>
    cases value with
    | str points => cases hplain
    | _ => exact Nat.zero_le _
  | sequence site kind elements => exact short_sequence h
  | binary site op left right =>
    exact max_le (h left (by simp [Expr.children])) (h right (by simp [Expr.children]))
  | subscript site value slice => exact h slice (by simp [Expr.children])
  | _ => exact Nat.zero_le _

/-- Expressions inherit from their parts to be short. -/
theorem short_inherited (n : Nat) : Inherited (fun _ => True) (Lexed.Within n) (Short n) where
  token _ _ _ := trivial
  node _ hplain hparts := short_of_parts hplain hparts
  strings hl _ := strings_short hl

end ContextLint.Source.Grammar

namespace ContextLint.Typing

open Source

/-- The texts in an expression are shorter than the text of the expression, or empty. -/
theorem longestText_le_of_parseExpression? {characters : CharacterNames} {text : List Char}
    {e : Expr} (h : parseExpression? characters text = some e) :
    longestText e ≤ text.length - 1 := by
  have hlexed := Lexed.ofText_within (Text.unifyNewlines text)
  have hinherited := Grammar.short_inherited (Text.unifyNewlines text).length
  have hrules := Grammar.rules_deliver hinherited characters
    (nestingBound (Text.unifyNewlines text).length)
  have hlone := (Grammar.Reading.mk hinherited hlexed hrules).lone
  simp only [parseExpression?, Parser.run, Option.map_eq_some_iff] at h
  obtain ⟨⟨e', c⟩, hrun, rfl⟩ := h
  have hshort : longestText e' ≤ (Text.unifyNewlines text).length - 1 := hlone _ e' c hrun
  have hlength := Text.length_unifyNewlines_le text
  exact hshort.trans (Nat.sub_le_sub_right hlength 1)

end ContextLint.Typing
