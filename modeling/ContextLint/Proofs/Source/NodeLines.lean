import ContextLint.Proofs.Source.FieldLines
import ContextLint.Proofs.Source.InheritedStatements
import ContextLint.Proofs.Source.Numbering
import ContextLint.Proofs.Text.Lines

/-!
# Lines of expressions

An expression starts where its first token starts. So every expression of a module starts on a line
of the text of the module, those inside string literals included: the tokens of a replacement field
are on lines of its literal.
-/

namespace ContextLint.Source

/-- Every expression inside the expression starts on a line of the set. -/
def Expr.On (lines : Nat → Prop) (e : Expr) : Prop := ∀ n ∈ e.nodes, lines n.span.line

variable {lines : Nat → Prop}

private theorem Expr.On.node {e : Expr} (hline : lines e.span.line)
    (hparts : ∀ c ∈ e.children, c.On lines) : e.On lines := by
  intro n hn
  rcases mem_nodes_iff.mp hn with rfl | ⟨c, hc, hn⟩
  · exact hline
  · exact hparts c hc n hn

open Source.Parser

variable {line col : Nat} {source : List Char} {l : Lexed}

namespace Interpolation

/-- The tokens of a replacement field are on the lines of the field. -/
theorem fieldTokens_on (h : Covers lines line source) (hl : fieldTokens? line col source = some l) :
    l.On lines := by
  unfold fieldTokens? at hl
  split at hl
  · cases hl
  · obtain rfl := Option.some.inj hl
    have hend : ('(' :: source ++ [')', '\n']).getLast? = some '\n' :=
      List.getLast?_append_cons _ _ _
    have hends : lineEnds ('(' :: source ++ [')', '\n']) = lineEnds source + 1 := by
      simp [lineEnds, List.count_append]
    exact Lexed.ofFragment_on (fun k hk => h k (by omega)) hend col

variable {expression : Parser Expr}
  (hexpression : ∀ {l : Lexed}, l.On lines → Delivers l expression (Expr.On lines)) {l : Lexed}

include hexpression

private theorem fieldValue_on (h : Covers lines line source) :
    Delivers l (fieldValue expression line col source) (Expr.On lines) := by
  intro c e c' hrun
  unfold fieldValue at hrun
  split at hrun
  · cases hrun
  · next tokens htokens =>
    simp only [Parser.run, Option.map_map, Option.map_eq_some_iff] at hrun
    obtain ⟨⟨e', c''⟩, hrun, heq⟩ := hrun
    obtain ⟨rfl, -⟩ := Prod.mk.inj heq
    exact hexpression (fieldTokens_on h htokens) _ _ _ hrun

variable {span : Parser Site}

omit hexpression in
/-- The parts of a literal are on lines of the set if each of them is. -/
theorem nodes_on {ps : List Piece}
    (h : ∀ p ∈ ps, Delivers l (node expression span p) (Expr.On lines)) :
    Delivers l (nodes expression span ps) fun es => ∀ e ∈ es, e.On lines := by
  induction ps with
  | nil => exact .pure (by simp)
  | cons p rest ih =>
    obtain ⟨hp, hrest⟩ := List.forall_mem_cons.mp h
    refine hp.bind fun e he => (ih hrest).bind fun es hes => .pure ?_
    exact List.forall_mem_cons.mpr ⟨he, hes⟩

private theorem node_on (hspan : Delivers l span fun s => lines s.span.line) {p : Piece}
    (h : p.Covered lines) : Delivers l (node expression span p) (Expr.On lines) := by
  induction h with
  | text points => exact hspan.bind fun s hs => .pure (.node hs (List.forall_mem_nil _))
  | @field line col source format hsource _ ih =>
    have hvalue : Delivers l (fieldValue expression line col source) (Expr.On lines) :=
      fieldValue_on hexpression hsource
    cases format with
    | none =>
      exact hvalue.bind fun e he => hspan.bind fun s hs =>
        .pure (.node hs (List.forall_mem_singleton.mpr he))
    | some pieces =>
      refine hvalue.bind fun e he => (nodes_on (ih pieces rfl)).bind fun parts hparts => ?_
      refine hspan.bind fun s hs => hspan.bind fun s' hs' => .pure (.node hs ?_)
      have hformat : Expr.On lines (.compound s' .joinedStr parts) := .node hs' hparts
      simp [Expr.children, he, hformat]
  | broken => exact .miss

end Interpolation

namespace Grammar

private theorem strings_on {r : Rules} (hl : l.On lines)
    (hr : ∀ {l : Lexed}, l.On lines → Delivers l (starExpressions r) (Expr.On lines)) :
    Delivers l (strings r) (Expr.On lines) := by
  have hpeek : Delivers l peek (Token.On lines) := by
    intro c t c' h
    rcases (peek_eq_some h).2 with ht | ⟨ht, -⟩
    · exact hl t (Array.mem_of_getElem? ht)
    · exact hl t (Array.mem_of_back? ht)
  refine (hpeek.bind fun t ht => .pure ht.start : Delivers l here fun s => lines s.line).bind
    fun start hstart => ?_
  refine Delivers.bind (P := fun ts => ∀ t ∈ ts, t.On lines ∧ t.kind = .string) ?_
    fun ts hts => ?_
  · refine Delivers.loop (I := fun ts => ∀ t ∈ ts, t.On lines ∧ t.kind = .string)
      (fun ts hts => hpeek.bind fun t ht => ?_) (by simp)
    split
    · next hkind =>
      exact .seq fun _ => .pure (List.forall_mem_cons.mpr ⟨⟨ht, beq_iff_eq.mp hkind⟩, hts⟩)
    · exact .pure (forall_mem_reverse hts)
  · have hpieces := Interpolation.adjacentPieces_covered r.characters hts
    have hconstant (value : Constant) :
        Delivers l (do return .constant (← site start) value) (Expr.On lines) :=
      (site_delivers hstart).bind fun s hs => .pure (.node hs (List.forall_mem_nil _))
    dsimp only
    split
    · refine (Interpolation.nodes_on fun p hp => Interpolation.node_on hr (site_delivers hstart)
        (hpieces p hp)).bind fun parts hparts => ?_
      exact (site_delivers hstart).bind fun s hs => .pure (.node hs hparts)
    · split
      · exact hconstant _
      · exact hconstant _
      · exact .miss

/-- Expressions inherit from their parts to be on lines of a set. -/
theorem on_inherited (lines : Nat → Prop) :
    Inherited lines (Lexed.On lines) (Expr.On lines) where
  token hl t ht := (hl t ht).start
  node hline _ hparts := .node hline hparts
  strings hl hr := strings_on hl hr

end Grammar

private theorem lineEnds_unified {l : Text.Line} (h : l.Valid Text.isNewline) :
    lineEnds l.unified = if l.ending = [] then 0 else 1 := by
  have htext : '\n' ∉ l.text := fun hmem => absurd (h.text _ hmem) (by decide)
  rw [Text.Line.unified, lineEnds_append, lineEnds, List.count_eq_zero.mpr htext, Nat.zero_add]
  split
  · rfl
  · rfl

private theorem lineEnds_flatMap_unified {ls : List Text.Line}
    (hvalid : ∀ l ∈ ls, l.Valid Text.isNewline)
    (hended : ∀ l ∈ ls, l.ending ≠ []) : lineEnds (ls.flatMap Text.Line.unified) = ls.length := by
  induction ls with
  | nil => rfl
  | cons l rest ih =>
    rw [List.forall_mem_cons] at hvalid hended
    rw [List.flatMap_cons, lineEnds_append, lineEnds_unified hvalid.1, if_neg hended.1,
      ih hvalid.2 hended.2, List.length_cons, Nat.add_comm]

variable {text : List Char}

/-- Once its newlines are unified and its last line is ended, a text has a line feed for each of its
lines. -/
theorem lineEnds_endLastLine (h : text ≠ []) :
    lineEnds (endLastLine (Text.unifyNewlines text)) = (Text.sourceLines text).length := by
  have hvalid : ∀ l ∈ Text.sourceLines text, l.Valid Text.isNewline := Text.valid_of_mem_linesBy
  have hwhole : (Text.sourceLines text).flatMap Text.Line.whole = text :=
    Text.flatMap_whole_linesBy Text.isNewline text
  have hpairwise : (Text.sourceLines text).Pairwise fun l _ => l.ending ≠ [] :=
    Text.pairwise_ending Text.isNewline text
  rw [Text.unifyNewlines_eq]
  rcases List.eq_nil_or_concat (Text.sourceLines text) with hnil | ⟨above, last, hlines⟩
  · rw [hnil] at hwhole
    exact absurd hwhole.symm h
  rw [List.concat_eq_append] at hlines
  rw [hlines] at hvalid hpairwise ⊢
  obtain ⟨habove, hvalid⟩ := List.forall_mem_append.mp hvalid
  have hlast := List.forall_mem_singleton.mp hvalid
  have hended : ∀ l ∈ above, l.ending ≠ [] := fun l hl =>
    (List.pairwise_append.mp hpairwise).2.2 l hl last (List.mem_singleton_self _)
  have hcount : lineEnds ((above ++ [last]).flatMap Text.Line.unified) =
      above.length + if last.ending = [] then 0 else 1 := by
    rw [List.flatMap_append, lineEnds_append, lineEnds_flatMap_unified habove hended,
      List.flatMap_singleton, lineEnds_unified hlast]
  have hgetLast : ((above ++ [last]).flatMap Text.Line.unified).getLast? = some '\n' ↔
      last.ending ≠ [] := by
    rw [List.flatMap_append, List.flatMap_singleton, Text.Line.unified]
    by_cases hending : last.ending = []
    · have htext : last.text ≠ [] := by simpa [Text.Line.whole, hending] using hlast.ne_nil
      rw [if_pos hending, List.append_nil, List.getLast?_append_of_ne_nil _ htext]
      refine iff_of_false (fun hfeed => ?_) (not_not.mpr hending)
      exact absurd (hlast.text _ (List.mem_of_getLast? hfeed)) (by decide)
    · rw [if_neg hending, ← List.append_assoc]
      exact iff_of_true List.getLast?_concat hending
  rw [endLastLine, List.length_append, List.length_singleton]
  by_cases hending : last.ending = []
  · rw [if_neg (mt hgetLast.mp (not_not.mpr hending)), lineEnds_append, hcount, if_pos hending]
    rfl
  · rw [if_pos (hgetLast.mpr hending), hcount, if_neg hending]

variable {characters : CharacterNames} {m : Module} {n : Expr}

/-- The line of an expression of a module is the number of a line feed of the text, counted from
one. -/
theorem line_of_parseModule (h : parseModule characters text = .ok m) (hn : n ∈ m.nodes) :
    1 ≤ n.span.line ∧ n.span.line ≤ lineEnds (endLastLine (Text.unifyNewlines text)) := by
  unfold parseModule at h
  dsimp only at h
  have hend : (endLastLine (Text.unifyNewlines text)).getLast? = some '\n' := by
    unfold endLastLine
    split
    · assumption
    · exact List.getLast?_append_cons _ _ _
  generalize endLastLine (Text.unifyNewlines text) = whole at h hend ⊢
  have hinherited := Grammar.on_inherited fun k => 1 ≤ k ∧ k ≤ lineEnds whole
  have hlexed : (Lexed.ofText whole).On fun k => 1 ≤ k ∧ k ≤ lineEnds whole :=
    Lexed.ofFragment_on (fun k hk => by omega) hend 0
  split at h
  · next body hrun =>
    obtain rfl := Except.ok.inj h
    obtain ⟨⟨body, c⟩, hfile, rfl⟩ := Option.map_eq_some_iff.mp hrun
    have hrules := Grammar.rules_deliver hinherited characters (nestingBound whole.length)
    have hbody := (Grammar.Reading.mk hinherited hlexed hrules).file _ _ _ hfile
    obtain ⟨n, hn, hspan⟩ := Module.exists_span_eq hn
    rw [← hspan]
    rw [Module.nodes, Expr.nodesOf_eq_flatMap] at hn
    obtain ⟨e, he, hn⟩ := List.mem_flatMap.mp hn
    obtain ⟨s, hs, he⟩ := List.mem_flatMap.mp he
    exact hbody s hs e he n hn
  · cases h

/-- Every expression of a module starts on a line of the text, counted from one. -/
theorem exists_line_of_parseModule (h : parseModule characters text = .ok m) (hn : n ∈ m.nodes) :
    ∃ above line below, Text.sourceLines text = above ++ line :: below ∧
      n.span.line = above.length + 1 := by
  have htext : text ≠ [] := by
    rintro rfl
    have hempty : parseModule characters [] = .ok ⟨[], characters⟩ := rfl
    obtain rfl := Except.ok.inj (hempty.symm.trans h)
    cases hn
  have hline := line_of_parseModule h hn
  rw [lineEnds_endLastLine htext] at hline
  have hlt : n.span.line - 1 < (Text.sourceLines text).length := by omega
  refine ⟨(Text.sourceLines text).take (n.span.line - 1), (Text.sourceLines text)[n.span.line - 1],
    (Text.sourceLines text).drop (n.span.line - 1 + 1), ?_, ?_⟩
  · rw [List.cons_getElem_drop_succ, List.take_append_drop]
  · rw [List.length_take_of_le hlt.le]
    omega

end ContextLint.Source
