import ContextLint.Comment.Directive
import ContextLint.Proofs.Text.Trim

/-!
# The grammar of directives

A directive is a comment that starts with the keyword and a colon behind hash signs. The rest of it
lists rules up to the next hash sign. The grammar says so without the parser: where blank characters
may stand, which characters divide, and which pieces count. The parser accepts exactly the comments
of the grammar and returns the rules that they list.
-/

namespace ContextLint.Comment

open Text

/-- The rules that stand in the pieces, one in each piece that is not blank. -/
inductive Holds : List (List Char) → List (List Char) → Prop
  | nil : Holds [] []
  /-- A blank piece holds no rule. -/
  | blank {piece pieces rules} (hpiece : Blank piece)
      (hrest : Holds pieces rules) : Holds (piece :: pieces) rules
  /-- Blank characters may stand around a rule. -/
  | rule {before rule after pieces rules} (hbefore : Blank before)
      (hrule : Trimmed rule) (hne : rule ≠ []) (hafter : Blank after)
      (hrest : Holds pieces rules) : Holds ((before ++ (rule ++ after)) :: pieces) (rule :: rules)

/-- The body of a directive: pieces divided by commas, then perhaps a hash sign and an
explanation. -/
inductive Lists : List Char → List (List Char) → Prop
  | mk {pieces rules explanation} (hne : pieces ≠ [])
      (hcomma : ∀ piece ∈ pieces, ',' ∉ piece) (hhash : ∀ piece ∈ pieces, '#' ∉ piece)
      (hexplanation : ∀ c ∈ explanation.head?, c = '#') (hpieces : Holds pieces rules) :
      Lists ([','].intercalate pieces ++ explanation) rules

/-- A comment that is a directive, with the rules that it lists: hash signs, the keyword, a colon
and a body that lists a rule, with blank characters before the hash signs and on both sides of
the keyword. -/
inductive Directs (keyword : List Char) : List Char → List (List Char) → Prop
  | mk {lead gap pad body hashes rules}
      (hlead : Blank lead) (hgap : Blank gap) (hpad : Blank pad) (hbody : Lists body rules)
      (hrules : rules ≠ []) :
      Directs keyword
        (lead ++ (List.replicate hashes '#' ++ (gap ++ (keyword ++ (pad ++ ':' :: body))))) rules

section Body

variable {parts rules : List (List Char)} {body w : List Char}

private theorem pieces_eq_splitOn (divider : Char) (cs : List Char) :
    pieces divider cs = cs.splitOn divider := by
  induction cs with
  | nil => rfl
  | cons c rest ih =>
    rw [pieces, List.splitOn_cons_eq_if_modifyHead, ih]
    by_cases hc : c = divider
    · simp [hc]
    · cases hrest : rest.splitOn divider with
      | nil => exact absurd hrest (List.splitOn_ne_nil _ _)
      | cons piece more => simp [hc]

/-- What stands behind a text without a divider belongs to the last piece. -/
theorem exists_last_piece (divider : Char) (cs : List Char) :
    ∃ front last, ∀ w, divider ∉ w → pieces divider (cs ++ w) = front ++ [last ++ w] := by
  simp only [pieces_eq_splitOn]
  induction cs with
  | nil => exact ⟨[], [], fun w hw => List.splitOn_eq_singleton hw⟩
  | cons c cs ih =>
    obtain ⟨front, last, ih⟩ := ih
    by_cases hc : c = divider
    · refine ⟨[] :: front, last, fun w hw => ?_⟩
      simp [List.splitOn_cons_eq_if_modifyHead, hc, ih w hw]
    · cases front with
      | nil =>
        refine ⟨[], c :: last, fun w hw => ?_⟩
        simp [List.splitOn_cons_eq_if_modifyHead, hc, ih w hw]
      | cons piece front =>
        refine ⟨(c :: piece) :: front, last, fun w hw => ?_⟩
        simp [List.splitOn_cons_eq_if_modifyHead, hc, ih w hw]

/-- Blank characters behind a body do not matter. -/
theorem ruleNames_append (hw : Blank w) (body : List Char) :
    ruleNames (body ++ w) = ruleNames body := by
  have hhash : w.takeWhile (· ≠ '#') = w := List.takeWhile_eq_self_iff.mpr fun c hc =>
    decide_eq_true fun h => hw.not_mem (c := '#') (by decide) (h ▸ hc)
  unfold ruleNames
  rw [List.takeWhile_append, hhash]
  split
  · next hlength =>
    have hbody : body.takeWhile (· ≠ '#') = body :=
      (List.takeWhile_prefix _).eq_of_length hlength
    obtain ⟨front, last, hpieces⟩ := exists_last_piece ',' body
    have hlast := hpieces [] List.not_mem_nil
    rw [List.append_nil, List.append_nil] at hlast
    rw [hbody, hpieces w (hw.not_mem (by decide)), hlast]
    simp only [List.map_append, List.map_singleton, trim_append_right hw]
  · rfl

private theorem holds_iff : Holds parts rules ↔ (parts.map trim).filter (!·.isEmpty) = rules := by
  constructor
  · intro h
    induction h with
    | nil => rfl
    | blank hpiece hrest ih => simp [trim_eq_nil_iff.mpr hpiece, ih]
    | @rule before rule after pieces rules hbefore hrule hne hafter hrest ih =>
      have htrim : trim (before ++ (rule ++ after)) = rule := by
        rw [trim_append_left hbefore, trim_append_right hafter, hrule]
      simp [htrim, hne, ih]
  · rintro rfl
    induction parts with
    | nil => exact .nil
    | cons piece more ih =>
      by_cases hpiece : Blank piece
      · rw [List.map_cons, trim_eq_nil_iff.mpr hpiece]
        exact .blank hpiece ih
      · have hne : trim piece ≠ [] := mt trim_eq_nil_iff.mp hpiece
        obtain ⟨before, after, hbefore, hafter, hsplit⟩ := exists_trim piece
        rw [List.map_cons, List.filter_cons_of_pos (by simpa using hne)]
        generalize htrim : trim piece = rule at hne hsplit
        rw [hsplit]
        exact .rule hbefore (htrim ▸ trimmed_trim piece) hne hafter ih

private theorem not_mem_intercalate_iff {divider c : Char} (hc : c ≠ divider) :
    c ∉ [divider].intercalate parts ↔ ∀ piece ∈ parts, c ∉ piece := by
  induction parts with
  | nil => simp
  | cons piece more ih =>
    cases more with
    | nil => rw [List.intercalate_singleton, List.forall_mem_singleton]
    | cons next more =>
      simp only [List.intercalate_cons_cons, List.mem_append, List.mem_singleton, hc, or_false,
        not_or, ih, List.forall_mem_cons]

private theorem not_mem_of_mem_pieces {divider : Char} (cs : List Char) :
    ∀ piece ∈ pieces divider cs, divider ∉ piece := by
  fun_induction pieces divider cs with
  | case1 => simp
  | case2 rest ih => exact List.forall_mem_cons.mpr ⟨List.not_mem_nil, ih⟩
  | case3 c rest hc hpieces ih => simp [Ne.symm hc]
  | case4 c rest hc piece more hpieces ih =>
    rw [hpieces, List.forall_mem_cons] at ih
    exact List.forall_mem_cons.mpr ⟨by simp [Ne.symm hc, ih.1], ih.2⟩

/-- A body lists the rules that are read from it. -/
theorem lists_iff : Lists body rules ↔ ruleNames body = rules := by
  constructor
  · rintro @⟨pieces, _, explanation, hne, hcomma, hhash, hexplanation, hpieces⟩
    have hlisted : ∀ c ∈ [','].intercalate pieces, decide (c ≠ '#') = true := fun c hc =>
      decide_eq_true fun h => (not_mem_intercalate_iff (by decide)).mpr hhash (h ▸ hc)
    have hend : explanation.takeWhile (· ≠ '#') = [] := by
      cases explanation with
      | nil => rfl
      | cons c rest => simp [hexplanation c rfl]
    rw [ruleNames, List.takeWhile_append_of_pos hlisted, hend, List.append_nil, pieces_eq_splitOn,
      List.splitOn_intercalate _ hcomma hne, holds_iff.mp hpieces]
  · rintro rfl
    have hsplit : body = [','].intercalate (pieces ',' (body.takeWhile (· ≠ '#'))) ++
        body.dropWhile (· ≠ '#') := by
      rw [pieces_eq_splitOn, List.intercalate_splitOn, List.takeWhile_append_dropWhile]
    have hlisted : '#' ∉ [','].intercalate (pieces ',' (body.takeWhile (· ≠ '#'))) := by
      rw [pieces_eq_splitOn, List.intercalate_splitOn]
      exact fun hmem => absurd (List.mem_takeWhile_imp hmem) (by decide)
    have hend : ∀ c ∈ (body.dropWhile (· ≠ '#')).head?, c = '#' := by
      intro c hc
      have hstop := List.head?_dropWhile_not (· ≠ '#') body
      rw [Option.mem_def.mp hc] at hstop
      simpa using hstop
    have hne : pieces ',' (body.takeWhile (· ≠ '#')) ≠ [] := by
      rw [pieces_eq_splitOn]
      exact List.splitOn_ne_nil _ _
    have hlists := Lists.mk hne (not_mem_of_mem_pieces _)
      ((not_mem_intercalate_iff (by decide)).mp hlisted) hend (holds_iff.mpr rfl)
    rwa [← hsplit] at hlists

end Body

section Comments

variable {keyword comment : List Char} {rules : List (List Char)}

/-- A text is what stands behind its hash signs. -/
private theorem exists_hashes (cs : List Char) :
    ∃ hashes, cs = List.replicate hashes '#' ++ cs.dropWhile (· == '#') := by
  have hhashes : cs.takeWhile (· == '#') =
      List.replicate (cs.takeWhile (· == '#')).length '#' :=
    List.eq_replicate_of_mem fun c hc => by simpa using List.mem_takeWhile_imp hc
  refine ⟨(cs.takeWhile (· == '#')).length, ?_⟩
  rw [← hhashes, List.takeWhile_append_dropWhile]

/-- A comment is its content behind hash signs and blank characters. -/
theorem exists_content (comment : List Char) :
    ∃ lead hashes gap after, Blank lead ∧ Blank gap ∧ Blank after ∧
      comment = lead ++ (List.replicate hashes '#' ++ (gap ++ (content comment ++ after))) := by
  obtain ⟨lead, behind, hlead, hbehind, hcomment⟩ := exists_trim comment
  obtain ⟨hashes, hhashes⟩ := exists_hashes (trim comment)
  obtain ⟨gap, after, hgap, hafter, hrest⟩ := exists_trim ((trim comment).dropWhile (· == '#'))
  refine ⟨lead, hashes, gap, after ++ behind, hlead, hgap, hafter.append hbehind, ?_⟩
  unfold content
  calc comment
    _ = lead ++ (trim comment ++ behind) := hcomment
    _ = lead ++ (List.replicate hashes '#' ++ (trim comment).dropWhile (· == '#') ++ behind) := by
        rw [← hhashes]
    _ = lead ++ (List.replicate hashes '#' ++
          (gap ++ (trim ((trim comment).dropWhile (· == '#')) ++ after)) ++ behind) := by
        rw [← hrest]
    _ = _ := by simp only [List.append_assoc]

/-- The content of a comment is what follows the hash signs and blank characters. -/
theorem content_eq {lead gap cs : List Char} {c : Char} (hlead : Blank lead) (hgap : Blank gap)
    (hc : isBlank c = false) (hhash : c ≠ '#') (hashes : Nat) :
    content (lead ++ (List.replicate hashes '#' ++ (gap ++ c :: cs))) = c :: trimRight cs := by
  have hcore : trim (c :: trimRight cs) = c :: trimRight cs := by
    have htrim := trimmed_trim (c :: cs)
    rwa [trim_cons hc] at htrim
  rw [content, trim_append_left hlead]
  cases hashes with
  | zero =>
    rw [List.replicate_zero, List.nil_append, trim_append_left hgap, trim_cons hc,
      List.dropWhile_cons_of_neg (by simpa using hhash), hcore]
  | succ hashes =>
    have htrim : trim (List.replicate (hashes + 1) '#' ++ (gap ++ c :: cs)) =
        List.replicate (hashes + 1) '#' ++ (gap ++ c :: trimRight cs) := by
      rw [List.replicate_succ, List.cons_append, trim, trimLeft_cons (by decide),
        ← List.append_assoc, ← List.cons_append, trimRight_append_cons hc, List.cons_append,
        List.append_assoc, List.cons_append]
    have hhead : (gap ++ c :: trimRight cs).head? ≠ some '#' := by
      cases gap with
      | nil => simpa using hhash
      | cons d gap =>
        have hd : '#' ∉ d :: gap := hgap.not_mem (by decide)
        simpa using Ne.symm (List.ne_of_not_mem_cons hd)
    rw [htrim, List.dropWhile_append_of_pos (by simp),
      List.dropWhile_beq_eq_self_of_head?_ne hhead, trim_append_left hgap, hcore]

/-- Behind the keyword a directive has a colon and a body from which a rule is read. -/
theorem parseDirective_eq_some :
    parseDirective keyword comment = some rules ↔
      ∃ pad body, Blank pad ∧ content comment = keyword ++ (pad ++ ':' :: body) ∧
        ruleNames body = rules ∧ rules ≠ [] := by
  unfold parseDirective
  constructor
  · intro h
    dsimp only at h
    split at h
    · next hkeyword =>
      obtain ⟨rest, hrest⟩ := List.isPrefixOf_iff_prefix.mp hkeyword
      rw [← hrest, List.drop_left] at h
      obtain ⟨pad, hpad, hpadded⟩ := exists_trimLeft rest
      split at h
      · next body hbody =>
        rw [hbody] at hpadded
        refine ⟨pad, body, hpad, by rw [← hpadded, hrest], ?_⟩
        split at h
        · cases h
        · next hne =>
          obtain rfl := Option.some.inj h
          exact ⟨rfl, hne⟩
      · cases h
    · cases h
  · rintro ⟨pad, body, hpad, hcontent, rfl, hne⟩
    have hcolon : trimLeft (pad ++ ':' :: body) = ':' :: body := by
      rw [trimLeft_append hpad, trimLeft_cons (by decide)]
    have hkeyword : keyword.isPrefixOf (content comment) = true := by
      rw [hcontent]
      exact List.isPrefixOf_iff_prefix.mpr (List.prefix_append _ _)
    obtain ⟨rule, rest, hrules⟩ := List.exists_cons_of_ne_nil hne
    rw [if_pos hkeyword, hcontent, List.drop_left, hcolon]
    simp only [hrules]

/-- A word that can introduce directives. It could not be told from blank characters or hash signs
before it if it started with one. -/
structure IsKeyword (keyword : List Char) : Prop where
  ne_nil : keyword ≠ []
  trimmed : Trimmed keyword
  head_ne : keyword.head? ≠ some '#'

/-- The parser accepts the comments of the grammar and returns the rules that they list. -/
theorem parseDirective_eq_some_iff (hkeyword : IsKeyword keyword) :
    parseDirective keyword comment = some rules ↔ Directs keyword comment rules := by
  rw [parseDirective_eq_some]
  constructor
  · rintro ⟨pad, body, hpad, hcontent, hbody, hrules⟩
    obtain ⟨lead, hashes, gap, after, hlead, hgap, hafter, hcomment⟩ := exists_content comment
    have hlists : Lists (body ++ after) rules :=
      lists_iff.mpr ((ruleNames_append hafter _).trans hbody)
    rw [hcontent, List.append_assoc, List.append_assoc, List.cons_append] at hcomment
    rw [hcomment]
    exact .mk hlead hgap hpad hlists hrules
  · rintro @⟨lead, gap, pad, body, hashes, _, hlead, hgap, hpad, hbody, hrules⟩
    obtain ⟨c, rest, rfl⟩ := List.exists_cons_of_ne_nil hkeyword.ne_nil
    have hhash : c ≠ '#' := by simpa using hkeyword.head_ne
    obtain ⟨after, hafter, hsplit⟩ := exists_trimRight body
    refine ⟨pad, trimRight body, hpad, ?_, ?_, hrules⟩
    · rw [List.cons_append, content_eq hlead hgap hkeyword.trimmed.head hhash, ← List.append_assoc,
        trimRight_append_cons (by decide), List.append_assoc, List.cons_append]
    · rw [← ruleNames_append hafter, ← hsplit, lists_iff.mp hbody]

end Comments

/-- A rule as it is written in a list, with blank characters around it. -/
structure ListedRule where
  /-- Blank characters in front. -/
  before : List Char
  rule : List Char
  /-- Blank characters behind. -/
  after : List Char
  blank_before : Blank before
  blank_after : Blank after
  trimmed : Trimmed rule
  ne_nil : rule ≠ []
  no_comma : ',' ∉ rule
  no_hash : '#' ∉ rule

namespace ListedRule

/-- The rule with the blank characters. -/
def text (r : ListedRule) : List Char := r.before ++ (r.rule ++ r.after)

private theorem not_mem_text (r : ListedRule) {c : Char} (hc : isBlank c = false)
    (hrule : c ∉ r.rule) : c ∉ r.text := by
  simp [text, r.blank_before.not_mem hc, hrule, r.blank_after.not_mem hc]

end ListedRule

/-- A way to write a directive. -/
structure Writing where
  /-- Blank characters in front. -/
  lead : List Char
  /-- The number of hash signs. -/
  hashes : Nat
  /-- Blank characters before the keyword. -/
  gap : List Char
  /-- Blank characters between the keyword and the colon. -/
  pad : List Char
  /-- The rules, of which there is one. -/
  listed : List ListedRule
  /-- The explanation behind a further hash sign, if there is one. -/
  explanation : Option (List Char)
  blank_lead : Blank lead
  blank_gap : Blank gap
  blank_pad : Blank pad
  ne_nil : listed ≠ []

namespace Writing

/-- The rules of the directive. -/
def rules (w : Writing) : List (List Char) := w.listed.map ListedRule.rule

/-- What stands behind the colon. -/
def body (w : Writing) : List Char :=
  [','].intercalate (w.listed.map ListedRule.text) ++ w.explanation.elim [] ('#' :: ·)

/-- The written directive. -/
def text (w : Writing) (keyword : List Char) : List Char :=
  w.lead ++ (List.replicate w.hashes '#' ++ (w.gap ++ (keyword ++ (w.pad ++ ':' :: w.body))))

private theorem lists_body (w : Writing) : Lists w.body w.rules := by
  refine .mk (by simpa using w.ne_nil) ?_ ?_ ?_ ?_
  · exact List.forall_mem_map.mpr fun r _ => r.not_mem_text (by decide) r.no_comma
  · exact List.forall_mem_map.mpr fun r _ => r.not_mem_text (by decide) r.no_hash
  · cases w.explanation with
    | none | some explanation => simp
  · unfold rules
    induction w.listed with
    | nil => exact .nil
    | cons r rest ih => exact .rule r.blank_before r.trimmed r.ne_nil r.blank_after ih

/-- However a directive is written, it is one of the grammar and lists its rules. -/
theorem directs_text (w : Writing) (keyword : List Char) :
    Directs keyword (w.text keyword) w.rules :=
  .mk w.blank_lead w.blank_gap w.blank_pad w.lists_body (by simpa [rules] using w.ne_nil)

end Writing

/-- The parser accepts exactly the comments of the grammar, returns the rules that they list, and
nothing for any other comment. So a directive gives back the rules with which it was written, with
however many hash signs, blank characters and whatever explanation, and suppresses these rules and
no others. -/
theorem directives_read_as_written {keyword : List Char} (hkeyword : IsKeyword keyword) :
    (∀ comment rules, parseDirective keyword comment = some rules ↔ Directs keyword comment rules) ∧
    (∀ comment, parseDirective keyword comment = none ↔ ∀ rules, ¬ Directs keyword comment rules) ∧
    ∀ w : Writing, parseDirective keyword (w.text keyword) = some w.rules ∧
      ∀ rule, suppresses keyword rule (w.text keyword) = true ↔ rule ∈ w.rules := by
  refine ⟨fun comment rules => parseDirective_eq_some_iff hkeyword, fun comment => ?_, fun w => ?_⟩
  · simp only [← parseDirective_eq_some_iff hkeyword, ← Option.eq_none_iff_forall_ne_some]
  · have hread : parseDirective keyword (w.text keyword) = some w.rules :=
      (parseDirective_eq_some_iff hkeyword).mpr (w.directs_text keyword)
    refine ⟨hread, fun rule => ?_⟩
    rw [suppresses, hread, List.contains_iff_mem]

namespace TwoRules

/-- The usual keyword. -/
def keyword : List Char := "nolint".toList

/-- `first` without blank characters and ` second\t`, behind two hash signs and with an
explanation that has a comma and a hash sign of its own. -/
def writing : Writing where
  lead := [' ']
  hashes := 2
  gap := ['\t']
  pad := [' ']
  listed :=
    [⟨[], "first".toList, [], by decide, by decide, by decide, by decide, by decide, by decide⟩,
     ⟨[' '], "second".toList, ['\t'], by decide, by decide, by decide, by decide, by decide,
      by decide⟩]
  explanation := some " see first, # third".toList
  blank_lead := by decide
  blank_gap := by decide
  blank_pad := by decide
  ne_nil := by decide

/-- The two rules are read back, and the one named in the explanation is not suppressed. -/
theorem rules_read_back : IsKeyword keyword ∧
    parseDirective keyword " ##\tnolint :first, second\t# see first, # third".toList =
      some ["first".toList, "second".toList] ∧
    suppresses keyword "second".toList
      " ##\tnolint :first, second\t# see first, # third".toList = true ∧
    ¬ suppresses keyword "third".toList
      " ##\tnolint :first, second\t# see first, # third".toList = true := by
  have hkeyword : IsKeyword keyword := ⟨by decide, by decide, by decide⟩
  have htext : writing.text keyword =
      " ##\tnolint :first, second\t# see first, # third".toList := by decide
  obtain ⟨-, -, hwriting⟩ := directives_read_as_written hkeyword
  obtain ⟨hread, hsuppresses⟩ := hwriting writing
  rw [htext] at hread hsuppresses
  exact ⟨hkeyword, hread, (hsuppresses _).mpr (by decide), mt (hsuppresses _).mp (by decide)⟩

end TwoRules

end ContextLint.Comment
