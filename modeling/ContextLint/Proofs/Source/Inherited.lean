import ContextLint.Proofs.Source.Delivers
import ContextLint.Proofs.Source.Nodes
import ContextLint.Source.Grammar.Statement

/-!
# Properties that expressions inherit from their parts

The grammar makes an expression from its parts, at a place that starts with one of its tokens; only
string literals are read in another way. So a property of string literals that an expression at such
a place inherits from its parts holds of every expression that the grammar delivers. The rules
contain each other, so the argument goes by the depth of nesting, rule by rule.
-/

namespace ContextLint.Source

/-- The expression is a text. -/
def Expr.isText : Expr → Bool
  | .constant _ (.str _) => true
  | _ => false

/-- All expressions of the pattern have the property. -/
def Pattern.Holds (P : Expr → Prop) (p : Pattern) : Prop := ∀ e ∈ p.expressions, P e

/-- All expressions of the statement have the property. -/
def Stmt.Holds (P : Expr → Prop) (s : Stmt) : Prop := ∀ e ∈ s.expressions, P e

namespace Grammar

open Source.Parser

/-- On certain sequences of tokens a property of expressions is inherited from their parts. -/
structure Inherited (lines : Nat → Prop) (tokens : Lexed → Prop) (P : Expr → Prop) : Prop where
  /-- The lines on which tokens start. -/
  token {l : Lexed} (hl : tokens l) : ∀ t ∈ l.tokens, lines t.span.line
  /-- An expression that starts on such a line, string literals apart. -/
  node {e : Expr} (hline : lines e.span.line) (hplain : e.isText = false)
    (hparts : ∀ c ∈ e.children, P c) : P e
  /-- A string literal with the expressions in its replacement fields. -/
  strings {l : Lexed} {r : Rules} (hl : tokens l)
    (hr : ∀ {l}, tokens l → Delivers l (starExpressions r) P) : Delivers l (strings r) P

/-- All expressions that the rules deliver have a property. -/
structure RulesDeliver (tokens : Lexed → Prop) (P : Expr → Prop) (r : Rules) : Prop where
  /-- Full expressions. -/
  expression {l : Lexed} (hl : tokens l) : Delivers l r.expression P
  /-- Negations and comparisons. -/
  inversion {l : Lexed} (hl : tokens l) : Delivers l r.inversion P
  /-- Signed operands. -/
  factor {l : Lexed} (hl : tokens l) : Delivers l r.factor P
  pattern {l : Lexed} (hl : tokens l) : Delivers l r.pattern (Pattern.Holds P)
  /-- Bodies of statements. -/
  block {l : Lexed} (hl : tokens l) : Delivers l r.block fun body => ∀ s ∈ body, s.Holds P

section Items

variable {α β : Type} {Q : α → Prop} {R : β → Prop} {l : Lexed} {p : Parser α}

/-- What holds of all items holds of them in reverse. -/
theorem forall_mem_reverse {items : List α} (h : ∀ a ∈ items, Q a) : ∀ a ∈ items.reverse, Q a :=
  fun a ha => h a (List.mem_reverse.mp ha)

/-- Items read one after the other. -/
theorem collected_delivers (hp : Delivers l p Q) (follows : Parser Bool) {found : List α}
    (hfound : ∀ a ∈ found, Q a) :
    Delivers l (loop (fun items => do
      if ← follows then return .again ((← p) :: items) else return .leave items.reverse) found)
      fun items => ∀ a ∈ items, Q a := by
  refine Delivers.loop (I := fun items => ∀ a ∈ items, Q a) (fun items hitems => ?_) hfound
  refine .test ?_ ?_
  · exact hp.bind fun a ha => .pure (List.forall_mem_cons.mpr ⟨ha, hitems⟩)
  · exact .pure (forall_mem_reverse hitems)

/-- An item of a list that needs a comma behind it or its end. -/
theorem separated_delivers {I : α → Prop} {a : α} (ha : I a) (close : Token → Bool) :
    Delivers l (do
      if ← accept (isOp ",") then return .again a
      else if ← next? close then return .again a
      else miss) (Round.Keeps I R) := by
  exact .test (.pure ha) (.test (.pure ha) .miss)

/-- A part that is read only if it is given. -/
theorem optional_delivers (given : Bool) (hp : Delivers l p Q) {f : Option α → Parser β}
    (hf : ∀ o, (∀ a ∈ o, Q a) → Delivers l (f o) R) :
    Delivers l (if given then some <$> p >>= f else Pure.pure none >>= f) R := by
  split
  · exact (hp.map (Q := fun o => ∀ a ∈ o, Q a) fun a ha => by simpa using ha).bind hf
  · exact hf none (by simp)

end Items

variable {lines : Nat → Prop} {tokens : Lexed → Prop} {P : Expr → Prop} {l : Lexed} {r : Rules}

/-- A new node starts where it is told to. -/
theorem site_delivers {start : Span} (hstart : lines start.line) :
    Delivers l (site start) fun s => lines s.span.line := by
  refine .seq fun finish => ?_
  intro c s c' h
  obtain ⟨rfl, -⟩ := Prod.mk.inj (Option.some.inj h)
  exact hstart

namespace Inherited

variable (hP : Inherited lines tokens P) {start : Span} (hstart : lines start.line) {f : Site → Expr}

include hP hstart

/-- A new node, string literals apart. -/
theorem made (hf : ∀ s, (f s).site = s ∧ (f s).isText = false)
    (hparts : ∀ s, ∀ c ∈ (f s).children, P c) : Delivers l (do return f (← site start)) P := by
  refine (site_delivers hstart).bind fun s hs => .pure (hP.node ?_ (hf s).2 (hparts s))
  rwa [Expr.span, (hf s).1]

/-- A new node around one expression. -/
theorem around {e : Expr} (hf : ∀ s, (f s).site = s ∧ (f s).isText = false ∧ (f s).children = [e])
    (he : P e) : Delivers l (do return f (← site start)) P :=
  hP.made hstart (fun s => ⟨(hf s).1, (hf s).2.1⟩) fun s => by simpa [(hf s).2.2] using he

/-- A new node without parts. -/
theorem leaf (hf : ∀ s, (f s).site = s ∧ (f s).isText = false ∧ (f s).children = []) :
    Delivers l (do return f (← site start)) P :=
  hP.made hstart (fun s => ⟨(hf s).1, (hf s).2.1⟩) fun s => by simp [(hf s).2.2]

end Inherited

private theorem Inherited.comprehension (hP : Inherited lines tokens P) {s : Site}
    (hs : lines s.span.line)
    {kind : ComprehensionKind} {elements : List Expr} (helements : ∀ e ∈ elements, P e)
    {gs : List Generator} (hgs : ∀ g ∈ gs, ∀ e ∈ Expr.clauseParts g, P e) :
    P (.comprehension s kind elements gs) :=
  hP.node hs rfl (List.forall_mem_append.mpr ⟨helements, List.forall_mem_flatMap.mpr hgs⟩)

/-- All items behind commas have the property. -/
theorem commaTail_delivers (hp : Delivers l p P) (starts : Token → Bool) {first : Expr}
    (hfirst : P first) : Delivers l (commaTail starts p first) fun x => ∀ e ∈ x.1, P e := by
  refine Delivers.loop (I := fun x => ∀ e ∈ x.1, P e) ?_ (List.forall_mem_singleton.mpr hfirst)
  rintro ⟨items, comma⟩ hitems
  refine .test ?_ ?_
  · refine .test ?_ ?_
    · exact hp.bind fun e he => .pure (List.forall_mem_cons.mpr ⟨he, hitems⟩)
    · exact .pure (forall_mem_reverse hitems)
  · exact .pure (forall_mem_reverse hitems)

/-- All expressions of a parameter list read so far have a property. -/
structure ParamState.Holds (P : Expr → Prop) (s : ParamState) : Prop where
  posOnly : ∀ p ∈ s.posOnly, ∀ e ∈ p.hint, P e
  regular : ∀ p ∈ s.regular, ∀ e ∈ p.hint, P e
  defaults : ∀ e ∈ s.defaults, P e
  vararg : ∀ p ∈ s.vararg, ∀ e ∈ p.hint, P e
  kwOnly : ∀ p ∈ s.kwOnly, ∀ e ∈ p.hint, P e
  kwDefaults : ∀ d ∈ s.kwDefaults, ∀ e ∈ d, P e
  kwarg : ∀ p ∈ s.kwarg, ∀ e ∈ p.hint, P e

private theorem ParamState.Holds.toParameters {s : ParamState} (h : s.Holds P) :
    ∀ e ∈ s.toParameters.expressions, P e := by
  have hhints {ps : List Param} (hps : ∀ p ∈ ps, ∀ e ∈ p.hint, P e) :
      ∀ e ∈ ps.filterMap Param.hint, P e := List.forall_mem_filterMap.mpr hps
  simp only [Parameters.expressions, ParamState.toParameters, List.forall_mem_append]
  refine ⟨⟨⟨⟨⟨⟨hhints ?_, hhints ?_⟩, hhints ?_⟩, hhints ?_⟩, ?_⟩, hhints ?_⟩, ?_⟩
  · exact forall_mem_reverse h.posOnly
  · exact forall_mem_reverse h.regular
  · exact fun p hp => h.vararg p (Option.mem_toList.mp hp)
  · exact forall_mem_reverse h.kwOnly
  · exact List.forall_mem_filterMap.mpr (forall_mem_reverse h.kwDefaults)
  · exact fun p hp => h.kwarg p (Option.mem_toList.mp hp)
  · exact forall_mem_reverse h.defaults

private theorem param_delivers {hint : Parser Expr} (hhint : Delivers l hint P) (annotated : Bool) :
    Delivers l (param annotated hint) fun p => ∀ e ∈ p.hint, P e := by
  refine .seq fun name => .test ?_ ?_
  · exact hhint.bind fun e he => .pure (by simpa using he)
  · exact .pure (by simp)

/-- The rules read certain tokens, and a property is inherited there. Then every parser of the
grammar delivers it; the lemma on a parser has its name. -/
structure Reading (lines : Nat → Prop) (tokens : Lexed → Prop) (P : Expr → Prop) (l : Lexed)
    (r : Rules) : Prop extends Inherited lines tokens P where
  /-- The tokens that are read. -/
  among : tokens l
  /-- The nested rules. -/
  rules : RulesDeliver tokens P r

namespace Reading

variable {p q : Parser Expr} (hr : Reading lines tokens P l r)

include hr

/-- The same rules on other tokens. -/
theorem onTokens {l' : Lexed} (hl : tokens l') : Reading lines tokens P l' r :=
  { hr with among := hl }

/-- A nested expression has the property. -/
theorem nested : Delivers l r.expression P := hr.rules.expression hr.among

/-- Patterns inside a pattern inherit the property. -/
theorem nestedPattern : Delivers l r.pattern (Pattern.Holds P) := hr.rules.pattern hr.among

private theorem peek : Delivers l peek fun t => lines t.span.line := by
  intro c t c' h
  rcases (peek_eq_some h).2 with ht | ⟨ht, -⟩
  · exact hr.token hr.among t (Array.mem_of_getElem? ht)
  · exact hr.token hr.among t (Array.mem_of_back? ht)

/-- A node starts on one of the lines. -/
protected theorem here : Delivers l here fun start => lines start.line :=
  hr.peek.bind fun _ ht => .pure ht

/-- A tuple inherits the property of its items. -/
protected theorem tupleOf (hp : Delivers l p P) (starts : Token → Bool) :
    Delivers l (tupleOf starts p) P := by
  refine hr.here.bind fun start hstart => hp.bind fun first hfirst => ?_
  refine (commaTail_delivers hp starts hfirst).bind fun x hx => ?_
  dsimp only
  split
  · exact hr.made hstart (fun _ => ⟨rfl, rfl⟩) fun _ => hx
  · exact .pure hfirst

private theorem leftAssoc (hp : Delivers l p P) (ops : List (String × BinaryOp)) :
    Delivers l (leftAssoc ops p) P := by
  refine hr.here.bind fun start hstart => hp.bind fun first hfirst => ?_
  refine Delivers.loop (I := P) (fun left hleft => .seq fun t => ?_) hfirst
  split
  · exact .pure hleft
  · refine .seq fun _ => hp.bind fun right hright => (site_delivers hstart).bind fun s hs => ?_
    exact .pure (hr.node hs rfl (by simp [Expr.children, hleft, hright]))

/-- Of several operands, only a single one is delivered as it is. -/
protected theorem single {items : List Expr} (h : ∀ e ∈ items, P e) {start : Span}
    (hstart : lines start.line) (kind : CompoundKind) :
    Delivers l (match items with
      | [one] => Pure.pure one
      | _ => do return .compound (← site start) kind items) P := by
  split
  · exact .pure (h _ (List.mem_singleton_self _))
  · exact hr.made hstart (fun _ => ⟨rfl, rfl⟩) fun _ => h

private theorem joined (hp : Delivers l p P) (keyword : String) :
    Delivers l (joined keyword p) P := by
  refine hr.here.bind fun start hstart => hp.bind fun first hfirst => ?_
  refine (collected_delivers hp (accept (isWord keyword))
    (List.forall_mem_singleton.mpr hfirst)).bind fun items hitems => ?_
  exact hr.single hitems hstart .boolOp

/-- A starred expression, or what stands instead, inherits the property. -/
protected theorem starredOr (hp : Delivers l p P) (hq : Delivers l q P) :
    Delivers l (starredOr p q) P := by
  refine hr.here.bind fun start hstart => .test ?_ ?_
  · exact hp.bind fun e he => hr.around hstart (fun _ => ⟨rfl, rfl, rfl⟩) he
  · exact hq

/-- A number literal has no parts to inherit from. -/
protected theorem number : Delivers l number P := by
  have hplain (s : Site) (text : List Char) :
      (Expr.constant s (Literal.numberKind text)).isText = false := by
    unfold Literal.numberKind Literal.numberKind.decimalKind
    repeat' split
    all_goals rfl
  have htoken : Delivers l (kind .number) fun t => lines t.span.line := by
    refine hr.peek.bind fun t ht => ?_
    exact .ite (.seq fun _ => .pure ht) .miss
  refine htoken.bind fun t ht => ?_
  refine .ite .miss ?_
  exact hr.made ht (fun s => ⟨rfl, hplain s _⟩) fun _ => List.forall_mem_nil P

private theorem bitOr : Delivers l (bitOr r) P :=
  hr.leftAssoc (hr.leftAssoc (hr.leftAssoc
    (hr.leftAssoc (hr.leftAssoc (hr.leftAssoc
      (hr.rules.factor hr.among) _) _) _) _) _) _

/-- Comparisons and negations inherit the property. -/
protected theorem inversion : Delivers l (inversion r) P := by
  refine hr.here.bind fun start hstart => .test ?_ ?_
  · exact (hr.rules.inversion hr.among).bind fun operand hoperand =>
      hr.around hstart (fun _ => ⟨rfl, rfl, rfl⟩) hoperand
  · have hoperand := hr.bitOr
    refine hr.here.bind fun start hstart => hoperand.bind fun first hfirst => ?_
    refine (collected_delivers hoperand comparisonOp
      (List.forall_mem_singleton.mpr hfirst)).bind fun items hitems => ?_
    exact hr.single hitems hstart .compare

/-- Boolean expressions inherit the property of their operands. -/
protected theorem disjunction : Delivers l (disjunction r) P :=
  hr.joined (hr.joined (hr.rules.inversion hr.among) _) _

/-- An assignment expression inherits the property of its two sides. -/
protected theorem namedExpression : Delivers l (namedExpression r) P := by
  refine hr.here.bind fun start hstart => .test ?_ ?_
  · refine .seq fun target => .seq fun _ => hr.nested.bind fun value hvalue => ?_
    exact hr.around hstart (fun _ => ⟨rfl, rfl, rfl⟩) hvalue
  · exact hr.nested.bind fun e he => .test .miss (.pure he)

/-- An item of a display, starred or not, inherits the property. -/
protected theorem starNamed : Delivers l (starNamed r) P :=
  hr.starredOr hr.bitOr hr.namedExpression

private theorem starExpression : Delivers l (starExpression r) P :=
  hr.starredOr hr.bitOr hr.nested

/-- An expression list inherits the property of its items. -/
protected theorem starExpressions : Delivers l (starExpressions r) P :=
  hr.tupleOf hr.starExpression _

/-- A yield inherits the property of what it yields. -/
protected theorem yieldExpression : Delivers l (yieldExpression r) P := by
  refine hr.here.bind fun start hstart => .seq fun _ => .test ?_ ?_
  · exact hr.nested.bind fun e he => hr.around hstart (fun _ => ⟨rfl, rfl, rfl⟩) he
  · refine .test ?_ ?_
    · exact hr.starExpressions.bind fun e he => hr.around hstart (fun _ => ⟨rfl, rfl, rfl⟩) he
    · exact hr.leaf hstart fun _ => ⟨rfl, rfl, rfl⟩

/-- The value of an assignment inherits the property. -/
protected theorem assignedValue : Delivers l (assignedValue r) P := by
  exact .test hr.yieldExpression hr.starExpressions

private theorem slicePart : Delivers l (slicePart r) fun part => ∀ e ∈ part.toList, P e := by
  refine .test (.pure (List.forall_mem_nil P)) ?_
  exact hr.nested.map fun e he => List.forall_mem_singleton.mpr he

private theorem sliceTail {start : Span} (hstart : lines start.line) {lower : Option Expr}
    (hlower : ∀ e ∈ lower.toList, P e) : Delivers l (sliceTail r start lower) P := by
  refine .seq fun _ => hr.slicePart.bind fun upper hupper => .seq fun more => ?_
  have hrest {step : Option Expr} (hstep : ∀ e ∈ step.toList, P e) : Delivers l (do
      return .compound (← site start) .slice (lower.toList ++ upper.toList ++ step.toList)) P := by
    refine hr.made hstart (fun _ => ⟨rfl, rfl⟩) fun _ => ?_
    exact List.forall_mem_append.mpr ⟨List.forall_mem_append.mpr ⟨hlower, hupper⟩, hstep⟩
  dsimp only
  split
  · exact hr.slicePart.bind fun step hstep => hrest hstep
  · exact hrest (List.forall_mem_nil P)

/-- A subscript or slice inherits the property of its parts. -/
protected theorem slice : Delivers l (slice r) P := by
  have hnamed := hr.namedExpression
  refine hr.here.bind fun start hstart => .test (hr.sliceTail hstart (List.forall_mem_nil P)) ?_
  refine .test hnamed ?_
  refine hnamed.bind fun e he => .test ?_ ?_
  · exact hr.sliceTail hstart (List.forall_mem_singleton.mpr he)
  · exact .pure he

private theorem slices : Delivers l (slices r) P := by
  have hitem : Delivers l (starredOr r.expression (slice r)) P :=
    hr.starredOr hr.nested hr.slice
  refine hr.here.bind fun start hstart => hitem.bind fun first hfirst => ?_
  refine (commaTail_delivers hitem _ hfirst).bind fun x hx => ?_
  dsimp only
  split
  · exact hr.made hstart (fun _ => ⟨rfl, rfl⟩) fun _ => hx
  · exact hr.made hstart (fun _ => ⟨rfl, rfl⟩) fun _ => hx
  · exact .pure hfirst

/-- A target, starred or not, inherits the property. -/
protected theorem starTarget : Delivers l (starTarget r) P := by
  refine (hr.starredOr (hr.rules.factor hr.among) (hr.rules.factor hr.among)).bind fun e he => ?_
  exact .ite (.pure he) .miss

/-- A target list inherits the property of its targets. -/
protected theorem starTargets : Delivers l (starTargets r) P :=
  hr.tupleOf hr.starTarget _

private theorem generators :
    Delivers l (generators r) fun gs => ∀ g ∈ gs, ∀ e ∈ Expr.clauseParts g, P e := by
  have hoperand := hr.disjunction
  have hclause : Delivers l (generator? r) fun g? => ∀ g ∈ g?, ∀ e ∈ Expr.clauseParts g, P e := by
    have hrest (follows : Bool) : Delivers l (if follows then do
          let _ ← accept (isWord "async")
          advance
          let target ← starTargets r
          let _ ← word "in"
          let iter ← disjunction r
          let conditions ← loop (fun cs => do
            if ← accept (isWord "if") then return .again ((← disjunction r) :: cs)
            else return .leave cs.reverse) []
          return some (.mk target iter conditions)
        else return none) fun g? => ∀ g ∈ g?, ∀ e ∈ Expr.clauseParts g, P e := by
      split
      · refine .seq fun _ => .seq fun _ => ?_
        refine hr.starTargets.bind fun target htarget => ?_
        refine .seq fun _ => hoperand.bind fun iter hiter => ?_
        refine (collected_delivers hoperand _ (List.forall_mem_nil P)).bind fun cs hcs => .pure ?_
        rintro _ ⟨⟩
        exact List.forall_mem_cons.mpr ⟨htarget, List.forall_mem_cons.mpr ⟨hiter, hcs⟩⟩
      · exact .pure (by simp)
    refine .seq fun t => ?_
    dsimp only
    exact .ite (.seq hrest) (.seq hrest)
  refine Delivers.loop (I := fun gs => ∀ g ∈ gs, ∀ e ∈ Expr.clauseParts g, P e) (fun gs hgs => ?_)
    (by simp)
  refine hclause.bind fun g? hg => ?_
  split
  · exact .pure (List.forall_mem_cons.mpr ⟨hg _ rfl, hgs⟩)
  · exact .pure (forall_mem_reverse hgs)

private theorem argument {a : Args} (ha : (∀ e ∈ a.args, P e) ∧ ∀ e ∈ a.keywords, P e) :
    Delivers l (argument r a) fun a => (∀ e ∈ a.args, P e) ∧ ∀ e ∈ a.keywords, P e := by
  have harg {arg : Expr} (harg : P arg) : ∀ e ∈ arg :: a.args, P e :=
    List.forall_mem_cons.mpr ⟨harg, ha.1⟩
  have hkeyword {arg : Expr} (harg : P arg) : ∀ e ∈ arg :: a.keywords, P e :=
    List.forall_mem_cons.mpr ⟨harg, ha.2⟩
  refine .seq fun t => .ite ?_ ?_
  · refine .ite .miss ?_
    exact (hr.starredOr hr.nested .miss).bind fun e he => .pure ⟨harg he, ha.2⟩
  · split
    · exact .seq fun _ => hr.nested.bind fun e he => .pure ⟨ha.1, hkeyword he⟩
    · refine .test ?_ ?_
      · exact .seq fun _ => .seq fun _ => hr.nested.bind fun e he => .pure ⟨ha.1, hkeyword he⟩
      · split
        · exact hr.namedExpression.bind fun e he => .test .miss (.pure ⟨harg he, ha.2⟩)
        · exact .miss

private theorem argumentTail {a : Args} (ha : (∀ e ∈ a.args, P e) ∧ ∀ e ∈ a.keywords, P e) :
    Delivers l (argumentTail r a) fun x => (∀ e ∈ x.1, P e) ∧ ∀ e ∈ x.2, P e := by
  refine Delivers.loop (I := fun a => (∀ e ∈ a.args, P e) ∧ ∀ e ∈ a.keywords, P e)
    (fun a ha => .seq fun comma => ?_) ha
  have hdone := And.intro (forall_mem_reverse ha.1) (forall_mem_reverse ha.2)
  split
  · refine .test (.pure hdone) ?_
    exact (hr.argument ha).bind fun a ha => .pure ha
  · exact .seq fun _ => .pure hdone

/-- All arguments of a call inherit the property. -/
protected theorem arguments :
    Delivers l (arguments r) fun x => (∀ e ∈ x.1, P e) ∧ ∀ e ∈ x.2, P e := by
  refine .test (.pure (by simp)) ?_
  exact (hr.argument (by simp)).bind fun a ha => hr.argumentTail ha

private theorem callArguments {start : Span} (hstart : lines start.line) :
    Delivers l (callArguments r start) fun x => (∀ e ∈ x.1, P e) ∧ ∀ e ∈ x.2, P e := by
  refine .test hr.arguments ?_
  refine .test hr.arguments ?_
  refine (hr.argument (by simp)).bind fun first hfirst => ?_
  refine hr.generators.bind fun gs hgs => ?_
  split
  · next e g gs hargs =>
    refine .seq fun _ => (site_delivers hstart).bind fun s hs => .pure ⟨?_, by simp⟩
    exact List.forall_mem_singleton.mpr (hr.comprehension hs (hargs ▸ hfirst.1) hgs)
  · exact hr.argumentTail hfirst

private theorem parenthesised : Delivers l (parenthesised r) P := by
  have hitem := hr.starNamed
  refine hr.here.bind fun start hstart => .seq fun _ => .test ?_ ?_
  · exact hr.leaf hstart fun _ => ⟨rfl, rfl, rfl⟩
  · refine .test ?_ ?_
    · exact hr.yieldExpression.bind fun e he => .seq fun _ => .pure he
    · refine hitem.bind fun first hfirst => .test ?_ ?_
      · exact (commaTail_delivers hitem _ hfirst).bind fun x hx => .seq fun _ =>
          hr.made hstart (fun _ => ⟨rfl, rfl⟩) fun _ => hx
      · split
        · exact .miss
        · refine hr.generators.bind fun gs hgs => ?_
          split
          · exact .seq fun _ => .pure hfirst
          · exact .seq fun _ => (site_delivers hstart).bind fun s hs =>
              .pure (hr.comprehension hs (List.forall_mem_singleton.mpr hfirst) hgs)

/-- What follows the first element of a display: a comprehension, or the other elements. -/
protected theorem display {first : Expr} (hfirst : P first) {start : Span}
    (hstart : lines start.line) (close : String) (kind : ComprehensionKind)
    {display : Site → List Expr → Expr}
    (hdisplay : ∀ s es, lines s.span.line → (∀ e ∈ es, P e) → P (display s es))
    {gs : List Generator} (hgs : ∀ g ∈ gs, ∀ e ∈ Expr.clauseParts g, P e) :
    Delivers l (if gs.isEmpty then do
        let (items, _) ← commaTail startsExpression (starNamed r) first
        let _ ← op close
        return display (← site start) items
      else do
        let _ ← op close
        return .comprehension (← site start) kind [first] gs) P := by
  split
  · refine (commaTail_delivers hr.starNamed _ hfirst).bind fun x hx => ?_
    exact .seq fun _ => (site_delivers hstart).bind fun s hs => .pure (hdisplay s _ hs hx)
  · exact .seq fun _ => (site_delivers hstart).bind fun s hs =>
      .pure (hr.comprehension hs (List.forall_mem_singleton.mpr hfirst) hgs)

private theorem bracketed : Delivers l (bracketed r) P := by
  refine hr.here.bind fun start hstart => .seq fun _ => .test ?_ ?_
  · exact hr.leaf hstart fun _ => ⟨rfl, rfl, rfl⟩
  · refine hr.starNamed.bind fun first hfirst => ?_
    have hrest {gs : List Generator} (hgs : ∀ g ∈ gs, ∀ e ∈ Expr.clauseParts g, P e) :=
      hr.display hfirst hstart "]" .list
        (fun s es hs hes => hr.node hs rfl (e := .sequence s .list es) hes) hgs
    dsimp only
    split
    · exact Delivers.bind (P := (· = [])) (.pure rfl) fun gs hgs => hrest (by simp [hgs])
    · exact hr.generators.bind fun gs hgs => hrest hgs

private theorem dictItem : Delivers l (dictItem r) fun x => (∀ e ∈ x.1, P e) ∧ P x.2 := by
  refine .test ?_ ?_
  · exact hr.bitOr.bind fun value hvalue => .pure ⟨by simp, hvalue⟩
  · refine hr.nested.bind fun key hkey => .seq fun _ => ?_
    exact hr.nested.bind fun value hvalue => .pure ⟨by simpa using hkey, hvalue⟩

private theorem dictTail {start : Span} (hstart : lines start.line) {first : Option Expr × Expr}
    (hfirst : (∀ e ∈ first.1, P e) ∧ P first.2) : Delivers l (dictTail r start first) P := by
  refine Delivers.bind (P := fun items => ∀ x ∈ items, (∀ e ∈ x.1, P e) ∧ P x.2)
    (Delivers.loop (I := fun items => ∀ x ∈ items, (∀ e ∈ x.1, P e) ∧ P x.2)
      (fun items hitems => .seq fun comma => ?_) (List.forall_mem_singleton.mpr hfirst))
    fun items hitems => .seq fun _ => (site_delivers hstart).bind fun s hs => .pure ?_
  · split
    · refine .test (.pure (forall_mem_reverse hitems)) ?_
      exact hr.dictItem.bind fun x hx => .pure (List.forall_mem_cons.mpr ⟨hx, hitems⟩)
    · exact .pure (forall_mem_reverse hitems)
  · refine hr.node hs rfl (List.forall_mem_append.mpr ⟨?_, ?_⟩)
    · exact List.forall_mem_filterMap.mpr fun x hx e he => (hitems x hx).1 e he
    · exact List.forall_mem_map.mpr fun x hx => (hitems x hx).2

private theorem braced : Delivers l (braced r) P := by
  refine hr.here.bind fun start hstart => .seq fun _ => .test ?_ ?_
  · exact hr.leaf hstart fun _ => ⟨rfl, rfl, rfl⟩
  · refine .test ?_ ?_
    · exact hr.dictItem.bind fun first hfirst => hr.dictTail hstart hfirst
    · refine .seq fun named => hr.starNamed.bind fun first hfirst => ?_
      have hrest {gs : List Generator} (hgs : ∀ g ∈ gs, ∀ e ∈ Expr.clauseParts g, P e) :=
        hr.display hfirst hstart "\x7d" .set
          (fun s es hs hes => hr.node hs rfl (e := .compound s .set es) hes) hgs
      refine .test ?_ ?_
      · refine hr.nested.bind fun value hvalue => ?_
        refine hr.generators.bind fun gs hgs => ?_
        split
        · exact hr.dictTail hstart ⟨by simpa using hfirst, hvalue⟩
        · exact .seq fun _ => (site_delivers hstart).bind fun s hs =>
            .pure (hr.comprehension hs (by simp [hfirst, hvalue]) hgs)
      · dsimp only
        split
        · exact Delivers.bind (P := (· = [])) (.pure rfl) fun gs hgs => hrest (by simp [hgs])
        · exact hr.generators.bind fun gs hgs => hrest hgs

private theorem atom : Delivers l (atom r) P := by
  refine hr.peek.bind fun t ht => ?_
  split
  · split
    · exact .seq fun id => hr.leaf ht fun _ => ⟨rfl, rfl, rfl⟩
    · split
      · exact .seq fun _ => hr.leaf ht fun _ => ⟨rfl, rfl, rfl⟩
      · split
        · exact .seq fun _ => hr.leaf ht fun _ => ⟨rfl, rfl, rfl⟩
        · exact .miss
  · exact hr.number
  · exact hr.strings hr.among fun hl => (hr.onTokens hl).starExpressions
  · refine .ite hr.parenthesised ?_
    refine .ite hr.bracketed ?_
    refine .ite hr.braced ?_
    split
    · exact .seq fun _ => hr.leaf ht fun _ => ⟨rfl, rfl, rfl⟩
    · exact .miss
  · exact .miss

private theorem primary : Delivers l (primary r) P := by
  refine hr.here.bind fun start hstart => ?_
  refine hr.atom.bind fun first hfirst => ?_
  refine Delivers.loop (I := P) (fun e he => hr.peek.bind fun t ht => ?_) hfirst
  split
  · exact .seq fun _ => .seq fun name => (site_delivers hstart).bind fun s hs =>
      .pure (hr.node hs rfl (List.forall_mem_singleton.mpr he))
  · split
    · refine .seq fun _ => (hr.callArguments ht).bind fun x hx => ?_
      refine (site_delivers hstart).bind fun s hs => .pure (hr.node hs rfl ?_)
      exact List.forall_mem_cons.mpr ⟨he, List.forall_mem_append.mpr hx⟩
    · split
      · refine .seq fun _ => hr.slices.bind fun index hindex => .seq fun _ => ?_
        refine (site_delivers hstart).bind fun s hs => .pure (hr.node hs rfl ?_)
        simp [Expr.children, he, hindex]
      · exact .pure he

/-- Signed numbers, powers and awaited values inherit the property. -/
protected theorem factor : Delivers l (factor r) P := by
  have hawaited : Delivers l (awaited r) P := by
    refine hr.here.bind fun start hstart => .test ?_ ?_
    · exact hr.primary.bind fun e he => hr.around hstart (fun _ => ⟨rfl, rfl, rfl⟩) he
    · exact hr.primary
  refine hr.here.bind fun start hstart => .test ?_ ?_
  · exact .seq fun _ => (hr.rules.factor hr.among).bind fun operand hoperand =>
      hr.around hstart (fun _ => ⟨rfl, rfl, rfl⟩) hoperand
  · refine hr.here.bind fun start hstart => hawaited.bind fun base hbase => ?_
    refine .test ?_ ?_
    · refine (hr.rules.factor hr.among).bind fun exponent hexponent =>
        hr.made hstart (fun _ => ⟨rfl, rfl⟩) fun _ => ?_
      simp [Expr.children, hbase, hexponent]
    · exact .pure hbase

private theorem paramRound (annotated : Bool) {s : ParamState} (hs : s.Holds P) :
    Delivers l (paramRound r annotated s) (ParamState.Holds P) := by
  have hparam := param_delivers hr.nested annotated
  refine .seq fun t => .ite ?_ ?_
  · refine .ite .miss ?_
    exact .seq fun _ => .seq fun _ =>
      .pure { hs with posOnly := hs.regular, regular := List.forall_mem_nil _ }
  · split
    · refine .ite .miss ?_
      refine .seq fun _ => .test ?_ ?_
      · exact .test (.pure { hs with }) .miss
      · refine (param_delivers hr.starExpression annotated).bind fun p hp => ?_
        exact .seq fun _ => .pure { hs with vararg := by simpa using hp }
    · split
      · refine .seq fun _ => hparam.bind fun p hp => .seq fun _ => .test ?_ ?_
        · exact .pure { hs with kwarg := by simpa using hp }
        · exact .miss
      · refine hparam.bind fun p hp => ?_
        refine .seq fun given => ?_
        refine optional_delivers given hr.nested fun default hdefault => ?_
        have hregular := List.forall_mem_cons.mpr ⟨hp, hs.regular⟩
        refine .seq fun _ => ?_
        split
        · exact .pure { hs with
            kwOnly := List.forall_mem_cons.mpr ⟨hp, hs.kwOnly⟩
            kwDefaults := List.forall_mem_cons.mpr ⟨hdefault, hs.kwDefaults⟩ }
        · split
          · exact .pure { hs with
              regular := hregular
              defaults := List.forall_mem_cons.mpr ⟨hdefault _ rfl, hs.defaults⟩ }
          · exact .ite (.pure { hs with regular := hregular }) .miss

/-- The annotations and defaults of parameters inherit the property. -/
protected theorem parameters (annotated : Bool) :
    Delivers l (parameters r annotated) fun p => ∀ e ∈ p.expressions, P e := by
  refine Delivers.loop (I := ParamState.Holds P) (fun s hs => .seq fun ends => ?_) ?_
  · refine .ite (.pure hs.toParameters) ?_
    exact (hr.paramRound annotated hs).bind fun s hs => .pure hs
  · exact ⟨by simp, by simp, by simp, by simp, by simp, by simp, by simp⟩

private theorem lambda : Delivers l (lambda r) P := by
  refine hr.here.bind fun start hstart => .seq fun _ => ?_
  refine (hr.parameters false).bind fun params hparams => .seq fun _ => ?_
  refine hr.nested.bind fun body hbody => (site_delivers hstart).bind fun s hs => ?_
  refine .pure (hr.node hs rfl (List.forall_mem_append.mpr ⟨fun e he => hparams e ?_, ?_⟩))
  · simp only [Parameters.defaultValues, Parameters.expressions, List.mem_append] at he ⊢
    tauto
  · exact List.forall_mem_singleton.mpr hbody

/-- Every expression inherits the property. -/
protected theorem expression : Delivers l (expression r) P := by
  have hoperand := hr.disjunction
  refine hr.here.bind fun start hstart => .test hr.lambda ?_
  refine hoperand.bind fun body hbody => .test ?_ ?_
  · refine hoperand.bind fun test htest => .seq fun _ => ?_
    refine hr.nested.bind fun orelse horelse => hr.made hstart (fun _ => ⟨rfl, rfl⟩) fun _ => ?_
    simp [Expr.children, htest, hbody, horelse]
  · exact .pure hbody

end Reading

end Grammar

end ContextLint.Source
