import Mathlib.Data.List.MinMax
import Mathlib.Tactic.Choose
import ContextLint.Proofs.Typing.Malformed

/-!
# Resolving annotations ends

A text in an annotation is resolved by reading it as an expression, which may be much larger than
the annotation and hold further texts. If these are shorter than the text that was read, the calls
still end: from call to call the longest text gets shorter, or it stays the same and the annotation
gets smaller.
-/

namespace ContextLint.Typing

open Source

/-- The annotations that a call resolves, in order, and what it makes of the results. -/
structure Plan where
  callees : List Expr
  /-- What it makes of the results. -/
  combine : List (Option TypeRef) → Option TypeRef

/-- The outcome of a call, given those of the annotations that it resolves. -/
def Plan.outcome (outcomes : Expr → Except AnnotationError (Option TypeRef)) (p : Plan) :
    Except AnnotationError (Option TypeRef) :=
  p.combine <$> p.callees.mapM outcomes

/-- Nothing further is resolved. -/
def Plan.ready (ref : Option TypeRef) : Plan := ⟨[], fun _ => ref⟩

/-- The first of several annotations is resolved, of which there must be one. -/
def Plan.first (f : Option TypeRef → Option TypeRef) : List Expr → Except AnnotationError Plan
  | [] => .error .emptyArguments
  | e :: _ => .ok ⟨[e], fun refs => f (refs.headD none)⟩

/-- From some depth of calls on, the run ends with the outcome. -/
def Ends {α : Type} (run : Nat → ExceptT AnnotationError Option α)
    (outcome : Except AnnotationError α) : Prop :=
  ∃ n, ∀ depth ≥ n, run depth = ExceptT.mk (some outcome)

/-- The expression that a text holds. -/
def readText (characters : CharacterNames) (points : List Nat) :
    Except AnnotationError (Option Expr) :=
  parseExpression? characters <$> annotationText points

private theorem Inside.mem_nodes {e e' : Expr} (h : Inside e' e) : e' ∈ e.nodes := by
  cases h with
  | left | right | slice =>
    exact Expr.mem_nodes_of_child (by simp [Expr.children]) (Expr.mem_nodes_self _)
  | @argument site site' value _ args he =>
    have hargument : e' ∈ (Expr.sequence site' .tuple args).nodes :=
      Expr.mem_nodes_of_child he e'.mem_nodes_self
    exact Expr.mem_nodes_of_child (List.mem_cons_of_mem _ List.mem_cons_self) hargument

/-- One more than the length of a text. -/
def textSize : Expr → Nat
  | .constant _ (.str points) => points.length + 1
  | _ => 0

/-- The size of the longest text anywhere in an expression. -/
def textRank (e : Expr) : Nat := (e.nodes.map textSize).foldr max ⊥

private theorem textRank_le {e : Expr} {k : Nat} (h : ∀ n ∈ e.nodes, textSize n ≤ k) :
    textRank e ≤ k :=
  List.max_le_of_forall_le _ _ (List.forall_mem_map.mpr h)

private theorem textSize_le {n e : Expr} (h : n ∈ e.nodes) : textSize n ≤ textRank e :=
  List.le_max_of_le (List.mem_map_of_mem h) le_rfl

namespace NameContext

variable (c : NameContext) (read : List Nat → Except AnnotationError (Option Expr))

/-- What a call for an annotation resolves. -/
def plan : Expr → Except AnnotationError Plan
  | .constant _ .none => .ok (.ready (some noneType))
  | .constant _ (.str points) =>
    match read points with
    | .error err => .error err
    | .ok none => .ok (.ready none)
    | .ok (some e) => Plan.first id [e]
  | .binary _ .bitOr left right => .ok ⟨[left, right], unionOf⟩
  | .subscript _ value slice =>
    match c.form? value with
    | some .optional => Plan.first (Option.map TypeRef.asNullable) (subscriptArguments slice)
    | some .union => .ok ⟨subscriptArguments slice, unionOf⟩
    | some .annotated => Plan.first id (subscriptArguments slice)
    | none => .ok (.ready ((dottedName? value).map fun base => instanceOf (c.qualify base)))
  | e => .ok (.ready ((dottedName? e).map fun name => instanceOf (c.qualify name)))

/-- Resolve an annotation with calls nested at most `depth` deep; nothing if that is too little. -/
def resolveWithin : Nat → Expr → ExceptT AnnotationError Option (Option TypeRef)
  | 0, _ => (none : Option _)
  | depth + 1, e => do
    let p ← ExceptT.mk (some (c.plan read e))
    return p.combine (← p.callees.mapM (resolveWithin depth))

/-- Resolve the union of members, each in this way. -/
def unionWithin (depth : Nat) (members : List Expr) :
    ExceptT AnnotationError Option (Option TypeRef) :=
  unionOf <$> members.mapM (c.resolveWithin read depth)

/-- A call for the second annotation makes one for the first. -/
def Calls (e' e : Expr) : Prop := ∃ p, c.plan read e = .ok p ∧ e' ∈ p.callees

section

variable {c read} {outcomes : Expr → Except AnnotationError (Option TypeRef)}

private theorem ends_mapM {es : List Expr}
    (h : ∀ e ∈ es, Ends (c.resolveWithin read · e) (outcomes e)) :
    Ends (fun depth => es.mapM (c.resolveWithin read depth)) (es.mapM outcomes) := by
  induction es with
  | nil => exact ⟨0, fun _ _ => rfl⟩
  | cons e es ih =>
    rw [List.forall_mem_cons] at h
    obtain ⟨⟨n, hn⟩, k, hk⟩ := And.intro h.1 (ih h.2)
    refine ⟨max n k, fun depth hdepth => ?_⟩
    have hfirst : c.resolveWithin read depth e = _ := hn depth (by omega)
    have hmore : es.mapM (c.resolveWithin read depth) = _ := hk depth (by omega)
    dsimp only
    rw [List.mapM_cons, hfirst, hmore, List.mapM_cons]
    cases outcomes e with
    | error err => rfl
    | ok ref => cases es.mapM outcomes <;> rfl

private theorem ends_union (members : List Expr)
    (h : ∀ e, Ends (c.resolveWithin read · e) (outcomes e)) :
    Ends (c.unionWithin read · members) (unionOf <$> members.mapM outcomes) := by
  obtain ⟨n, hn⟩ := ends_mapM fun e (_ : e ∈ members) => h e
  refine ⟨n, fun depth hdepth => ?_⟩
  have hmembers : members.mapM (c.resolveWithin read depth) = _ := hn depth hdepth
  dsimp only
  rw [unionWithin, hmembers]
  cases members.mapM outcomes <;> rfl

/-- A call ends if the calls that it makes do. -/
theorem ends_of_calls {e : Expr}
    (h : ∀ e', c.Calls read e' e → Ends (c.resolveWithin read · e') (outcomes e')) :
    Ends (c.resolveWithin read · e) (c.plan read e >>= Plan.outcome outcomes) := by
  cases hp : c.plan read e with
  | error err =>
    refine ⟨1, fun depth hdepth => ?_⟩
    obtain ⟨depth, rfl⟩ := Nat.exists_eq_add_of_le' hdepth
    dsimp only
    rw [resolveWithin, hp]
    rfl
  | ok p =>
    obtain ⟨n, hn⟩ := ends_mapM fun e' he => h e' ⟨p, hp, he⟩
    refine ⟨n + 1, fun depth hdepth => ?_⟩
    obtain ⟨depth, rfl⟩ : ∃ d, depth = d + 1 := ⟨depth - 1, by omega⟩
    have hcallees : p.callees.mapM (c.resolveWithin read depth) = _ := hn depth (by omega)
    dsimp only
    rw [resolveWithin, hp]
    change p.callees.mapM (c.resolveWithin read depth) >>= _ = ExceptT.mk (some (p.outcome outcomes))
    rw [hcallees, Plan.outcome]
    cases p.callees.mapM outcomes <;> rfl

private theorem mem_of_first {f : Option TypeRef → Option TypeRef} {es : List Expr} {p : Plan}
    {e : Expr}
    (hp : Plan.first f es = .ok p) (he : e ∈ p.callees) : e ∈ es := by
  cases es with
  | nil => cases hp
  | cons e' es =>
    obtain rfl := Except.ok.inj hp
    exact List.mem_cons.mpr (.inl (List.mem_singleton.mp he))

/-- A call for a text resolves what the text holds, any other call what stands inside its
annotation. -/
theorem Calls.cases {e e' : Expr} (h : c.Calls read e' e) :
    (∃ site points, e = .constant site (.str points) ∧ read points = .ok (some e')) ∨
      Inside e' e := by
  obtain ⟨p, hp, he⟩ := h
  have hready {ref : Option TypeRef}
      (hp : (.ok (.ready ref) : Except AnnotationError Plan) = .ok p) : False := by
    obtain rfl := Except.ok.inj hp
    cases he
  unfold plan at hp
  split at hp
  · exact (hready hp).elim
  · next site points =>
    split at hp
    · cases hp
    · exact (hready hp).elim
    · next e hpoints =>
      obtain rfl := List.mem_singleton.mp (mem_of_first hp he)
      exact .inl ⟨site, points, rfl, hpoints⟩
  · obtain rfl := Except.ok.inj hp
    simp only [List.mem_cons, List.not_mem_nil, or_false] at he
    rcases he with rfl | rfl
    · exact .inr .left
    · exact .inr .right
  · refine .inr (inside_of_mem ?_)
    split at hp
    · exact mem_of_first hp he
    · obtain rfl := Except.ok.inj hp
      exact he
    · exact mem_of_first hp he
    · exact (hready hp).elim
  · exact (hready hp).elim

/-- Calls end if the rank of annotations never grows, and falls where a text is read. -/
theorem wellFounded_calls (rank : Expr → Nat)
    (hread : ∀ {site points e}, read points = .ok (some e) →
      rank e < rank (.constant site (.str points)))
    (hinside : ∀ {e e'}, Inside e' e → rank e' ≤ rank e) : WellFounded (c.Calls read) := by
  refine Subrelation.wf ?_ (InvImage.wf (fun e => (rank e, sizeOf e))
    (Prod.lex ⟨_, Nat.lt_wfRel.wf⟩ ⟨_, Nat.lt_wfRel.wf⟩).wf)
  intro e' e h
  rcases h.cases with ⟨site, points, rfl, hpoints⟩ | h
  · exact .left _ _ (hread hpoints)
  · rcases (hinside h).lt_or_eq with hlt | heq
    · exact .left _ _ hlt
    · exact Prod.lex_def.mpr (.inr ⟨heq, h.sizeOf_lt⟩)

end

/-- If texts inside a text are shorter than it, calls end. -/
theorem wellFounded_of_short {read : List Nat → Except AnnotationError (Option Expr)}
    (h : ∀ points e, read points = .ok (some e) → ∀ site text,
      .constant site (.str text) ∈ e.nodes → text.length < points.length) :
    WellFounded (c.Calls read) := by
  refine wellFounded_calls textRank ?_ fun hinside => textRank_le fun n hn =>
    textSize_le (Expr.mem_nodes_trans hn hinside.mem_nodes)
  intro site points e hread
  have hnodes : ∀ n ∈ e.nodes, textSize n ≤ points.length := by
    intro n hn
    unfold textSize
    split
    · exact h points e hread _ _ hn
    · exact Nat.zero_le _
  have hself := textSize_le (Expr.mem_nodes_self (.constant site (.str points)))
  exact (Nat.lt_succ_of_le (textRank_le hnodes)).trans_le hself

private theorem wellFounded_readText : WellFounded (c.Calls (readText c.characters)) := by
  refine wellFounded_calls longestText ?_ Inside.longestText_le
  intro site points e hread
  rw [readText] at hread
  cases htext : annotationText points with
  | error err =>
    rw [htext] at hread
    cases hread
  | ok text =>
    rw [htext] at hread
    exact longestText_lt htext (Except.ok.inj hread)

private theorem outcome_first (f : Option TypeRef → Option TypeRef) (es : List Expr) :
    Plan.first f es >>= Plan.outcome c.resolve = f <$> c.resolveFirst c.resolvePoints es := by
  cases es with
  | nil => rfl
  | cons e es =>
    rw [resolveFirst, ← resolve_eq]
    change (fun refs : List (Option TypeRef) => f (refs.headD none)) <$> [e].mapM c.resolve = _
    rw [List.mapM_cons]
    cases c.resolve e <;> rfl

/-- Resolving an annotation follows its plan. -/
theorem plan_outcome (e : Expr) :
    c.plan (readText c.characters) e >>= Plan.outcome c.resolve = c.resolve e := by
  have hall (es : List Expr) : es.mapM c.resolve = c.resolveAll c.resolvePoints es := by
    induction es with
    | nil => rfl
    | cons e es ih => rw [resolveAll, List.mapM_cons, ih, resolve_eq]
  conv_rhs => rw [resolve_eq]
  cases e with
  | constant site value =>
    cases value with
    | str points =>
      rw [plan, resolveWith, resolvePoints, readText]
      cases annotationText points with
      | error err => rfl
      | ok text =>
        cases he : parseExpression? c.characters text with
        | none => simp only [Functor.map, Except.map, Bind.bind, Except.bind, he]; rfl
        | some e =>
          simp only [Functor.map, Except.map, Bind.bind, Except.bind, he]
          exact (c.outcome_first id [e]).trans ((id_map _).trans (c.resolve_eq e).symm)
    | _ => rfl
  | binary site op left right =>
    cases op with
    | bitOr =>
      rw [resolveWith]
      change unionOf <$> [left, right].mapM c.resolve = _
      rw [hall, resolveAll, resolveAll]
      cases c.resolveWith c.resolvePoints left with
      | error err => rfl
      | ok ref => cases c.resolveWith c.resolvePoints right <;> rfl
    | _ => rfl
  | subscript site value slice =>
    rw [plan, resolveWith_subscript]
    cases c.form? value with
    | none => rfl
    | some form =>
      cases form with
      | optional => exact c.outcome_first _ _
      | union => rw [← hall]; rfl
      | annotated => exact (c.outcome_first id _).trans (id_map _)
  | _ => rfl

end NameContext

open NameContext in
/-- If the texts inside an expression that is read from a text are shorter than that text, resolving
annotations and unions ends. So does the resolver, with the results that it gives. -/
theorem annotation_calls_end (c : NameContext)
    (read : List Nat → Except AnnotationError (Option Expr))
    (hshort : ∀ points e, read points = .ok (some e) → ∀ site text,
      .constant site (.str text) ∈ e.nodes → text.length < points.length) :
    (∀ e, ∃ outcome, Ends (c.resolveWithin read · e) outcome) ∧
    (∀ members, ∃ outcome, Ends (c.unionWithin read · members) outcome) ∧
    (∀ e, Ends (c.resolveWithin (readText c.characters) · e) (c.resolve e)) ∧
    ∀ members, Ends (c.unionWithin (readText c.characters) · members)
      (unionOf <$> members.mapM c.resolve) := by
  have hends (e : Expr) : ∃ outcome, Ends (c.resolveWithin read · e) outcome := by
    induction e using (c.wellFounded_of_short hshort).induction with
    | _ e ih =>
      choose! outcomes houtcomes using ih
      exact ⟨_, ends_of_calls houtcomes⟩
  have hresolve (e : Expr) : Ends (c.resolveWithin (readText c.characters) · e) (c.resolve e) := by
    induction e using c.wellFounded_readText.induction with
    | _ e ih =>
      rw [← plan_outcome]
      exact ends_of_calls ih
  choose outcomes houtcomes using hends
  exact ⟨fun e => ⟨_, houtcomes e⟩, fun members => ⟨_, ends_union members houtcomes⟩, hresolve,
    fun members => ends_union members hresolve⟩

/-- A reader of two texts, of which the first, `'int'`, holds the second. -/
def quotedNameReader (points : List Nat) : Except AnnotationError (Option Expr) :=
  .ok (if points = [39, 105, 110, 116, 39] then
      some (.constant default (.str [105, 110, 116]))
    else if points = [105, 110, 116] then some (.name default "int")
    else none)

/-- A reader of quoted names, on a name in two pairs of quotes. -/
theorem quoted_name_calls_end :
    (∀ points e, quotedNameReader points = .ok (some e) → ∀ site text,
      .constant site (.str text) ∈ e.nodes → text.length < points.length) ∧
    ∃ outcome, Ends ((⟨[], [], "m", default⟩ : NameContext).resolveWithin quotedNameReader ·
      (.constant default (.str [39, 105, 110, 116, 39]))) outcome := by
  have hshort : ∀ points e, quotedNameReader points = .ok (some e) → ∀ site text,
      .constant site (.str text) ∈ e.nodes → text.length < points.length := by
    intro points e hread site text hmem
    have hfound := Except.ok.inj hread
    split at hfound
    · next hpoints =>
      obtain rfl := Option.some.inj hfound
      simp_all [Expr.nodes]
    · split at hfound
      · obtain rfl := Option.some.inj hfound
        simp [Expr.nodes] at hmem
      · cases hfound
  exact ⟨hshort, (annotation_calls_end _ _ hshort).1 _⟩

end ContextLint.Typing
