import Mathlib.Data.List.Perm.Basic
import Mathlib.Logic.Relation
import ContextLint.Proofs.Typing.Optional

/-!
# Spellings of unions

A union may be spelled as a subscript that lists its members or by bars between them, and a type
that may be null as the optional form as well. The listed union takes all members at once, the bars
take them two at a time, so that a union of the first members stands for them when the next one is
added. The two agree unless that union is one of nulls alone, which resolves to nothing and not to
null.
-/

namespace ContextLint.Typing

open Source

/-- One member resolves to a type, which is not that of null, and all others resolve to null. -/
inductive OnlyMember (t : TypeRef) : List (Option TypeRef) → Prop
  | mk {before after} (ht : t ≠ noneType)
      (hbefore : ∀ r ∈ before, r = some noneType) (hafter : ∀ r ∈ after, r = some noneType) :
      OnlyMember t (before ++ some t :: after)

namespace NameContext

section Resolved

variable {refs refs' : List (Option TypeRef)} {t u : TypeRef}

/-- The member that stands out is the only one that is not null. -/
theorem onlyMember_iff : OnlyMember t refs ↔ refs.filter (· != some noneType) = [some t] := by
  rw [List.filter_eq_cons_iff]
  constructor
  · rintro @⟨before, after, ht, hbefore, hafter⟩
    refine ⟨before, after, rfl, fun r hr => by simp [hbefore r hr], by simpa using ht, ?_⟩
    exact List.filter_eq_nil_iff.mpr fun r hr => by simp [hafter r hr]
  · rintro ⟨before, after, rfl, hbefore, ht, hafter⟩
    refine .mk (by simpa using ht) (fun r hr => by simpa using hbefore r hr) fun r hr => ?_
    simpa using List.filter_eq_nil_iff.mp hafter r hr

private theorem unionOf_eq_some : unionOf refs = some u ↔
    ∃ t, OnlyMember t refs ∧ u = if some noneType ∈ refs then t.asNullable else t := by
  simp only [onlyMember_iff]
  unfold unionOf
  split
  · next r hr =>
    simp only [hr, List.contains_iff_mem, List.cons.injEq, Option.some.injEq, and_true,
      exists_eq_left']
    split <;> simp [eq_comm]
  · next hr => simpa using fun t ht => (hr t ht).elim

/-- Of two members or more, one that stands out is made nullable. -/
theorem unionOf_eq_some_of_two (hrefs : 2 ≤ refs.length) :
    unionOf refs = some u ↔ ∃ t, OnlyMember t refs ∧ u = t.asNullable := by
  rw [unionOf_eq_some]
  refine exists_congr fun t => and_congr_right fun ht => ?_
  suffices hnull : some noneType ∈ refs by rw [if_pos hnull]
  obtain @⟨before, after, -, hbefore, hafter⟩ := ht
  rw [List.length_append, List.length_cons] at hrefs
  cases before with
  | cons r before => simp [← hbefore r List.mem_cons_self]
  | nil =>
    cases after with
    | cons r after => simp [← hafter r List.mem_cons_self]
    | nil => simp at hrefs

private theorem unionOf_perm (h : refs.Perm refs') : unionOf refs = unionOf refs' := by
  have honly : ∀ t, OnlyMember t refs ↔ OnlyMember t refs' := by
    intro t
    have hfilter := h.filter (· != some noneType)
    rw [onlyMember_iff, onlyMember_iff, ← List.perm_singleton, ← List.perm_singleton]
    exact ⟨hfilter.symm.trans, hfilter.trans⟩
  refine Option.ext fun u => ?_
  simp only [unionOf_eq_some, honly, h.mem_iff]

/-- Two members of which the first is not null. -/
theorem unionOf_pair {a b : Option TypeRef} (ha : a ≠ some noneType) :
    unionOf [a, b] = some u ↔ ∃ t, a = some t ∧ b = some noneType ∧ u = t.asNullable := by
  have hfilter : [a, b].filter (· != some noneType) = a :: [b].filter (· != some noneType) :=
    List.filter_cons_of_pos (by simpa using ha)
  rw [unionOf_eq_some_of_two (show 2 ≤ [a, b].length from Nat.le_refl 2)]
  simp only [onlyMember_iff, hfilter, List.cons.injEq, List.filter_eq_nil_iff, List.mem_singleton,
    forall_eq, bne_iff_ne, not_not, and_assoc]

/-- The union of two members or more stands for them when one is added, unless they are all null. -/
theorem unionOf_concat (hrefs : 2 ≤ refs.length) (hsome : ∃ r ∈ refs, r ≠ some noneType)
    (b : Option TypeRef) : unionOf [unionOf refs, b] = unionOf (refs ++ [b]) := by
  have hne : unionOf refs ≠ some noneType := by
    intro h
    obtain ⟨t, -, ht⟩ := (unionOf_eq_some_of_two hrefs).mp h
    exact Bool.false_ne_true (congrArg TypeRef.nullable ht)
  have hfilter : refs.filter (· != some noneType) ≠ [] := by
    obtain ⟨r, hr, hnull⟩ := hsome
    exact List.ne_nil_of_mem (List.mem_filter.mpr ⟨hr, by simpa using hnull⟩)
  refine Option.ext fun u => ?_
  rw [unionOf_pair hne, unionOf_eq_some_of_two (by simp; omega)]
  simp only [unionOf_eq_some_of_two hrefs, onlyMember_iff, List.filter_append]
  constructor
  · rintro ⟨_, ⟨t, ht, rfl⟩, rfl, rfl⟩
    exact ⟨t, by simp [ht], rfl⟩
  · rintro ⟨t, ht, rfl⟩
    obtain ⟨r, rest, hcons⟩ := List.exists_cons_of_ne_nil hfilter
    rw [hcons, List.cons_append, List.cons.injEq, List.append_eq_nil_iff] at ht
    obtain ⟨rfl, rfl, hb⟩ := ht
    exact ⟨t.asNullable, ⟨t, hcons, rfl⟩, by simpa using hb, rfl⟩

/-- Taking members two at a time gives the union of all, if one of the first two is not null. -/
theorem foldl_unionOf (hrefs : 2 ≤ refs.length) (hsome : ∃ r ∈ refs, r ≠ some noneType)
    (rest : List (Option TypeRef)) :
    rest.foldl (fun a b => unionOf [a, b]) (unionOf refs) = unionOf (refs ++ rest) := by
  induction rest generalizing refs with
  | nil => rw [List.append_nil, List.foldl_nil]
  | cons b rest ih =>
    obtain ⟨r, hr, hnull⟩ := hsome
    rw [List.foldl_cons, unionOf_concat hrefs ⟨r, hr, hnull⟩,
      ih (by simp; omega) ⟨r, List.mem_append_left _ hr, hnull⟩, List.append_assoc,
      List.singleton_append]

/-- A union that resolves to nothing does so whatever is added. -/
theorem foldl_unionOf_none (rest : List (Option TypeRef)) :
    rest.foldl (fun a b => unionOf [a, b]) none = none := by
  induction rest with
  | nil => rfl
  | cons b rest ih =>
    have hpair : unionOf [none, b] = none := by
      refine Option.eq_none_iff_forall_ne_some.mpr fun u hu => ?_
      obtain ⟨t, ht, -⟩ := (unionOf_pair (by simp)).mp hu
      cases ht
    rw [List.foldl_cons, hpair, ih]

/-- A type together with null. -/
theorem unionOf_null {r : Option TypeRef} (hr : r ≠ some noneType) :
    unionOf [r, some noneType] = r.map TypeRef.asNullable := by
  refine Option.ext fun u => ?_
  rw [unionOf_pair hr, Option.map_eq_some_iff]
  simp only [true_and, eq_comm]

end Resolved

section Spelled

variable (c : NameContext)

/-- The expression is a subscript that lists the members of a union. -/
inductive Listed (members : List Expr) : Expr → Prop
  | mk {site site' value} (hvalue : c.form? value = some .union) :
      Listed members (.subscript site value (.sequence site' .tuple members))

/-- An expression followed by others, each behind a bar. Each site is that of the union so far. -/
def barred (first : Expr) (rest : List (Site × Expr)) : Expr :=
  rest.foldl (fun e p => .binary p.1 .bitOr e p.2) first

/-- The expression is the union of two others, in either spelling. -/
inductive Paired (left right : Expr) : Expr → Prop
  | listed {e} (h : Listed c [left, right] e) : Paired left right e
  | barred {site} : Paired left right (.binary site .bitOr left right)

/-- The expression says of another one that it may be null. -/
inductive Optional (x : Expr) : Expr → Prop
  | form {site value} (hvalue : c.form? value = some .optional) :
      Optional x (.subscript site value x)
  | nullLast {e site} (h : Paired c x (.constant site .none) e) : Optional x e
  | nullFirst {e site} (h : Paired c (.constant site .none) x e) : Optional x e

/-- The annotations resolve to these types. -/
def Resolve (members : List Expr) (refs : List (Option TypeRef)) : Prop :=
  List.Forall₂ (fun m r => c.resolve m = .ok r) members refs

/-- The two annotations both resolve to null. -/
def BothNull (first second : Expr) : Prop :=
  c.resolve first = .ok (some noneType) ∧ c.resolve second = .ok (some noneType)

/-- The expression is not a tuple, whose elements would be arguments of their own. -/
def NoTuple (e : Expr) : Prop := ∀ site args, e ≠ .sequence site .tuple args

/-- The two expressions differ by the spelling of an optional type or of a union, at any depth. -/
inductive Respelled : Expr → Expr → Prop
  | optional {x e e'} (hx : NoTuple x) (hnull : c.resolve x ≠ .ok (some noneType))
      (h : Optional c x e) (h' : Optional c x e') : Respelled e e'
  | reordered {members members' refs e e'}
      (hrefs : Resolve c members refs) (hperm : members.Perm members') (h : Listed c members e)
      (h' : Listed c members' e') : Respelled e e'
  | bars {first second e site rest refs}
    (hrefs : Resolve c (first :: second :: rest.map Prod.snd) refs)
      (hnull : ¬BothNull c first second) (h : Listed c (first :: second :: rest.map Prod.snd) e) :
      Respelled (barred first ((site, second) :: rest)) e
  /-- A text and the expression it holds. -/
  | text {site points text e}
      (htext : annotationText points = .ok text) (he : parseExpression? c.characters text = some e) :
      Respelled (.constant site (.str points)) e
  | left {site site' left left' right} (h : Respelled left left') :
      Respelled (.binary site .bitOr left right) (.binary site' .bitOr left' right)
  | right {site site' left right right'} (h : Respelled right right') :
      Respelled (.binary site .bitOr left right) (.binary site' .bitOr left right')
  | argument {site site' value slice slice' e e' before after}
      (hslice : subscriptArguments slice = before ++ e :: after)
      (hslice' : subscriptArguments slice' = before ++ e' :: after) (h : Respelled e e') :
      Respelled (.subscript site value slice) (.subscript site' value slice')

variable {r : Option TypeRef} {site : Site} {value slice e first e' second : Expr}
  {members : List Expr} {refs : List (Option TypeRef)} {rest : List (Site × Expr)}

end Spelled

variable {c : NameContext}

private theorem resolve_bar (site : Site) (left right : Expr) :
    c.resolve (.binary site .bitOr left right) = (do
      let l ← c.resolve left
      let r ← c.resolve right
      return unionOf [l, r]) := by
  rw [resolve_eq, resolveWith, ← resolve_eq, ← resolve_eq]

private theorem resolve_union (hvalue : c.form? value = some .union) :
    c.resolve (.subscript site value slice) =
      unionOf <$> c.resolveAll c.resolvePoints (subscriptArguments slice) := by
  rw [resolve_eq, resolveWith_subscript, hvalue]

private theorem Resolve.resolveAll (h : c.Resolve members refs) :
    c.resolveAll c.resolvePoints members = .ok refs := by
  induction h with
  | nil => rfl
  | cons hm _ ih =>
    rw [NameContext.resolveAll, ← resolve_eq, hm, ih]
    rfl

/-- A listed union resolves to the union of its members. -/
theorem Listed.resolve (h : c.Listed members e) (hrefs : c.Resolve members refs) :
    c.resolve e = .ok (unionOf refs) := by
  obtain ⟨hvalue⟩ := h
  rw [resolve_union hvalue, subscriptArguments, hrefs.resolveAll]
  rfl

/-- Bars take the members two at a time. -/
theorem resolve_barred (hfirst : c.resolve first = .ok r)
    (hrest : c.Resolve (rest.map Prod.snd) refs) :
    c.resolve (barred first rest) = .ok (refs.foldl (fun a b => unionOf [a, b]) r) := by
  induction rest generalizing first r refs with
  | nil =>
    cases hrest
    exact hfirst
  | cons p rest ih =>
    obtain _ | @⟨_, s, _, refs, hp, hrest⟩ := hrest
    have hpair : c.resolve (.binary p.1 .bitOr first p.2) = .ok (unionOf [r, s]) := by
      rw [resolve_bar, hfirst, hp]
      rfl
    have hmore := ih hpair hrest
    exact hmore

private theorem Paired.resolve {left right : Expr} (h : c.Paired left right e) :
    c.resolve e = (do
      let l ← c.resolve left
      let r ← c.resolve right
      return unionOf [l, r]) := by
  cases h with
  | barred => exact resolve_bar _ _ _
  | listed h =>
    obtain ⟨hvalue⟩ := h
    rw [resolve_union hvalue, subscriptArguments, resolveAll, resolveAll, ← resolve_eq,
      ← resolve_eq]
    cases c.resolve left with
    | error err => rfl
    | ok l => cases c.resolve right <;> rfl

/-- Every spelling that adds null resolves to the type with null, or fails alike. -/
theorem Optional.resolve {x : Expr} (h : c.Optional x e) (hx : NoTuple x)
    (hnull : c.resolve x ≠ .ok (some noneType)) :
    c.resolve e = Option.map TypeRef.asNullable <$> c.resolve x := by
  have hadd : ∀ r, c.resolve x = .ok r → unionOf [r, some noneType] = r.map TypeRef.asNullable :=
    fun r hr => unionOf_null fun heq => hnull (heq ▸ hr)
  cases h with
  | form hvalue => exact resolve_optional _ hvalue hx
  | nullLast h =>
    rw [h.resolve]
    cases hr : c.resolve x with
    | error err => rfl
    | ok r => exact congrArg Except.ok (hadd r hr)
  | nullFirst h =>
    rw [h.resolve]
    cases hr : c.resolve x with
    | error err => rfl
    | ok r => exact congrArg Except.ok ((unionOf_perm (.swap _ _ _)).trans (hadd r hr))

private theorem resolve_reordered {members' : List Expr} (hrefs : c.Resolve members refs)
    (hperm : members.Perm members') (h : c.Listed members e) (h' : c.Listed members' e') :
    c.resolve e = c.resolve e' := by
  obtain ⟨refs', hrefs', hperm'⟩ := List.perm_comp_forall₂ hperm.symm hrefs
  rw [h.resolve hrefs, h'.resolve hrefs', unionOf_perm hperm']

/-- Bars say what a list of the members does, unless the first two members are null. -/
theorem resolve_bars (hrefs : c.Resolve (first :: second :: rest.map Prod.snd) refs)
    (hnull : ¬c.BothNull first second) (h : c.Listed (first :: second :: rest.map Prod.snd) e) :
    c.resolve (barred first ((site, second) :: rest)) = c.resolve e := by
  rw [h.resolve hrefs]
  obtain _ | @⟨_, a, _, _, ha, hrefs⟩ := hrefs
  obtain _ | @⟨_, b, _, refs, hb, hrefs⟩ := hrefs
  have hsome : ∃ r ∈ [a, b], r ≠ some noneType := by
    by_contra hall
    push Not at hall
    exact hnull ⟨by rw [ha, hall a (by simp)], by rw [hb, hall b (by simp)]⟩
  have hrest : c.Resolve (((site, second) :: rest).map Prod.snd) (b :: refs) := .cons hb hrefs
  rw [resolve_barred ha hrest, List.foldl_cons]
  exact congrArg Except.ok (foldl_unionOf (show 2 ≤ [a, b].length from Nat.le_refl 2) hsome refs)

/-- Nulls alone at the front hide what follows behind bars. -/
theorem resolve_bars_null (hrefs : c.Resolve (first :: second :: rest.map Prod.snd) refs)
    (hnull : c.BothNull first second) :
    c.resolve (barred first ((site, second) :: rest)) = .ok none := by
  obtain _ | ⟨-, hrefs⟩ := hrefs
  obtain _ | @⟨_, _, _, refs, -, hrefs⟩ := hrefs
  have hrest : c.Resolve (((site, second) :: rest).map Prod.snd) (some noneType :: refs) :=
    .cons hnull.2 hrefs
  have hnulls : unionOf [some noneType, some noneType] = none := rfl
  rw [resolve_barred hnull.1 hrest, List.foldl_cons, hnulls, foldl_unionOf_none]

private theorem resolve_text {points : List Nat} {text : List Char}
    (htext : annotationText points = .ok text) (he : parseExpression? c.characters text = some e) :
    c.resolve (.constant site (.str points)) = c.resolve e := by
  rw [resolve_eq, resolveWith, resolvePoints, htext]
  simp only [Except.bind, Bind.bind, he]

section

variable {es es' : List Expr} (h : List.Forall₂ (fun e e' => c.resolve e = c.resolve e') es es')
include h

private theorem resolveFirst_alike :
    c.resolveFirst c.resolvePoints es = c.resolveFirst c.resolvePoints es' := by
  cases h with
  | nil => rfl
  | cons he _ => rwa [resolveFirst, resolveFirst, ← resolve_eq, ← resolve_eq]

private theorem resolveAll_alike :
    c.resolveAll c.resolvePoints es = c.resolveAll c.resolvePoints es' := by
  induction h with
  | nil => rfl
  | cons he _ ih => rw [resolveAll, resolveAll, ← resolve_eq, ← resolve_eq, he, ih]

end

/-- What a subscript resolves to depends on its arguments by what they resolve to. -/
theorem resolve_arguments {site' : Site} {slice' : Expr}
    (h : List.Forall₂ (fun e e' => c.resolve e = c.resolve e') (subscriptArguments slice)
      (subscriptArguments slice')) :
    c.resolve (.subscript site value slice) = c.resolve (.subscript site' value slice') := by
  rw [resolve_eq, resolve_eq, resolveWith_subscript, resolveWith_subscript, resolveFirst_alike h,
    resolveAll_alike h]

private theorem Respelled.resolve (h : c.Respelled e e') : c.resolve e = c.resolve e' := by
  induction h with
  | optional hx hnull h h' => rw [h.resolve hx hnull, h'.resolve hx hnull]
  | reordered hrefs hperm h h' => exact resolve_reordered hrefs hperm h h'
  | bars hrefs hnull h => exact resolve_bars hrefs hnull h
  | text htext he => exact resolve_text htext he
  | left _ ih | right _ ih => rw [resolve_bar, resolve_bar, ih]
  | argument hslice hslice' _ ih =>
    refine resolve_arguments ?_
    rw [hslice, hslice']
    exact List.rel_append (List.forall₂_refl _) (.cons ih (List.forall₂_refl _))

/-- A union of two members or more resolves to the only one that is not null, made nullable, and to
nothing if there is no such member or it resolves to nothing. The order of listed members does not
matter, and neither does it whether they are listed or stand between bars, unless the bars begin
with two nulls. All ways of adding null to a type resolve alike, and so do annotations that differ
by such spellings at any depth. -/
theorem union_spellings_agree (c : NameContext) :
    (∀ members refs e, c.Resolve members refs → 2 ≤ members.length → c.Listed members e →
      ∃ ref, c.resolve e = .ok ref ∧
        ∀ u, ref = some u ↔ ∃ t, OnlyMember t refs ∧ u = t.asNullable) ∧
    (∀ members members' refs e e', c.Resolve members refs → members.Perm members' →
      c.Listed members e → c.Listed members' e' → c.resolve e = c.resolve e') ∧
    (∀ first second site rest refs e, c.Resolve (first :: second :: rest.map Prod.snd) refs →
      c.Listed (first :: second :: rest.map Prod.snd) e →
        (¬c.BothNull first second →
          c.resolve (barred first ((site, second) :: rest)) = c.resolve e) ∧
        (c.BothNull first second →
          c.resolve (barred first ((site, second) :: rest)) = .ok none)) ∧
    (∀ x e e', NoTuple x → c.resolve x ≠ .ok (some noneType) → c.Optional x e → c.Optional x e' →
      c.resolve e = c.resolve e') ∧
    ∀ e e', Relation.EqvGen c.Respelled e e' → c.resolve e = c.resolve e' := by
  refine ⟨fun members refs e hrefs hlength h => ?_, fun members members' refs e e' hrefs => ?_,
    fun first second site rest refs e hrefs h => ?_, fun x e e' hx hnull h h' => ?_,
    fun e e' h => ?_⟩
  · refine ⟨_, h.resolve hrefs, fun u => unionOf_eq_some_of_two ?_⟩
    rwa [← List.Forall₂.length_eq hrefs]
  · exact resolve_reordered hrefs
  · exact ⟨fun hnull => resolve_bars hrefs hnull h, resolve_bars_null hrefs⟩
  · rw [h.resolve hx hnull, h'.resolve hx hnull]
  · induction h with
    | rel _ _ h => exact h.resolve
    | refl => rfl
    | symm _ _ _ ih => exact ih.symm
    | trans _ _ _ _ _ ih ih' => exact ih.trans ih'

namespace NullsAround

def names : NameContext :=
  { aliases := [("Union", "typing.Union")], localDefs := [], moduleName := "example" }

def null : Expr := .constant default .none

def int : Expr := .name default "int"

/-- The union that lists the members. -/
def union (members : List Expr) : Expr :=
  .subscript default (.name default "Union") (.sequence default .tuple members)

/-- The optional form is not imported, and a name is enough. -/
def optionalInt : Expr := .subscript default (.name default "Optional") int

private theorem listed (members : List Expr) : names.Listed members (union members) :=
  .mk (by decide +kernel)

private theorem resolve_members :
    names.Resolve [null, int, null] [some noneType, some (instanceOf "int"), some noneType] :=
  .cons rfl (.cons (by decide +kernel) (.cons rfl .nil))

/-- A type between nulls is found however the union is spelled, but not by bars behind two nulls. -/
theorem resolve_int_among_nulls :
    names.resolve (union [null, int, null]) = .ok (some (instanceOf "int").asNullable) ∧
    names.resolve (union [null, null, int]) = .ok (some (instanceOf "int").asNullable) ∧
    names.resolve (barred null [(default, int), (default, null)]) =
      .ok (some (instanceOf "int").asNullable) ∧
    names.resolve (barred null [(default, null), (default, int)]) = .ok none ∧
    names.resolve (barred optionalInt [(default, null)]) =
      names.resolve (union [barred null [(default, int)], null]) := by
  obtain ⟨honly, hperm, hbars, -, hdeep⟩ := union_spellings_agree names
  have hint : OnlyMember (instanceOf "int") ([some noneType] ++ [some (instanceOf "int"),
      some noneType]) := .mk (by decide) (by simp) (by simp)
  obtain ⟨ref, href, hiff⟩ := honly _ _ _ resolve_members (by decide) (listed _)
  obtain rfl := (hiff _).mpr ⟨_, hint, rfl⟩
  have hswap : [null, int, null].Perm [null, null, int] := .cons _ (.swap _ _ _)
  have hnotNull : ¬names.BothNull null int := fun h => absurd h.2 (by decide +kernel)
  have hrespelled : names.Respelled optionalInt (barred null [(default, int)]) :=
    .optional (by simp [NoTuple, int]) (by decide +kernel) (.form (by decide +kernel))
      (.nullFirst .barred)
  have hrefs : names.Resolve [barred null [(default, int)], null]
      [some (instanceOf "int").asNullable, some noneType] :=
    .cons (by decide +kernel) (.cons rfl .nil)
  have hlisted : names.Respelled (barred (barred null [(default, int)]) [(default, null)])
      (union [barred null [(default, int)], null]) :=
    .bars hrefs (fun h => absurd h.1 (by decide +kernel)) (listed _)
  refine ⟨href, (hperm _ _ _ _ _ resolve_members hswap (listed _) (listed _)).symm.trans href,
    ((hbars _ _ _ [(default, null)] _ _ resolve_members (listed _)).1 hnotNull).trans href,
    (hbars _ _ _ [(default, int)] [some noneType, some noneType, some (instanceOf "int")] _
      (.cons rfl (.cons rfl (.cons (by decide +kernel) .nil))) (listed _)).2 ⟨rfl, rfl⟩, ?_⟩
  exact hdeep _ _ (.trans _ _ _ (.rel _ _ (.left hrespelled)) (.rel _ _ hlisted))

end NullsAround

end NameContext

end ContextLint.Typing
