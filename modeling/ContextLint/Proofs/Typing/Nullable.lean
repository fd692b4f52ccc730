import ContextLint.Proofs.Typing.Malformed
import ContextLint.Proofs.Typing.WalksInStep

/-!
# Types up to null

Whether a type includes null is recorded and passed on, but decides nothing: an attribute, a call or
a base class is looked up by the name and kind of a type. Only a conditional expression compares
whole types. So annotations made optional change the types of a module in nothing but null, if it
evaluates no conditional expression.
-/

namespace ContextLint.Typing

open Source Scope

/-- References that differ at most in whether they include null. -/
structure TypeRef.Similar (r r' : TypeRef) : Prop where
  qualname : r.qualname = r'.qualname
  kind : r.kind = r'.kind

private theorem TypeRef.Similar.refl (r : TypeRef) : r.Similar r := ⟨rfl, rfl⟩

private theorem TypeRef.similar_iff {r r' : TypeRef} : r.Similar r' ↔ r.nonNull = r'.nonNull := by
  constructor
  · rintro ⟨hname, hkind⟩
    rw [nonNull, nonNull, hname, hkind]
  · intro h
    obtain ⟨hname, hkind, -⟩ := TypeRef.mk.inj h
    exact ⟨hname, hkind⟩

/-- Types, if known, that differ at most in whether they include null. -/
def UpToNull (a b : Option TypeRef) : Prop := a.map TypeRef.nonNull = b.map TypeRef.nonNull

/-- Related values are both there or both missing. -/
theorem rel_cases {α β : Type} {R : α → β → Prop} {x : Option α} {y : Option β}
    (h : Option.Rel R x y) : (x = none ∧ y = none) ∨ ∃ a b, x = some a ∧ y = some b ∧ R a b := by
  cases h with
  | none => exact .inl ⟨rfl, rfl⟩
  | some hrel => exact .inr ⟨_, _, rfl, rfl, hrel⟩

namespace UpToNull

variable {a b a' b' : Option TypeRef}

theorem refl (a : Option TypeRef) : UpToNull a a := rfl

theorem some {r r' : TypeRef} (h : r.Similar r') : UpToNull (some r) (some r') :=
  congrArg Option.some (TypeRef.similar_iff.mp h)

private theorem of_rel (h : Option.Rel TypeRef.Similar a b) : UpToNull a b := by
  cases h with
  | none => exact refl none
  | some h => exact some h

/-- Types up to null are both missing or similar. -/
theorem cases_of (h : UpToNull a b) :
    (a = none ∧ b = none) ∨ ∃ r r', a = .some r ∧ b = .some r' ∧ r.Similar r' := by
  cases a with
  | none =>
    cases b with
    | none => exact .inl ⟨rfl, rfl⟩
    | some r' => cases h
  | some r =>
    cases b with
    | none => cases h
    | some r' => exact .inr ⟨r, r', rfl, rfl, TypeRef.similar_iff.mpr (Option.some.inj h)⟩

theorem isSome (h : UpToNull a b) : a.isSome = b.isSome := by
  obtain ⟨rfl, rfl⟩ | ⟨r, r', rfl, rfl, -⟩ := h.cases_of <;> rfl

theorem or (h : UpToNull a b) (h' : UpToNull a' b') : UpToNull (a.or a') (b.or b') := by
  obtain ⟨rfl, rfl⟩ | ⟨r, r', rfl, rfl, hrel⟩ := h.cases_of
  · exact h'
  · exact some hrel

end UpToNull

/-- Classes that differ at most in whether declared types include null. -/
structure ClassInfo.UpToNull (c c' : ClassInfo) : Prop where
  qualname : c.qualname = c'.qualname
  bases : c.bases = c'.bases
  methods : c.methods = c'.methods
  returns : NameMap.Alike TypeRef.Similar c.returns c'.returns
  attributes : NameMap.Alike TypeRef.Similar c.attributes c'.attributes

theorem ClassInfo.UpToNull.refl (c : ClassInfo) : c.UpToNull c :=
  ⟨rfl, rfl, rfl, .refl .refl _, .refl .refl _⟩

private theorem flatMap_congr_forall₂ {α β : Type} {R : α → α → Prop} {f : α → List β}
    (hf : ∀ a b, R a b → f a = f b) {xs ys : List α} (h : List.Forall₂ R xs ys) :
    xs.flatMap f = ys.flatMap f := by
  induction h with
  | nil => rfl
  | cons hab _ ih => rw [List.flatMap_cons, List.flatMap_cons, hf _ _ hab, ih]

namespace ClassTable

/-- Class tables over one library that differ at most in whether declared types include null. -/
structure UpToNull (t t' : ClassTable) : Prop where
  own : NameMap.Alike ClassInfo.UpToNull t.own t'.own
  library : t.library = t'.library

namespace UpToNull

variable {t t' : ClassTable}

section

variable (h : UpToNull t t')

include h

private theorem get? (q : String) :
    Option.Rel ClassInfo.UpToNull (t.get? q) (t'.get? q) := by
  unfold ClassTable.get?
  rw [h.library]
  obtain ⟨hq, hq'⟩ | ⟨info, info', hq, hq', hinfo⟩ := rel_cases (h.own.get? q)
  · rw [hq, hq', Option.none_or]
    cases t'.library.get? q with
    | none => exact .none
    | some info => exact .some (.refl info)
  · rw [hq, hq']
    exact .some hinfo

private theorem baseCount : t.baseCount = t'.baseCount := by
  unfold ClassTable.baseCount
  rw [List.flatMap_append, List.flatMap_append, h.library,
    flatMap_congr_forall₂ (fun _ _ hpq => hpq.2.bases) h.own]

private theorem ancestorsFrom (fuel : Nat) (seen work : List String) :
    List.Forall₂ ClassInfo.UpToNull (t.ancestorsFrom fuel seen work)
      (t'.ancestorsFrom fuel seen work) := by
  induction fuel generalizing seen work with
  | zero => exact .nil
  | succ fuel ih =>
    cases work with
    | nil => exact .nil
    | cons q work =>
      rw [ClassTable.ancestorsFrom, ClassTable.ancestorsFrom]
      by_cases hseen : seen.contains q = true
      · rw [if_pos hseen, if_pos hseen]
        exact ih seen work
      · rw [if_neg hseen, if_neg hseen]
        obtain ⟨hq, hq'⟩ | ⟨info, info', hq, hq', hinfo⟩ := rel_cases (h.get? q)
        · rw [hq, hq']
          exact ih (q :: seen) work
        · rw [hq, hq']
          refine .cons hinfo ?_
          rw [hinfo.bases]
          exact ih (q :: seen) (info'.bases ++ work)

private theorem ancestors (q : String) :
    List.Forall₂ ClassInfo.UpToNull (t.ancestors q) (t'.ancestors q) := by
  unfold ClassTable.ancestors
  rw [h.baseCount]
  exact h.ancestorsFrom _ _ _

/-- Null does not change base names. -/
theorem baseNames (q : String) : t.baseNames q = t'.baseNames q :=
  congrArg (q :: ·) (flatMap_congr_forall₂ (fun _ _ hinfo => hinfo.bases) (h.ancestors q))

/-- Null does not change methods. -/
theorem methodSet (q : String) : t.methodSet q = t'.methodSet q :=
  flatMap_congr_forall₂ (fun _ _ hinfo => hinfo.methods) (h.ancestors q)

private theorem methodReturn? (owner method : String) :
    Typing.UpToNull (t.methodReturn? owner method) (t'.methodReturn? owner method) := by
  have hall := h.ancestors owner
  unfold ClassTable.methodReturn?
  generalize t.ancestors owner = xs at hall ⊢
  generalize t'.ancestors owner = ys at hall ⊢
  induction hall with
  | nil => exact .refl none
  | @cons info info' rest rest' hinfo hrest ih =>
    rw [List.find?_cons, List.find?_cons, hinfo.methods]
    cases info'.methods.contains method with
    | true => exact .of_rel (hinfo.returns.get? method)
    | false => exact ih

private theorem attributeType? (owner attr : String) :
    Typing.UpToNull (t.attributeType? owner attr) (t'.attributeType? owner attr) := by
  have hall := h.ancestors owner
  unfold ClassTable.attributeType?
  generalize t.ancestors owner = xs at hall ⊢
  generalize t'.ancestors owner = ys at hall ⊢
  induction hall with
  | nil => exact .refl none
  | @cons info info' rest rest' hinfo hrest ih =>
    rw [List.findSome?_cons, List.findSome?_cons]
    obtain ⟨hx, hx'⟩ | ⟨r, r', hx, hx', hrel⟩ := rel_cases (hinfo.attributes.get? attr)
    · rw [hx, hx']
      exact ih
    · rw [hx, hx']
      exact .some hrel

/-- Null does not matter for the classes that a value belongs to. -/
theorem isSubtype {a b : Option TypeRef} (hab : Typing.UpToNull a b) (q : String) :
    t.isSubtype a q = t'.isSubtype b q := by
  obtain ⟨rfl, rfl⟩ | ⟨r, r', rfl, rfl, hrel⟩ := hab.cases_of
  · rfl
  · simp only [ClassTable.isSubtype, TypeRef.isInstance, hrel.qualname, hrel.kind, h.baseNames]

end

end UpToNull

end ClassTable

namespace Declarations

/-- Declarations that differ at most in whether declared types include null. -/
structure UpToNull (d d' : Declarations) : Prop where
  names : d.names = d'.names
  library : d.library = d'.library
  classes : NameMap.Alike ClassInfo.UpToNull d.classes d'.classes
  functions : NameMap.Alike Typing.UpToNull d.functions d'.functions

namespace UpToNull

variable {d d' : Declarations}

section

variable (h : UpToNull d d')

include h

theorem table : d.table.UpToNull d'.table :=
  ⟨h.classes, congrArg Library.classes h.library⟩

/-- A qualified name stands for the same. -/
theorem lookup? (q : String) : d.lookup? q = d'.lookup? q := by
  have hclass : (d.table.get? q).isSome = (d'.table.get? q).isSome := by
    obtain ⟨hq, hq'⟩ | ⟨info, info', hq, hq', -⟩ := rel_cases (h.table.get? q)
    · rw [hq, hq']
    · rw [hq, hq', Option.isSome_some, Option.isSome_some]
  have hfunction : d.isFunction q = d'.isFunction q := by
    unfold isFunction NameMap.has
    rw [h.library]
    obtain ⟨hq, hq'⟩ | ⟨ref, ref', hq, hq', -⟩ := rel_cases (h.functions.get? q)
    · rw [hq, hq']
    · rw [hq, hq', Option.isSome_some, Option.isSome_some]
  simp only [Declarations.lookup?, hclass, hfunction, h.library]

/-- Null does not change what names stand for. -/
theorem nameType? (name : String) : d.nameType? name = d'.nameType? name := by
  have hlookup : d.lookup? = d'.lookup? := funext h.lookup?
  simp only [Declarations.nameType?, h.names, hlookup]

private theorem functionReturn? (q : String) :
    Typing.UpToNull (d.functionReturn? q) (d'.functionReturn? q) := by
  unfold Declarations.functionReturn?
  rw [h.library]
  obtain ⟨hq, hq'⟩ | ⟨ref, ref', hq, hq', href⟩ := rel_cases (h.functions.get? q)
  · rw [hq, hq']
    exact .refl _
  · rw [hq, hq']
    exact href

/-- Attributes have the same types up to null. -/
theorem attributeType? {owner owner' : Option TypeRef} (howner : Typing.UpToNull owner owner')
    (attr : String) :
    Typing.UpToNull (d.attributeType? owner attr) (d'.attributeType? owner' attr) := by
  obtain ⟨rfl, rfl⟩ | ⟨r, r', rfl, rfl, hrel⟩ := howner.cases_of
  · exact .refl none
  · simp only [Declarations.attributeType?, hrel.kind, hrel.qualname, h.lookup?, h.table.methodSet]
    cases r'.kind with
    | inst =>
      dsimp only
      obtain ⟨hx, hx'⟩ | ⟨s, s', hx, hx', hs⟩ :=
        (h.table.attributeType? r'.qualname attr).cases_of
      · rw [hx, hx']
        exact .refl _
      · rw [hx, hx']
        exact .some hs
    | _ => exact .refl _

/-- Calls have the same types up to null. -/
theorem callType {func func' : Option TypeRef} (hfunc : Typing.UpToNull func func')
    (args : List Expr) :
    Follows False Typing.UpToNull (d.callType func args) (d'.callType func' args) := by
  obtain ⟨rfl, rfl⟩ | ⟨r, r', rfl, rfl, hrel⟩ := hfunc.cases_of
  · exact .ok (.refl none)
  · simp only [Declarations.callType, hrel.kind, hrel.qualname, h.names]
    cases r'.kind with
    | func =>
      dsimp only
      by_cases hcast : r'.qualname = castFunction
      · rw [if_pos hcast, if_pos hcast]
        exact .refl .refl _
      · rw [if_neg hcast, if_neg hcast]
        exact .ok (h.functionReturn? r'.qualname)
    | method => exact .ok (h.table.methodReturn? _ _)
    | cls => exact .ok (.refl _)
    | inst | module => exact .ok (.refl none)

end

end UpToNull

end Declarations

end ContextLint.Typing
