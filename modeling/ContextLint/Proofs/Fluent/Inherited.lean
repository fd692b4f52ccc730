import ContextLint.Proofs.Fluent.Memory
import ContextLint.Proofs.Typing.Ancestors

/-!
# Inherited capability

A class has every base name and every method of its bases, however they are linked. So what counts
as a context because of its name, the name of an ancestor or its methods passes this on to the
classes below it, and they are subtypes of whatever it is a subtype of. Null and kept answers make
no difference.
-/

namespace ContextLint.Typing.ClassTable

variable {t : ClassTable} {a b : String}

/-- A class has the base names of its bases. -/
theorem baseNames_subset (h : b ∈ t.baseNames a) : t.baseNames b ⊆ t.baseNames a := by
  intro n hn
  rw [mem_baseNames_iff] at h hn ⊢
  exact h.trans hn

/-- A class has the methods of its bases. -/
theorem methodSet_subset (h : b ∈ t.baseNames a) : t.methodSet b ⊆ t.methodSet a := by
  intro m hm
  rw [mem_methodSet_iff] at hm ⊢
  obtain ⟨n, info, hn, hinfo, hm⟩ := hm
  exact ⟨n, info, (mem_baseNames_iff.mp h).trans hn, hinfo, hm⟩

/-- A class is a subtype of whatever its bases are subtypes of. -/
theorem isSubtype_of_base (h : b ∈ t.baseNames a) {q : String}
    (hb : t.isSubtype (some (instanceOf b)) q = true) :
    t.isSubtype (some (instanceOf a)) q = true := by
  obtain ⟨n, hn, hmatch⟩ := List.any_eq_true.mp hb
  exact List.any_eq_true.mpr ⟨n, baseNames_subset h hn, hmatch⟩

end ContextLint.Typing.ClassTable

namespace ContextLint.Fluent

open Typing

namespace Capability

variable {c : Capability} {a b : String}

/-- A class has every method of a context that one of its bases has. -/
theorem conforms_of_base (h : b ∈ c.table.baseNames a) (hb : c.conforms b = true) :
    c.conforms a = true := by
  rw [conforms, Bool.and_eq_true, List.all_eq_true] at hb ⊢
  refine ⟨hb.1, fun m hm => ?_⟩
  have hmethod : m ∈ c.table.methodSet b := by simpa using hb.2 m hm
  simpa using ClassTable.methodSet_subset h hmethod

/-- What counts as a context makes the classes below it count. -/
theorem holds_of_base (h : b ∈ c.table.baseNames a) (hb : c.holds b = true) : c.holds a = true := by
  rw [holds, Bool.or_eq_true, Bool.or_eq_true, List.any_eq_true] at hb ⊢
  rcases hb with (hname | ⟨n, hn, hname⟩) | hmethods
  · exact .inl (.inr ⟨b, h, hname⟩)
  · exact .inl (.inr ⟨n, ClassTable.baseNames_subset h hn, hname⟩)
  · exact .inr (conforms_of_base h hmethods)

/-- The memories that asking about types leaves behind. -/
inductive Reached (c : Capability) : Memory → Prop
  | empty : Reached c []
  | consult {m} (hm : Reached c m) (ref : Option TypeRef) : Reached c (c.consult ref m).2

private theorem Reached.sound {m : Memory} (h : c.Reached m) : Memory.Sound c m := by
  induction h with
  | empty => exact fun r b hr => nomatch hr
  | consult _ ref ih => exact (consult_sound ih ref).2

/-- An answer does not depend on what was asked before. -/
theorem Reached.consult_eq {m : Memory} (h : c.Reached m) (ref : Option TypeRef) :
    (c.consult ref m).1 = c.classify ref :=
  (consult_sound h.sound ref).1

end Capability

/-- If one name is a base name of another, directly or not, then the class of the second name counts
as a context if that of the first does, is a subtype of whatever that is a subtype of, and has its
methods. A reference and its nullable version count as contexts alike and are subtypes of the same
names. Answers about contexts are the same whatever was asked before. -/
theorem capability_inherited_and_null_ignored (c : Capability) {a b : String}
    (h : b ∈ c.table.baseNames a) :
    (∀ m m', c.Reached m → c.Reached m' → (c.consult (some (instanceOf b)) m).1 = true →
      (c.consult (some (instanceOf a)) m').1 = true) ∧
    (∀ q, c.table.isSubtype (some (instanceOf b)) q = true →
      c.table.isSubtype (some (instanceOf a)) q = true) ∧
    c.table.methodSet b ⊆ c.table.methodSet a ∧
    ∀ r : TypeRef,
      (∀ m m', c.Reached m → c.Reached m' →
        (c.consult (some r.asNullable) m).1 = (c.consult (some r) m').1) ∧
      ∀ q, c.table.isSubtype (some r.asNullable) q = c.table.isSubtype (some r) q := by
  refine ⟨fun m m' hm hm' hb => ?_, fun q => ClassTable.isSubtype_of_base h,
    ClassTable.methodSet_subset h, fun r => ⟨fun m m' hm hm' => ?_, fun q => rfl⟩⟩
  · rw [hm.consult_eq] at hb
    rw [hm'.consult_eq]
    exact Capability.holds_of_base h hb
  · rw [hm.consult_eq, hm'.consult_eq]
    rfl

namespace CyclicBases

/-- Two classes that are bases of each other, the second of which has a base besides that is not
known. -/
def capability : Capability where
  typeName := "context.Context"
  methods := ["deadline"]
  table :=
    { own := [("s.A", { qualname := "s.A", bases := ["s.B"] }),
        ("s.B", { qualname := "s.B", bases := ["s.A", "lib.context.Context"] })]
      library := [] }

/-- The name of the unknown base makes the first class a context, whatever was asked before. -/
theorem context_by_unknown_base :
    "lib.context.Context" ∈ capability.table.baseNames "s.A" ∧
    ∀ m, capability.Reached m →
      (capability.consult (some (instanceOf "s.A").asNullable) m).1 = true := by
  have hbase : "lib.context.Context" ∈ capability.table.baseNames "s.A" := by decide +kernel
  obtain ⟨hinherited, -, -, hnull⟩ := capability_inherited_and_null_ignored capability hbase
  refine ⟨hbase, fun m hm => ?_⟩
  rw [(hnull _).1 m m hm hm]
  exact hinherited [] m .empty hm (by decide +kernel)

end CyclicBases

end ContextLint.Fluent
