import ContextLint.Proofs.Typing.Ancestors
import ContextLint.Proofs.Typing.Hidden

/-!
# Calls of methods

A bound method is known by one name, that of the receiver's class and its own joined by a dot, and a
call splits the name again. The name of a method has no dot, so the class comes back, and the call
has the type that the nearest class with the method declares. A class that declares no type for its
method hides what the classes above declare.
-/

namespace ContextLint.Typing

open Source Scope

section

variable {attr method : String} {ref : Option TypeRef}

namespace ClassTable

/-- No class above the name, or of the name itself, declares the attribute. -/
def LacksAttribute (t : ClassTable) (q attr : String) : Prop :=
  ∀ n info, t.Reaches q n → t.get? n = some info → info.attributes.get? attr = none

/-- What a method of a class returns, by the first class in depth-first order that has it. -/
inductive MethodType (t : ClassTable) (q method : String) : Option TypeRef → Prop
  /-- The first class that has the method declares what it returns, or declares nothing. -/
  | nearest {near far info seen} (hsearch : t.DepthFirst [] [q] (near ++ info :: far) seen)
      (hnear : ∀ a ∈ near, method ∉ a.methods) (hinfo : method ∈ info.methods) :
      MethodType t q method (info.returns.get? method)
  /-- No class has the method. -/
  | missing {found seen} (hsearch : t.DepthFirst [] [q] found seen)
      (hfound : ∀ a ∈ found, method ∉ a.methods) : MethodType t q method none

variable {t : ClassTable} {q : String}

private theorem lacksAttribute_iff :
    t.LacksAttribute q attr ↔ ∀ info ∈ t.ancestors q, info.attributes.get? attr = none := by
  simp only [LacksAttribute, mem_ancestors_iff]
  exact ⟨fun h info ⟨n, hn, hget⟩ => h n info hn hget, fun h n info hn hget => h info ⟨n, hn, hget⟩⟩

private theorem LacksAttribute.attributeType? (h : t.LacksAttribute q attr) :
    t.attributeType? q attr = none :=
  List.findSome?_eq_none_iff.mpr (lacksAttribute_iff.mp h)

/-- The search for the nearest owner of a method finds the first class that has it. -/
theorem methodType_iff : t.MethodType q method ref ↔ ref = t.methodReturn? q method := by
  constructor
  · intro h
    cases h with
    | @nearest near far info seen hsearch hnear hinfo =>
      have hnone : near.find? (·.methods.contains method) = none :=
        List.find?_eq_none.mpr fun a ha => by simpa using hnear a ha
      have hfirst : (info :: far).find? (·.methods.contains method) = some info :=
        List.find?_cons_of_pos (List.contains_iff_mem.mpr hinfo)
      rw [methodReturn?, ← hsearch.eq_ancestors, List.find?_append, hnone, Option.none_or, hfirst,
        Option.bind_some]
    | @missing found seen hsearch hfound =>
      have hnone : found.find? (·.methods.contains method) = none :=
        List.find?_eq_none.mpr fun a ha => by simpa using hfound a ha
      rw [methodReturn?, ← hsearch.eq_ancestors, hnone, Option.bind_none]
  · rintro rfl
    obtain ⟨found, seen, hsearch⟩ := t.exists_depthFirst [] [q]
    rw [methodReturn?, ← hsearch.eq_ancestors]
    cases hfind : found.find? (·.methods.contains method) with
    | none => exact .missing hsearch fun a ha => by simpa using List.find?_eq_none.mp hfind a ha
    | some info =>
      obtain ⟨hinfo, near, far, rfl, hnear⟩ := List.find?_eq_some_iff_append.mp hfind
      exact .nearest hsearch (fun a ha => by simpa using hnear a ha) (by simpa using hinfo)

end ClassTable

variable {q : String} {nullable : Bool}

namespace Declarations

/-- The name of a method without a dot comes back from its qualified name. -/
theorem splitMember_append (q : String) (hdot : '.' ∉ method.toList) :
    splitMember (q ++ "." ++ method) = (q, method) := by
  have hchars : ∀ c ∈ method.toList.reverse, decide (c ≠ '.') = true :=
    fun c hc => decide_eq_true fun heq => hdot (heq ▸ List.mem_reverse.mp hc)
  have hback : (q ++ "." ++ method).toList.reverse =
      method.toList.reverse ++ '.' :: q.toList.reverse := by simp
  simp only [splitMember, hback, List.takeWhile_append_of_pos hchars,
    List.dropWhile_append_of_pos hchars, List.takeWhile_cons, List.dropWhile_cons]
  simp

/-- Calling a method of an instance gives what the nearest class says, and nothing if no class has
the method. -/
theorem callType_method (d : Declarations) (hdot : '.' ∉ method.toList)
    (hattr : d.table.LacksAttribute q method) (href : d.table.MethodType q method ref)
    (args : List Expr) :
    d.callType (d.attributeType? (some ⟨q, .inst, nullable⟩) method) args = .ok ref := by
  simp only [attributeType?, hattr.attributeType?]
  by_cases hmethod : method ∈ d.table.methodSet q
  · rw [if_pos (List.contains_iff_mem.mpr hmethod)]
    simp only [callType, splitMember_append q hdot, ClassTable.methodType_iff.mp href]
  · rw [if_neg fun h => hmethod (List.contains_iff_mem.mp h)]
    cases href with
    | missing _ _ => rfl
    | @nearest near far info seen hsearch hnear hinfo =>
      refine absurd (List.mem_flatMap.mpr ⟨info, ?_, hinfo⟩) hmethod
      exact hsearch.eq_ancestors ▸ List.mem_append_right near List.mem_cons_self

end Declarations

variable {site site' : Site} {e : Expr} {args keywords : List Expr}

namespace Resolver

variable {r : Resolver} {results : Results} {p : Place} {env : Env}

/-- A call of an attribute is typed by the type of the receiver. -/
theorem Typed.call_attr
    (h : r.Typed results p env (.call site (.attr site' e attr) args keywords)) :
    ∃ owner ref, (e, owner) ∈ results ∧
      r.decls.callType (r.decls.attributeType? owner attr) args = .ok ref ∧
      (.call site (.attr site' e attr) args keywords, ref) ∈ results := by
  obtain ⟨f, ref, hf, hsub, href, hresult⟩ := h.call
  rw [find] at hf
  obtain ⟨x, hx, hf⟩ := exists_of_bind_ok hf
  cases hf
  obtain ⟨front, hlast⟩ := find_last p e env x hx
  exact ⟨x.type, ref, hsub (by simp [hlast]), href, hresult⟩

/-- Typing a call of a method of an instance types the receiver, the arguments and then the call. -/
theorem eval_method_call {s s' : Facts} (he : r.eval p e s = .ok (some ⟨q, .inst, nullable⟩, s'))
    (hdot : '.' ∉ method.toList) (hattr : r.decls.table.LacksAttribute q method)
    (href : r.decls.table.MethodType q method ref) (site site' : Site) (args keywords : List Expr) :
    r.eval p (.call site (.attr site' e method) args keywords) s = (do
      let bound := r.decls.attributeType? (some ⟨q, .inst, nullable⟩) method
      let s' ← r.evalAll p args (s'.record site'.id bound)
      let s' ← r.evalAll p keywords s'
      return (ref, s'.record site.id ref)) := by
  have hcall : r.decls.callType (r.decls.attributeType? (some ⟨q, .inst, nullable⟩) method) args =
      .ok ref := r.decls.callType_method hdot hattr href args
  rw [eval, eval, he]
  change (do
    let s' ← r.evalAll p args (s'.record site'.id _)
    let s' ← r.evalAll p keywords s'
    return done s' site (← r.decls.callType _ args)) = _
  rw [hcall]
  rfl

end Resolver

/-- In a module a call of a method of an instance has the type that the nearest class declares. -/
theorem TypeInfo.typeOf?_method_call {m : Module} (hm : m.Numbered) {moduleName : String}
    {library : Library} {info : TypeInfo} (h : ofModule m moduleName library = .ok info)
    (hcall : .call site (.attr site' e method) args keywords ∈ m.evaluatedNodes)
    (he : info.typeOf? e = some ⟨q, .inst, nullable⟩) (hdot : '.' ∉ method.toList)
    (hattr : info.decls.table.LacksAttribute q method)
    (href : info.decls.table.MethodType q method ref) :
    info.typeOf? (.call site (.attr site' e method) args keywords) = ref := by
  obtain ⟨globals, results, hresults, hplaced⟩ := exists_typed hm h
  obtain ⟨visited, hvisited, hcall⟩ := List.mem_flatMap.mp hcall
  rw [Module.visited, ← map_fst_placedAll false] at hvisited
  obtain ⟨x, hx, rfl⟩ := List.mem_map.mp hvisited
  obtain ⟨p, env, -, htyped⟩ := hplaced x hx
  obtain ⟨p', env', -, hcall⟩ := htyped.exists_of_mem rfl hcall
  obtain ⟨owner, ref', howner, href', hresult⟩ := hcall.call_attr
  obtain rfl : some ⟨q, .inst, nullable⟩ = owner := he.symm.trans (hresults _ howner)
  rw [info.decls.callType_method hdot hattr href] at href'
  cases href'
  exact hresults _ hresult

end

/-- Every method of every class has one type, by the first class in depth-first order that has it.
Where an expression is an instance of the class, nullable or not, and no class above declares the
method as an attribute, typing a call of the method gives it that type: for any class table, if
typing the arguments succeeds, and for every call that is evaluated in a module. -/
theorem method_call_typed_by_nearest_class :
    (∀ (t : ClassTable) (q method : String), ∃! ref, t.MethodType q method ref) ∧
    (∀ (r : Resolver) (p : Place) (e : Expr) (s s' : Facts) (q : String) (nullable : Bool),
      r.eval p e s = .ok (some ⟨q, .inst, nullable⟩, s') → ∀ method : String,
        '.' ∉ method.toList → r.decls.table.LacksAttribute q method →
        ∀ ref, r.decls.table.MethodType q method ref → ∀ site site' args keywords,
          r.eval p (.call site (.attr site' e method) args keywords) s = (do
            let bound := r.decls.attributeType? (some ⟨q, .inst, nullable⟩) method
            let s' ← r.evalAll p args (s'.record site'.id bound)
            let s' ← r.evalAll p keywords s'
            return (ref, s'.record site.id ref))) ∧
    ∀ (m : Source.Module) (moduleName : String) (library : Library) (info : TypeInfo), m.Numbered →
      TypeInfo.ofModule m moduleName library = .ok info →
        ∀ site site' e method args keywords,
          .call site (.attr site' e method) args keywords ∈ m.evaluatedNodes →
          ∀ q nullable, info.typeOf? e = some ⟨q, .inst, nullable⟩ → '.' ∉ method.toList →
            info.decls.table.LacksAttribute q method →
            ∀ ref, info.decls.table.MethodType q method ref →
              info.typeOf? (.call site (.attr site' e method) args keywords) = ref := by
  refine ⟨fun t q method => ?_, fun r p e s s' q nullable he method hdot hattr ref href => ?_,
    fun m moduleName library info hm h site site' e method args keywords hcall q nullable he hdot
      hattr ref href => ?_⟩
  · exact ⟨t.methodReturn? q method, ClassTable.methodType_iff.mpr rfl, fun ref href =>
      ClassTable.methodType_iff.mp href⟩
  · exact Resolver.eval_method_call he hdot hattr href
  · exact TypeInfo.typeOf?_method_call hm h hcall he hdot hattr href

namespace BasesInACircle

/-- A method with a receiver and perhaps a declared result. -/
def method (name : String) (returns : Option Expr) : Stmt :=
  .functionDef ⟨name, { regular := [⟨"self", none⟩] }, [], returns⟩ []

/-- A class with bases. -/
def cls (name : String) (bases : List Expr) (body : List Stmt) : Stmt :=
  .classDef ⟨name, bases, [], []⟩ body

/-- `x.method()` -/
def call (n : Nat) (method : String) : Expr :=
  .call (.ofId n) (.attr (.ofId (n + 1)) (.name (.ofId (n + 2)) "x") method) [] []

/-- `x.name(), x.close(), x.open()` -/
def calls : Expr :=
  .sequence (.ofId 8) .tuple [call 10 "name", call 20 "close", call 30 "open"]

/-- The two methods of the base are overridden half way: `close` without a declared result. -/
def module : Source.Module where
  body := [cls "Base" [] [method "name" (some (.name (.ofId 0) "str")),
      method "close" (some (.name (.ofId 1) "int"))],
    cls "Middle" [.name (.ofId 2) "Leaf", .name (.ofId 3) "Base"] [method "close" none],
    cls "Leaf" [.name (.ofId 4) "Middle"] [],
    .functionDef ⟨"f", { regular := [⟨"x", some (.subscript (.ofId 5) (.name (.ofId 6) "Optional")
      (.name (.ofId 7) "Leaf"))⟩] }, [], none⟩ [.value (some calls)]]

private theorem evaluated_call {c : Expr} (hc : c ∈ calls.evaluatedChildren) :
    c ∈ module.evaluatedNodes := by
  have hvisited : calls ∈ module.visited := by
    simp [Module.visited, module, cls, method, bodySteps, stmtSteps, visitedAll, Step.visited,
      Parameters.defaultValues]
  have hself : c ∈ c.evaluatedNodes := Expr.mem_evaluatedNodes_iff.mpr (.inl rfl)
  have hpart : c ∈ calls.evaluatedNodes := Expr.mem_evaluatedNodes_iff.mpr (.inr ⟨c, hc, hself⟩)
  exact List.mem_flatMap.mpr ⟨calls, hvisited, hpart⟩

/-- What is known of a method of `Leaf`. -/
def Known (t : ClassTable) (method : String) (ref : Option TypeRef) : Prop :=
  '.' ∉ method.toList ∧ t.methodReturn? "sample.Leaf" method = ref ∧
    ∀ info ∈ t.ancestors "sample.Leaf", info.attributes.get? method = none

instance (t : ClassTable) (method : String) (ref : Option TypeRef) :
    Decidable (Known t method ref) :=
  inferInstanceAs (Decidable (_ ∧ _ ∧ _))

/-- The type that `Base` declares for `name` is found through the circle. That for `close` is hidden
by `Middle`, which declares none, and nothing has a method `open`. -/
theorem typed_through_circle : ∃ info, TypeInfo.ofModule module "sample" .standard = .ok info ∧
    info.typeOf? (call 10 "name") = some (instanceOf "str") ∧
    info.typeOf? (call 20 "close") = none ∧ info.typeOf? (call 30 "open") = none := by
  have hknown : ∃ info, TypeInfo.ofModule module "sample" .standard = .ok info ∧
      Known info.decls.table "name" (some (instanceOf "str")) ∧
      Known info.decls.table "close" none ∧ Known info.decls.table "open" none ∧
      ∀ id ∈ [12, 22, 32],
        info.typeOf? (.name (.ofId id) "x") = some ⟨"sample.Leaf", .inst, true⟩ := by
    decide +kernel
  obtain ⟨info, hinfo, hname, hclose, hopen, hreceiver⟩ := hknown
  have hcall : ∀ n method ref, n + 2 ∈ [12, 22, 32] → call n method ∈ calls.evaluatedChildren →
      Known info.decls.table method ref → info.typeOf? (call n method) = ref := by
    rintro n method ref hn hmem ⟨hdot, href, hattr⟩
    exact method_call_typed_by_nearest_class.2.2 module "sample" .standard info (by decide) hinfo
      _ _ _ method _ _ (evaluated_call hmem) _ _ (hreceiver _ hn) hdot
      (ClassTable.lacksAttribute_iff.mpr hattr) ref (ClassTable.methodType_iff.mpr href.symm)
  refine ⟨info, hinfo, hcall 10 "name" _ (by decide) ?_ hname,
    hcall 20 "close" _ (by decide) ?_ hclose, hcall 30 "open" _ (by decide) ?_ hopen⟩
  · exact List.mem_cons_self
  · exact List.mem_cons_of_mem _ List.mem_cons_self
  · exact List.mem_cons_of_mem _ (List.mem_cons_of_mem _ List.mem_cons_self)

end BasesInACircle

end ContextLint.Typing
