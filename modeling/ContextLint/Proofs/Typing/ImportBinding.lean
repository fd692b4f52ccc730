import ContextLint.Proofs.Scope.Bindings
import ContextLint.Proofs.Typing.Declared
import ContextLint.Proofs.Typing.Imported
import ContextLint.Proofs.Typing.Passes

/-!
# Names bound by imports

In a module that binds a name only by importing it from one package, the name stands for the
package's member of that name: in the tables of the module, and in every environment that arises
while the module is typed.
-/

namespace ContextLint.Source

/-- The module binds the name, and only by importing it from the package. -/
structure Module.Imports (m : Module) (package name : String) : Prop where
  /-- No expression binds the name. -/
  exprs : ∀ n ∈ m.nodes, name ∉ n.binds
  /-- No statement binds the name but an import. -/
  stmts : ∀ s ∈ m.breadthFirst, name ∉ s.binds
  /-- An import that binds the name takes it from the package. -/
  imports : ∀ i, .imports i ∈ m.breadthFirst → ∀ a ∈ i.names, a.boundName i.source = name →
    i.source = some ⟨some package, 0⟩ ∧ a = ⟨name, none⟩
  /-- There is such an import. -/
  bound : ∃ i, .imports i ∈ m.breadthFirst ∧ i.source = some ⟨some package, 0⟩ ∧
    ⟨name, none⟩ ∈ i.names

/-- The import of an import statement. -/
def Stmt.import? : Stmt → Option Import
  | .imports i => some i
  | _ => none

private theorem mem_filterMap_import? {stmts : List Stmt} {i : Import} :
    i ∈ stmts.filterMap Stmt.import? ↔ .imports i ∈ stmts := by
  rw [List.mem_filterMap]
  constructor
  · rintro ⟨s, hs, hi⟩
    cases s with
    | imports j =>
      obtain rfl := Option.some.inj hi
      exact hs
    | _ => cases hi
  · exact fun h => ⟨_, h, rfl⟩

instance (m : Module) (package name : String) : Decidable (m.Imports package name) :=
  decidable_of_iff
    ((∀ n ∈ m.nodes, name ∉ n.binds) ∧ (∀ s ∈ m.breadthFirst, name ∉ s.binds) ∧
      (∀ i ∈ m.breadthFirst.filterMap Stmt.import?, ∀ a ∈ i.names, a.boundName i.source = name →
        i.source = some ⟨some package, 0⟩ ∧ a = ⟨name, none⟩) ∧
      ∃ i ∈ m.breadthFirst.filterMap Stmt.import?, i.source = some ⟨some package, 0⟩ ∧
        ⟨name, none⟩ ∈ i.names) <| by
    simp only [mem_filterMap_import?]
    exact ⟨fun ⟨he, hs, hi, hb⟩ => ⟨he, hs, hi, hb⟩,
      fun h => ⟨h.exprs, h.stmts, h.imports, h.bound⟩⟩

end ContextLint.Source

namespace ContextLint.NameMap

variable {α : Type}

/-- Of several values written under a name the last one counts. -/
theorem get?_update (m other : NameMap α) (x : String) :
    (m.update other).get? x = ((lastNamed? Prod.fst x other).map Prod.snd).or (m.get? x) := by
  induction other generalizing m with
  | nil => rfl
  | cons p rest ih =>
    have hcons : m.update (p :: rest) = (m.set p.1 p.2).update rest := rfl
    rw [hcons, ih, get?_set, ← List.singleton_append, lastNamed?_append, lastNamed?_singleton]
    cases lastNamed? Prod.fst x rest with
    | some q => rfl
    | none =>
      by_cases hx : p.1 = x
      · simp [hx]
      · simp [hx, Ne.symm hx]

/-- A name that is written with one value only has that value, if it had it before or is written. -/
theorem get?_update_of_forall {other : NameMap α} {x : String} {a : α}
    (h : ∀ p ∈ other, p.1 = x → p.2 = a) {m : NameMap α}
    (hx : m.get? x = some a ∨ ∃ p ∈ other, p.1 = x) : (m.update other).get? x = some a := by
  rw [get?_update]
  cases hlast : lastNamed? Prod.fst x other with
  | some p =>
    rw [Option.map_some, h p (mem_of_lastNamed? hlast) (name_of_lastNamed? hlast)]
    rfl
  | none =>
    refine hx.resolve_right ?_
    rintro ⟨p, hp, hpx⟩
    exact lastNamed?_eq_none.mp hlast p hp hpx

end ContextLint.NameMap

namespace ContextLint.Typing

open Source Scope

variable {m : Module} {package x : String}

/-- Every import of the module that binds the name gives it the same meaning. -/
theorem importMeaning_snd (hm : m.Imports package x) {i : Import}
    (hi : .imports i ∈ m.breadthFirst) {a : ImportAlias} (ha : a ∈ i.names) {p : String × String}
    (h : importMeaning i.source a = some p) (hp : p.1 = x) : p.2 = package ++ "." ++ x := by
  obtain ⟨hsource, rfl⟩ := hm.imports i hi a ha ((importMeaning_fst h).symm.trans hp)
  rw [hsource, importMeaning] at h
  split at h
  · cases h
  · obtain rfl := Option.some.inj h
    rfl

/-- The names that a statement imports, with their meanings. -/
def importPairs : Stmt → NameMap String
  | .imports i => i.names.filterMap (importMeaning i.source)
  | _ => []

private theorem foldl_importPairs (stmts : List Stmt) (acc : NameMap String) :
    stmts.foldl (fun m s => m.update (importPairs s)) acc =
      acc.update (stmts.flatMap importPairs) := by
  induction stmts generalizing acc with
  | nil => rfl
  | cons s rest ih =>
    rw [List.foldl_cons, ih, List.flatMap_cons, NameMap.update, NameMap.update, NameMap.update,
      List.foldl_append]

/-- Imports are collected one after the other. -/
theorem importAliases_eq (stmts : List Stmt) :
    importAliases stmts = NameMap.update [] (stmts.flatMap importPairs) := by
  rw [← foldl_importPairs]
  exact List.foldl_ext _ _ _ fun acc s _ => by cases s <;> rfl

/-- The import table gives the name its meaning. -/
theorem importAliases_get? (hm : m.Imports package x) (hstar : x ≠ "*") :
    (importAliases m.breadthFirst).get? x = some (package ++ "." ++ x) := by
  rw [importAliases_eq]
  refine NameMap.get?_update_of_forall (fun p hp hx => ?_) (.inr ?_)
  · obtain ⟨s, hs, hp⟩ := List.mem_flatMap.mp hp
    cases s with
    | imports i =>
      obtain ⟨a, ha, hmeaning⟩ := List.mem_filterMap.mp hp
      exact importMeaning_snd hm hs ha hmeaning hx
    | _ => cases hp
  · obtain ⟨i, hi, hsource, ha⟩ := hm.bound
    refine ⟨(x, package ++ "." ++ x), List.mem_flatMap.mpr ⟨_, hi, ?_⟩, rfl⟩
    exact List.mem_filterMap.mpr ⟨_, ha, by simp [hsource, importMeaning, hstar]⟩

/-- No class or function of the module has the name. -/
theorem localDefs_not_mem (hm : m.Imports package x) (moduleName : String) :
    x ∉ (NameContext.ofModule m moduleName).localDefs := by
  simp only [NameContext.ofModule, classNames, functionNames, List.mem_append, not_or]
  constructor
  · intro hx
    obtain ⟨s, hs, hname⟩ := List.mem_filterMap.mp hx
    cases s with
    | classDef head body =>
      obtain rfl := Option.some.inj hname
      exact hm.stmts _ hs (by simp [Stmt.binds])
    | _ => cases hname
  · intro hx
    obtain ⟨s, hs, hname⟩ := List.mem_filterMap.mp hx
    cases s with
    | functionDef head body =>
      obtain rfl := Option.some.inj hname
      exact hm.stmts _ (Module.mem_breadthFirst.mpr (Stmt.mem_insideOf hs)) (by simp [Stmt.binds])
    | _ => cases hname

/-- Imports leave the name its meaning. -/
theorem respects_of_imports {r : Resolver} {k : Start} (hm : m.Imports package k.name)
    (hmeaning : r.decls.lookup? (package ++ "." ++ k.name) = k.meaning) {i : Import}
    (hi : .imports i ∈ m.breadthFirst) : r.Respects k i := by
  have hfits : ∀ names ⊆ i.names, ∀ env, k.Fits env →
      k.Fits (r.bindImports i.source names env) := by
    intro names
    induction names with
    | nil => exact fun _ env henv => henv
    | cons a rest ih =>
      intro hnames env henv
      rw [List.cons_subset] at hnames
      rw [Resolver.bindImports_cons]
      refine ih hnames.2 _ ?_
      by_cases hstar : a.name = "*"
      · rw [if_pos hstar]
        exact henv
      rw [if_neg hstar]
      by_cases hx : a.boundName i.source = k.name
      · obtain ⟨hsource, rfl⟩ := hm.imports i hi a hnames.1 hx
        rw [hx, hsource, importMeaning, if_neg hstar, Option.bind_some, hmeaning]
        exact Start.Fits.set_meaning env
      · exact henv.set_of_ne hx _
  exact fun env henv => hfits i.names (List.Subset.refl _) env henv

/-- The script of the module binds the name by its imports only. -/
theorem sparesAll_of_imports {I : Import → Prop} (hm : m.Imports package x)
    (hI : ∀ i, .imports i ∈ m.breadthFirst → I i) : SparesAll x I (bodySteps m.body) := by
  refine sparesAll_body m.body (fun s hs => ?_) fun e he n hn => hm.exprs n ?_
  · have hmem := Module.mem_breadthFirst.mpr hs
    exact ⟨hm.stmts s hmem, fun i hi => hI i (hi ▸ hmem)⟩
  · rw [Stmt.expressionsOf_eq_flatMap] at he
    rw [Module.nodes, Expr.nodesOf_eq_flatMap]
    exact List.mem_flatMap.mpr ⟨e, he, hn⟩

/-- A name bound nowhere in sight has the meaning that its imports give it. -/
theorem nameType?_of_imports (hm : m.Imports package x) (hstar : x ≠ "*") {moduleName : String}
    {library : Library} {decls : Declarations}
    (h : Declarations.ofModule m moduleName library = .ok decls) :
    decls.nameType? x = decls.lookup? (package ++ "." ++ x) := by
  have hlocal := localDefs_not_mem hm moduleName
  have haliases := importAliases_get? hm hstar
  have hnames := Declarations.names_of_ofModule h
  rw [← hnames] at hlocal
  have hget : decls.names.aliases.get? x = some (package ++ "." ++ x) := by
    rw [hnames]
    exact haliases
  simp [Declarations.nameType?, hlocal, hget]

/-- In a module that binds a name only by importing it, the calls of a function under the name that
are evaluated have the function's result type. -/
theorem TypeInfo.typeOf?_begins {moduleName : String} {library : Library} {info : TypeInfo}
    (h : TypeInfo.ofModule m moduleName library = .ok info) (hnum : m.Numbered) {k : Start}
    (hm : m.Imports package k.name) (hstar : k.name ≠ "*")
    (hmeaning : info.decls.lookup? (package ++ "." ++ k.name) = k.meaning)
    (hmethod : info.decls.attributeType? k.meaning k.method = some k.func)
    (hcall : ∀ args, info.decls.callType (some k.func) args = .ok (some k.result)) {n : Expr}
    (hn : n ∈ m.evaluatedNodes) (hb : k.begins n) : info.typeOf? n = some k.result := by
  obtain ⟨hdecls, -⟩ := ofModule_ok h
  obtain ⟨first, alone, hfirst, halone, htypes⟩ := exists_walk hnum h
  have hvalid : k.Valid info.decls :=
    ⟨(nameType?_of_imports hm hstar hdecls).trans hmeaning, hmethod, hcall⟩
  have hvisited : ∀ e ∈ visitedAll (bodySteps m.body), e ∈ m.nodes :=
    fun e he => Module.mem_nodes_of_visited he e.mem_liveNodes_self
  have hspares := fun r : Resolver => sparesAll_of_imports (I := r.Respects k) hm
  have hstart : Resolver.Settled k { types := ∅, env := [], frame := .module, results := [] } :=
    ⟨.inl rfl, List.forall_mem_nil _⟩
  -- The first walk yields an environment that gives the name its meaning, the second the types.
  rw [Resolver.courseOf, walkBody_eq] at hfirst
  have htop := Resolver.performAll_settles (r := ⟨info.decls, [], false⟩) ⟨hvalid, .inl rfl, hm.exprs⟩
    _ (hspares _ fun _ => respects_of_imports hm hmeaning) hvisited hstart first hfirst
  have hfull := Resolver.performAll_settles (r := ⟨info.decls, first.env, true⟩)
    ⟨hvalid, htop.env, hm.exprs⟩ _ (hspares _ fun _ => respects_of_imports hm hmeaning) hvisited
    hstart alone halone
  obtain ⟨-, new, hnodes, hresults, -⟩ := Resolver.performAll_reaches _ _ alone halone
  have hmem : n ∈ alone.results.map Prod.fst := by
    rw [hresults, List.nil_append, hnodes, Expr.reached_true]
    exact m.schedule_perm.mem_iff.mpr hn
  obtain ⟨x, hx, rfl⟩ := List.mem_map.mp hmem
  exact (htypes x hx).trans ((hfull.results x hx).of_begins hb)

end ContextLint.Typing
