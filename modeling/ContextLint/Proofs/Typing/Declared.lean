import ContextLint.Proofs.NameMap
import ContextLint.Proofs.Source.Levels
import ContextLint.Proofs.Typing.Frame

/-!
# What a module declares

The classes and functions of a module are known under the module's name followed by their own. A
qualified name of no other form means what the library says. Of a module's statements only the
classes and imports, wherever they stand, and the heads of the functions at its top level matter for
its declarations.
-/

namespace ContextLint.Source

/-- The module declares a class or a function under the qualified name. -/
def Module.Declares (m : Module) (moduleName qualname : String) : Prop :=
  ∃ name ∈ (Typing.NameContext.ofModule m moduleName).localDefs,
    moduleName ++ "." ++ name = qualname

instance (m : Module) (moduleName qualname : String) : Decidable (m.Declares moduleName qualname) :=
  inferInstanceAs (Decidable (∃ name ∈ _, _))

end ContextLint.Source

namespace ContextLint.Typing

open Source

private theorem importAliases_filter (stmts : List Stmt) :
    importAliases (stmts.filter Stmt.declares) = importAliases stmts := by
  unfold importAliases
  rw [List.foldl_filter]
  congr 1
  funext found s
  cases s <;> rfl

private theorem classNames_filter (stmts : List Stmt) :
    classNames (stmts.filter Stmt.declares) = classNames stmts := by
  unfold classNames
  rw [List.filterMap_filter]
  congr 1
  funext s
  cases s <;> rfl

private theorem collectClasses_filter (c : NameContext) (stmts : List Stmt)
    (found : NameMap ClassInfo) :
    collectClasses c (stmts.filter Stmt.declares) found = collectClasses c stmts found := by
  fun_induction collectClasses c stmts found with
  | case1 found => rfl
  | case2 head body rest found ih =>
    rw [List.filter_cons_of_pos rfl, collectClasses]
    exact congrArg _ (funext ih)
  | case3 stmt rest found hstmt ih =>
    by_cases hs : stmt.declares = true
    · rw [List.filter_cons_of_pos hs, collectClasses, ih]
      exact hstmt
    · rw [List.filter_cons_of_neg hs, ih]

private theorem functionNames_eq (stmts : List Stmt) :
    functionNames stmts = (functionHeads stmts).map FunctionHead.name := by
  unfold functionNames functionHeads
  rw [List.map_filterMap]
  congr 1
  funext s
  cases s <;> rfl

private theorem collectFunctions_eq (c : NameContext) (stmts : List Stmt)
    (found : NameMap (Option TypeRef)) :
    collectFunctions c stmts found = (functionHeads stmts).foldlM (fun found head => do
      let result ← c.resolve? head.returns
      return found.set (c.moduleName ++ "." ++ head.name) result) found := by
  fun_induction collectFunctions c stmts found with
  | case1 found => rfl
  | case2 head body rest found ih =>
    have hcons : functionHeads (.functionDef head body :: rest) = head :: functionHeads rest := rfl
    rw [hcons, List.foldlM_cons, bind_assoc]
    exact congrArg _ (funext ih)
  | case3 stmt rest found hstmt ih =>
    have hcons : functionHeads (stmt :: rest) = functionHeads rest := by
      cases stmt with
      | functionDef head body => exact (hstmt head body rfl).elim
      | _ => rfl
    rw [hcons, ih]

/-- Modules with the same classes and imports in breadth first order and the same heads of functions
at the top level have the same declarations. -/
theorem Declarations.ofModule_congr {m m' : Module}
    (hdeep : m.breadthFirst.filter Stmt.declares = m'.breadthFirst.filter Stmt.declares)
    (hheads : functionHeads m.body = functionHeads m'.body)
    (hcharacters : m.characters = m'.characters) (moduleName : String)
    (library : Library) : ofModule m moduleName library = ofModule m' moduleName library := by
  have hnames : NameContext.ofModule m moduleName = NameContext.ofModule m' moduleName := by
    simp only [NameContext.ofModule]
    rw [← importAliases_filter, ← classNames_filter, hdeep, importAliases_filter, classNames_filter,
      functionNames_eq, functionNames_eq, hheads, hcharacters]
  have hclasses : ∀ c, collectClasses c m.breadthFirst [] = collectClasses c m'.breadthFirst [] := by
    intro c
    rw [← collectClasses_filter, hdeep, collectClasses_filter]
  have hfunctions : ∀ c, collectFunctions c m.body [] = collectFunctions c m'.body [] := by
    intro c
    rw [collectFunctions_eq, collectFunctions_eq, hheads]
  simp only [ofModule, hnames, hclasses, hfunctions]

/-- The members of a class do not change its name. -/
theorem classMembers_qualname (c : NameContext) (stmts : List Stmt) (info : ClassInfo) :
    Ensures (classMembers c stmts info) fun info' => info'.qualname = info.qualname := by
  fun_induction classMembers c stmts info with
  | case1 => exact .ok rfl
  | case2 head body rest info ih =>
    exact (Ensures.trivial _).bind fun result _ => (Ensures.trivial _).bind fun attributes _ =>
      ih result attributes
  | case3 site id hint value rest info ih => exact (Ensures.trivial _).bind fun type _ => ih type
  | case4 stmt rest info _ _ ih => exact ih

/-- Class statements of other names do not change a class. -/
theorem collectClasses_get? (c : NameContext) (q : String) (stmts : List Stmt)
    (found : NameMap ClassInfo)
    (hq : ∀ name ∈ classNames stmts, c.moduleName ++ "." ++ name ≠ q) :
    Ensures (collectClasses c stmts found) fun classes => classes.get? q = found.get? q := by
  fun_induction collectClasses c stmts found with
  | case1 => exact .ok rfl
  | case2 head body rest found ih =>
    simp only [classNames, List.filterMap_cons, List.forall_mem_cons] at hq
    refine (classMembers_qualname c body _).bind fun info hinfo => ?_
    have hne : q ≠ info.qualname := by rw [hinfo]; exact hq.1.symm
    refine (ih info hq.2).mono fun classes hclasses => ?_
    rw [hclasses, NameMap.get?_set, if_neg hne]
  | case3 stmt rest found hstmt ih =>
    refine ih fun name hname => hq name ?_
    cases stmt with
    | classDef head body => exact (hstmt head body rfl).elim
    | _ => exact hname

private theorem collectClasses_isSome (c : NameContext) (q : String) (stmts : List Stmt)
    (found : NameMap ClassInfo)
    (hq : (found.get? q).isSome ∨ ∃ name ∈ classNames stmts, c.moduleName ++ "." ++ name = q) :
    Ensures (collectClasses c stmts found) fun classes => (classes.get? q).isSome := by
  fun_induction collectClasses c stmts found with
  | case1 => exact .ok (hq.resolve_right (by simp [classNames]))
  | case2 head body rest found ih =>
    refine (classMembers_qualname c body _).bind fun info hinfo => ih info ?_
    by_cases hname : q = info.qualname
    · exact .inl (by simp [hname])
    · refine hq.imp (fun hfound => by simpa [hname] using hfound) ?_
      rintro ⟨name, hmem, rfl⟩
      refine ⟨name, (List.mem_cons.mp hmem).resolve_left ?_, rfl⟩
      rintro rfl
      exact hname hinfo.symm
  | case3 stmt rest found hstmt ih =>
    refine ih (hq.imp_right ?_)
    rintro ⟨name, hmem, rfl⟩
    cases stmt with
    | classDef head body => exact (hstmt head body rfl).elim
    | _ => exact ⟨name, hmem, rfl⟩

private theorem collectFunctions_keys (c : NameContext) (q : String) (stmts : List Stmt)
    (found : NameMap (Option TypeRef)) (hfound : found.get? q = none)
    (hq : ∀ name ∈ functionNames stmts, c.moduleName ++ "." ++ name ≠ q) :
    Ensures (collectFunctions c stmts found) fun functions => functions.get? q = none := by
  fun_induction collectFunctions c stmts found with
  | case1 => exact .ok hfound
  | case2 head body rest found ih =>
    simp only [functionNames, List.filterMap_cons, List.forall_mem_cons] at hq
    refine (Ensures.trivial _).bind fun result _ => ih result ?_ hq.2
    simp [hq.1.symm, hfound]
  | case3 stmt rest found hstmt ih =>
    refine ih hfound fun name hname => hq name ?_
    cases stmt with
    | functionDef head body => exact (hstmt head body rfl).elim
    | _ => exact hname

namespace Declarations

variable {m : Module} {moduleName : String} {library : Library} {decls : Declarations}

section

variable (h : ofModule m moduleName library = .ok decls)

include h

/-- The classes and the functions are collected one after the other. -/
theorem ofModule_ok : ∃ classes functions,
    collectClasses (NameContext.ofModule m moduleName) m.breadthFirst [] = .ok classes ∧
      collectFunctions (NameContext.ofModule m moduleName) m.body [] = .ok functions ∧
      decls = ⟨NameContext.ofModule m moduleName, library, classes, functions⟩ := by
  obtain ⟨classes, hclasses, h⟩ := exists_of_bind_ok h
  obtain ⟨functions, hfunctions, h⟩ := exists_of_bind_ok h
  exact ⟨classes, functions, hclasses, hfunctions, (Except.ok.inj h).symm⟩

/-- The declarations are read against the given library. -/
theorem library_of_ofModule :
    decls.library = library := by
  obtain ⟨classes, functions, -, -, rfl⟩ := ofModule_ok h
  rfl

/-- The declarations keep the names of the module. -/
theorem names_of_ofModule :
    decls.names = NameContext.ofModule m moduleName := by
  obtain ⟨classes, functions, -, -, rfl⟩ := ofModule_ok h
  rfl

/-- A name that the module does not declare has neither class nor function of the module. -/
theorem get?_of_not_declares {q : String} (hq : ¬ m.Declares moduleName q) :
    decls.classes.get? q = none ∧ decls.functions.get? q = none := by
  obtain ⟨classes, functions, hclasses, hfunctions, rfl⟩ := ofModule_ok h
  have hall : ∀ name ∈ classNames m.breadthFirst ++ functionNames m.body,
      moduleName ++ "." ++ name ≠ q := fun name hname heq => hq ⟨name, hname, heq⟩
  rw [List.forall_mem_append] at hall
  exact ⟨collectClasses_get? _ q _ [] hall.1 classes hclasses,
    collectFunctions_keys _ q _ [] rfl hall.2 functions hfunctions⟩

/-- The classes of a module are those of its class statements, under the module's name. -/
theorem isSome_classes_iff {q : String} :
    (decls.classes.get? q).isSome ↔
      ∃ name ∈ classNames m.breadthFirst, moduleName ++ "." ++ name = q := by
  obtain ⟨classes, functions, hclasses, -, rfl⟩ := ofModule_ok h
  refine ⟨fun hsome => ?_, fun hname => ?_⟩
  · by_contra hnone
    have hget := collectClasses_get? _ q _ [] (fun name hname heq => hnone ⟨name, hname, heq⟩)
      classes hclasses
    rw [hget] at hsome
    cases hsome
  · exact collectClasses_isSome _ q _ [] (.inr hname) classes hclasses

/-- Every class statement of the module declares its class. -/
theorem isSome_of_class {name : String} (hname : name ∈ classNames m.breadthFirst) :
    (decls.classes.get? (moduleName ++ "." ++ name)).isSome :=
  (isSome_classes_iff h).mpr ⟨name, hname, rfl⟩

end

/-- What a qualified name stands for is a class of that name, if it is a class and the name is that
of a known class. -/
theorem eq_of_lookup?_class {q : String} (hclass : (decls.table.get? q).isSome) {ref : TypeRef}
    (hlookup : decls.lookup? q = some ref) (hkind : ref.kind = .cls) : ref = ⟨q, .cls, false⟩ := by
  unfold lookup? at hlookup
  split at hlookup
  · obtain rfl := Option.some.inj hlookup
    cases hkind
  · split at hlookup
    · obtain rfl := Option.some.inj hlookup
      cases hkind
    · exact (Option.some.inj hlookup).symm

/-- A name that the module does not declare means what it means in the library. -/
theorem lookup?_eq_ofLibrary {q : String} (hclass : decls.classes.get? q = none)
    (hfunction : decls.functions.get? q = none) :
    decls.lookup? q = (ofLibrary decls.library).lookup? q := by
  simp [lookup?, isFunction, table, ClassTable.get?, NameMap.has, hclass, hfunction, ofLibrary]

/-- A function that the module does not declare has its result type in the library. -/
theorem functionReturn?_eq_ofLibrary {q : String} (hfunction : decls.functions.get? q = none) :
    decls.functionReturn? q = (ofLibrary decls.library).functionReturn? q := by
  simp [functionReturn?, hfunction, ofLibrary]

end Declarations

end ContextLint.Typing
