import ContextLint.Proofs.Scope.Visited
import ContextLint.Source.Parse

/-!
# Numbers of parsed modules

Numbering gives the expressions of a module the numbers from zero on in the order of a traversal,
and leaves them where they stand: a node takes a number before its parts, and parts are
numbered one after the other. So the numbers of a parsed module tell its expressions apart.
-/

namespace ContextLint.Source

variable {α β : Type} {parts : α → List Expr} {parts' : β → List Expr} {a : α} {b : β}
  {x : StateM Nat α} {y : StateM Nat β}

/-- From any number on, the step numbers the expressions of a value one after the other and leaves
them where they stand. -/
structure Numbers (parts : α → List Expr) (a : α) (x : StateM Nat α) : Prop where
  next (k : Nat) : (x k).2 = k + (parts a).length
  ids (k : Nat) : (parts (x k).1).map Expr.id = List.range' k (parts a).length
  spans (k : Nat) : (parts (x k).1).map Expr.span = (parts a).map Expr.span

namespace Numbers

/-- Nothing is to be numbered. -/
theorem pure (h : parts a = []) : Numbers parts a (Pure.pure a) :=
  ⟨fun _ => by rw [h]; rfl, fun _ => by rw [h]; exact congrArg _ h, fun _ => rfl⟩

/-- What is built from the numbered value has the same expressions. -/
theorem map (h : Numbers parts a x) {f : α → β} (hf : ∀ a, parts' (f a) = parts a) :
    Numbers parts' (f a) (do return f (← x)) where
  next k := (h.next k).trans (by rw [hf])
  ids k := (congrArg _ (hf _)).trans ((h.ids k).trans (by rw [hf]))
  spans k := (congrArg _ (hf _)).trans ((h.spans k).trans (by rw [hf]))

/-- One value after the other. -/
theorem and (hx : Numbers parts a x) (hy : Numbers parts' b y) :
    Numbers (fun p => parts p.1 ++ parts' p.2) (a, b) (do return (← x, ← y)) where
  next k := by
    rw [List.length_append, ← Nat.add_assoc, ← hx.next, ← hy.next]
    rfl
  ids k := by
    rw [List.length_append, ← List.range'_append_1, ← hx.ids, ← hx.next, ← hy.ids,
      ← List.map_append]
    rfl
  spans k := by
    change (parts (x k).1 ++ parts' (y (x k).2).1).map Expr.span = (parts a ++ parts' b).map _
    rw [List.map_append, hx.spans, hy.spans, List.map_append]

/-- A node before its parts. -/
theorem node (h : Numbers parts a x) {f : Site → α → Expr} (hsite : ∀ s a, (f s a).site = s)
    (hnodes : ∀ s a, (f s a).nodes = f s a :: parts a) (s : Site) :
    Numbers Expr.nodes (f s a) (do return f (← s.number) (← x)) where
  next k := by
    rw [hnodes, List.length_cons, Nat.add_comm _ 1, ← Nat.add_assoc, ← h.next]
    rfl
  ids k := by
    rw [hnodes, List.length_cons, List.range'_succ, ← h.ids]
    change ((f ⟨k, s.span⟩ (x (k + 1)).1).nodes).map Expr.id = _
    rw [hnodes, List.map_cons, Expr.id, hsite]
  spans k := by
    change ((f ⟨k, s.span⟩ (x (k + 1)).1).nodes).map Expr.span = _
    rw [hnodes, hnodes, List.map_cons, List.map_cons, h.spans, Expr.span, hsite, Expr.span, hsite]

/-- A node without parts. -/
theorem leaf {f : Site → Expr} (hsite : ∀ s, (f s).site = s)
    (hnodes : ∀ s, (f s).nodes = [f s]) (s : Site) :
    Numbers Expr.nodes (f s) (do return f (← s.number)) :=
  have h : Numbers (fun _ : Unit => []) () (Pure.pure ()) := pure rfl
  h.node (f := fun s _ => f s) (fun s _ => hsite s) (fun s _ => hnodes s) s

/-- Several values one after the other. -/
theorem mapM {f : α → StateM Nat α} (h : ∀ a, Numbers parts a (f a)) (as : List α) :
    Numbers (List.flatMap parts) as (as.mapM f) := by
  induction as with
  | nil => exact pure rfl
  | cons a rest ih =>
    rw [List.mapM_cons]
    exact ((h a).and ih).map (f := fun p => p.1 :: p.2) fun _ => List.flatMap_cons

/-- A value that may be absent. -/
theorem optional {f : α → StateM Nat α} (h : ∀ a, Numbers parts a (f a)) (o : Option α) :
    Numbers (fun o => o.toList.flatMap parts) o (o.mapM f) := by
  cases o with
  | none => exact pure rfl
  | some a => exact (h a).map fun _ => List.flatMap_singleton _ _

end Numbers

namespace Expr

mutual

/-- Numbering an expression numbers all expressions inside it. -/
theorem number_numbers (e : Expr) : Numbers nodes e e.number := by
  cases e with
  | constant s v => exact .leaf (f := (constant · v)) (fun _ => rfl) (fun _ => rfl) s
  | name s id => exact .leaf (f := (name · id)) (fun _ => rfl) (fun _ => rfl) s
  | attr s value n =>
    exact (number_numbers value).node (f := (attr · · n)) (fun _ _ => rfl) (fun _ _ => rfl) s
  | call s func args keywords =>
    exact (((number_numbers func).and (numberAll_numbers args)).and (numberAll_numbers keywords)).node
      (f := fun s p => call s p.1.1 p.1.2 p.2) (fun _ _ => rfl) (fun _ _ => rfl) s
  | walrus s target value =>
    exact (number_numbers value).node (f := (walrus · target ·)) (fun _ _ => rfl)
      (fun _ _ => rfl) s
  | conditional s test body orelse =>
    exact (((number_numbers test).and (number_numbers body)).and (number_numbers orelse)).node
      (f := fun s p => conditional s p.1.1 p.1.2 p.2) (fun _ _ => rfl) (fun _ _ => rfl) s
  | lambda s params defaults body =>
    exact ((numberAll_numbers defaults).and (number_numbers body)).node
      (f := fun s p => lambda s params p.1 p.2) (fun _ _ => rfl) (fun _ _ => rfl) s
  | comprehension s kind elements generators =>
    exact ((numberAll_numbers elements).and (numberClauses_numbers generators)).node
      (f := fun s p => comprehension s kind p.1 p.2) (fun _ _ => rfl) (fun _ _ => rfl) s
  | sequence s kind elements =>
    exact (numberAll_numbers elements).node (f := (sequence · kind ·)) (fun _ _ => rfl)
      (fun _ _ => rfl) s
  | starred s value =>
    exact (number_numbers value).node (f := starred) (fun _ _ => rfl) (fun _ _ => rfl) s
  | binary s op left right =>
    exact ((number_numbers left).and (number_numbers right)).node
      (f := fun s p => binary s op p.1 p.2) (fun _ _ => rfl) (fun _ _ => rfl) s
  | subscript s value slice =>
    exact ((number_numbers value).and (number_numbers slice)).node
      (f := fun s p => subscript s p.1 p.2) (fun _ _ => rfl) (fun _ _ => rfl) s
  | compound s kind parts =>
    exact (numberAll_numbers parts).node (f := (compound · kind ·)) (fun _ _ => rfl)
      (fun _ _ => rfl) s

/-- So does numbering several expressions. -/
theorem numberAll_numbers (es : List Expr) : Numbers nodesOf es (numberAll es) := by
  cases es with
  | nil => exact .pure rfl
  | cons e rest =>
    exact ((number_numbers e).and (numberAll_numbers rest)).map (f := fun p => p.1 :: p.2)
      fun _ => rfl

/-- So does numbering the clauses of a comprehension. -/
theorem numberClauses_numbers (generators : List Generator) :
    Numbers clauseNodes generators (numberClauses generators) := by
  cases generators with
  | nil => exact .pure rfl
  | cons g rest =>
    obtain ⟨target, iter, conditions⟩ := g
    refine ((((number_numbers target).and (number_numbers iter)).and
      (numberAll_numbers conditions)).and (numberClauses_numbers rest)).map
      (f := fun p => .mk p.1.1.1 p.1.1.2 p.1.2 :: p.2) fun p => ?_
    exact rfl

end

/-- The same for an expression that may be absent. -/
theorem numberOption_numbers (o : Option Expr) :
    Numbers (fun o => nodesOf o.toList) o (numberOption o) := by
  cases o with
  | none => exact .pure rfl
  | some e => exact (number_numbers e).map fun _ => by simp

end Expr

open Source.Expr (number_numbers numberAll_numbers numberOption_numbers nodesOf)

private theorem flatMap_nodes_filterMap (f : α → Option Expr) (as : List α) :
    (as.filterMap f).flatMap Expr.nodes = as.flatMap fun a => (f a).toList.flatMap Expr.nodes := by
  induction as with
  | nil => rfl
  | cons a rest ih => cases h : f a <;> simp_all

/-- Numbering a parameter numbers its annotation. -/
theorem Param.number_numbers (p : Param) : Numbers (fun p => nodesOf p.hint.toList) p p.number :=
  (numberOption_numbers p.hint).map (f := fun hint => { p with hint }) fun _ => rfl

/-- Numbering a parameter list numbers its annotations and defaults. -/
theorem Parameters.number_numbers (p : Parameters) :
    Numbers (fun p => nodesOf p.expressions) p p.number := by
  have hparams (ps : List Param) := Numbers.mapM Param.number_numbers ps
  have hoptional (o : Option Param) := Numbers.optional Param.number_numbers o
  exact ((((((hparams p.posOnly).and (hparams p.regular)).and (hoptional p.vararg)).and
    (hparams p.kwOnly)).and (Numbers.mapM numberOption_numbers p.kwDefaults)).and
    (hoptional p.kwarg) |>.and (numberAll_numbers p.defaults)).map
    (f := fun x =>
      Parameters.mk x.1.1.1.1.1.1 x.1.1.1.1.1.2 x.1.1.1.1.2 x.1.1.1.2 x.1.1.2 x.1.2 x.2)
    fun _ => by simp [Parameters.expressions, flatMap_nodes_filterMap]

namespace Pattern

mutual

/-- Numbering a pattern numbers its expressions. -/
theorem number_numbers (p : Pattern) : Numbers (fun p => nodesOf p.expressions) p p.number := by
  cases p with
  | value e => exact e.number_numbers.map fun _ => by simp [expressions]
  | singleton | star name => exact .pure rfl
  | sequence items => exact (numberAll_numbers items).map fun _ => rfl
  | mapping keys items rest =>
    exact ((Expr.numberAll_numbers keys).and (numberAll_numbers items)).map
      (f := fun x => mapping x.1 x.2 rest) fun _ => by simp [expressions]
  | «instance» cls positional keyword =>
    exact ((cls.number_numbers.and (numberAll_numbers positional)).and
      (numberAll_numbers keyword)).map (f := fun x => Pattern.instance x.1.1 x.1.2 x.2)
      fun _ => by simp [expressions]
  | capture pattern name =>
    cases pattern with
    | none => exact .pure rfl
    | some p => exact (number_numbers p).map (f := fun p => capture (some p) name) fun _ => rfl
  | alternatives items => exact (numberAll_numbers items).map fun _ => rfl

/-- So does numbering several patterns. -/
theorem numberAll_numbers (ps : List Pattern) :
    Numbers (fun ps => nodesOf (expressionsOf ps)) ps (numberAll ps) := by
  cases ps with
  | nil => exact .pure rfl
  | cons p rest =>
    exact ((number_numbers p).and (numberAll_numbers rest)).map (f := fun x => x.1 :: x.2)
      fun _ => by simp [expressionsOf]

end

end Pattern

namespace Stmt

mutual

/-- Numbering a statement numbers its expressions and those of the statements inside it. -/
theorem number_numbers (s : Stmt) : Numbers (fun s => nodesOf s.expressions) s s.number := by
  cases s with
  | assign targets rhs =>
    exact ((Expr.numberAll_numbers targets).and rhs.number_numbers).map
      (f := fun x => assign x.1 x.2) fun _ => by simp [expressions]
  | annAssign target hint rhs =>
    exact ((target.number_numbers.and hint.number_numbers).and (numberOption_numbers rhs)).map
      (f := fun x => annAssign x.1.1 x.1.2 x.2) fun _ => by simp [expressions]
  | augAssign target rhs =>
    exact (target.number_numbers.and rhs.number_numbers).map
      (f := fun x => augAssign x.1 x.2) fun _ => by simp [expressions]
  | forLoop target iter body orelse =>
    exact (((target.number_numbers.and iter.number_numbers).and (numberAll_numbers body)).and
      (numberAll_numbers orelse)).map (f := fun x => forLoop x.1.1.1 x.1.1.2 x.1.2 x.2)
      fun _ => by simp [expressions]
  | branch test body orelse =>
    exact ((test.number_numbers.and (numberAll_numbers body)).and (numberAll_numbers orelse)).map
      (f := fun x => branch x.1.1 x.1.2 x.2) fun _ => by simp [expressions]
  | withBlock items body =>
    have hitem (i : WithItem) :
        Numbers (fun i => nodesOf (i.context :: i.target.toList)) i i.number :=
      (i.context.number_numbers.and (numberOption_numbers i.target)).map
        (f := fun x => WithItem.mk x.1 x.2) fun _ => rfl
    exact ((Numbers.mapM hitem items).and (numberAll_numbers body)).map
      (f := fun x => withBlock x.1 x.2) fun _ => by simp [expressions, List.flatMap_assoc]
  | tryBlock body handlers orelse finalbody =>
    exact ((((numberAll_numbers body).and (numberHandlers_numbers handlers)).and
      (numberAll_numbers orelse)).and (numberAll_numbers finalbody)).map
      (f := fun x => tryBlock x.1.1.1 x.1.1.2 x.1.2 x.2) fun _ => by simp [expressions]
  | matchBlock subject cases =>
    exact (subject.number_numbers.and (numberCases_numbers cases)).map
      (f := fun x => matchBlock x.1 x.2) fun _ => by simp [expressions]
  | functionDef head body =>
    exact (((head.params.number_numbers.and (numberAll_numbers body)).and
      (Expr.numberAll_numbers head.decorators)).and (numberOption_numbers head.returns)).map
      (f := fun x => functionDef
        { head with params := x.1.1.1, decorators := x.1.2, returns := x.2 } x.1.1.2)
      fun _ => by simp [expressions]
  | classDef head body =>
    exact ((((Expr.numberAll_numbers head.bases).and (Expr.numberAll_numbers head.keywords)).and
      (numberAll_numbers body)).and (Expr.numberAll_numbers head.decorators)).map
      (f := fun x => classDef
        { head with bases := x.1.1.1, keywords := x.1.1.2, decorators := x.2 } x.1.2)
      fun _ => by simp [expressions]
  | delete targets => exact (Expr.numberAll_numbers targets).map fun _ => rfl
  | imports stmt | inert => exact .pure rfl
  | value e => exact (numberOption_numbers e).map fun _ => rfl
  | raise exc cause =>
    exact ((numberOption_numbers exc).and (numberOption_numbers cause)).map
      (f := fun x => raise x.1 x.2) fun _ => by simp [expressions]
  | assert test msg =>
    exact (test.number_numbers.and (numberOption_numbers msg)).map
      (f := fun x => Stmt.assert x.1 x.2) fun _ => by simp [expressions]

/-- So does numbering several statements. -/
theorem numberAll_numbers (body : List Stmt) :
    Numbers (fun body => nodesOf (expressionsOf body)) body (numberAll body) := by
  cases body with
  | nil => exact .pure rfl
  | cons s rest =>
    exact ((number_numbers s).and (numberAll_numbers rest)).map (f := fun x => x.1 :: x.2)
      fun _ => by simp [expressionsOf]

/-- So does numbering `except` clauses. -/
theorem numberHandlers_numbers (handlers : List Handler) :
    Numbers (fun hs => nodesOf (handlerExpressions hs)) handlers (numberHandlers handlers) := by
  cases handlers with
  | nil => exact .pure rfl
  | cons handler rest =>
    obtain ⟨type, name, body⟩ := handler
    exact (((numberOption_numbers type).and (numberAll_numbers body)).and
      (numberHandlers_numbers rest)).map (f := fun x => Handler.mk x.1.1 name x.1.2 :: x.2)
      fun _ => by simp [handlerExpressions]

/-- So does numbering `case` clauses. -/
theorem numberCases_numbers (cases : List Case) :
    Numbers (fun cs => nodesOf (caseExpressions cs)) cases (numberCases cases) := by
  cases cases with
  | nil => exact .pure rfl
  | cons clause rest =>
    obtain ⟨pattern, guard, body⟩ := clause
    exact (((pattern.number_numbers.and (numberOption_numbers guard)).and
      (numberAll_numbers body)).and (numberCases_numbers rest)).map
      (f := fun x => Case.mk x.1.1.1 x.1.1.2 x.1.2 :: x.2) fun _ => by simp [caseExpressions]

end

end Stmt

namespace Module

private theorem nodes_eq (m : Module) : m.nodes = nodesOf (Stmt.expressionsOf m.body) := by
  rw [nodes, Stmt.expressionsOf_eq_flatMap]

/-- The numbers of a module once it is numbered. -/
theorem ids_number (m : Module) : m.number.nodes.map Expr.id = List.range m.nodes.length := by
  rw [nodes_eq, nodes_eq, List.range_eq_range']
  exact (Stmt.numberAll_numbers m.body).ids 0

/-- Numbering a module leaves its expressions where they stand. -/
theorem spans_number (m : Module) : m.number.nodes.map Expr.span = m.nodes.map Expr.span := by
  rw [nodes_eq, nodes_eq]
  exact (Stmt.numberAll_numbers m.body).spans 0

/-- An expression of a numbered module stands where one of the module stood before. -/
theorem exists_span_eq {m : Module} {n : Expr} (hn : n ∈ m.number.nodes) :
    ∃ n' ∈ m.nodes, n'.span = n.span := by
  have hspan : n.span ∈ m.nodes.map Expr.span := by
    rw [← spans_number]
    exact List.mem_map_of_mem hn
  exact List.mem_map.mp hspan

end Module

/-- The numbers of a parsed module tell its expressions apart. -/
theorem numbered_of_parseModule {characters : CharacterNames} {text : List Char} {m : Module}
    (h : parseModule characters text = .ok m) : m.Numbered := by
  unfold parseModule at h
  dsimp only at h
  split at h
  · obtain rfl := Except.ok.inj h
    rw [Module.Numbered, Module.ids_number]
    exact List.nodup_range
  · cases h

end ContextLint.Source
