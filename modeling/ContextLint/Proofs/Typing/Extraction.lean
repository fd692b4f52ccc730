import ContextLint.Proofs.Scope.Replaced
import ContextLint.Proofs.Source.Linked
import ContextLint.Proofs.Typing.Declared
import ContextLint.Proofs.Typing.WalksInStep

/-!
# Extracting a variable

The base of a chain is assigned to a new name before the statement that the chain ends, and the
chain starts from that name. The name has the type of the base, so the links have the types that
they had, and since nothing else mentions the name the rest of the module is typed as before.
-/

namespace ContextLint.Source

/-- A chain of method calls, cut at one of its receivers, and a name for the base of the cut. -/
structure Extraction where
  /-- What is extracted. -/
  base : Expr
  /-- The links behind the cut up to the last receiver. -/
  links : List Link
  /-- The last call. -/
  last : Link
  /-- The name for the base. -/
  name : String
  /-- Where the name is assigned. -/
  target : Site
  /-- Where the name is used. -/
  site : Site

namespace Extraction

variable (x : Extraction)

/-- The name in the place of the base. -/
def occurrence : Expr := .name x.site x.name

/-- The receiver of the last call. -/
def receiver : Expr := x.base.linked x.links

def call : Expr := x.last.on x.receiver

/-- The receiver of the last call with the name in the place of the base. -/
def newReceiver : Expr := x.occurrence.linked x.links

/-- The last call with the name in the place of the base. -/
def newCall : Expr := x.last.on x.newReceiver

/-- The second module is the first with the base extracted before a statement that consists of
the chain, in a function at the top level. The chain opens no scope and binds no names, and nothing
in the first module mentions the name. -/
structure Leads (m m' : Module) : Prop where
  place : ∃ head body body',
    Replaces [.value (some x.call)]
      [.assign [.name x.target x.name] x.base, .value (some x.newCall)] body body' ∧
    Replaces [.functionDef head body] [.functionDef head body'] m.body m'.body
  straight : x.call.Straight
  fresh : ∀ n ∈ m.nodes, x.name ∉ n.mentions
  characters : m'.characters = m.characters

/-- The call ends the chain on the base. -/
theorem call_eq_linked : x.call = x.base.linked (x.links ++ [x.last]) :=
  (Expr.linked_concat ..).symm

theorem newCall_eq_linked : x.newCall = x.occurrence.linked (x.links ++ [x.last]) :=
  (Expr.linked_concat ..).symm

end Extraction

/-- What is evaluated in a chain is what is evaluated in its base and, behind that, the rest, which
includes the arguments of the links. -/
theorem Expr.schedule_linked (base : Expr) (links : List Link) :
    ∃ rest, (base.linked links).schedule = base.schedule ++ rest ∧
      ∀ l ∈ links, ∀ e ∈ l.args ++ l.keywords, e.schedule ⊆ rest := by
  induction links generalizing base with
  | nil => exact ⟨[], (List.append_nil _).symm, List.forall_mem_nil _⟩
  | cons l links ih =>
    obtain ⟨rest, hrest, hargs⟩ := ih (l.on base)
    have hon : (l.on base).schedule = base.schedule ++
        ((.attr l.methodSite base l.method, false) :: ((l.args ++ l.keywords).flatMap schedule ++
          [(l.on base, false)])) := by
      simp [Link.on, schedule, scheduleOf_eq_flatMap]
    refine ⟨_, by rw [linked_cons, hrest, hon, List.append_assoc], ?_⟩
    rw [List.forall_mem_cons]
    constructor
    · intro e he y hy
      have hmem : y ∈ (l.args ++ l.keywords).flatMap schedule := List.mem_flatMap.mpr ⟨e, he, hy⟩
      exact List.mem_append_left _ (List.mem_cons_of_mem _ (List.mem_append_left _ hmem))
    · intro l' hl' e he y hy
      exact List.mem_append_right _ (hargs l' hl' e he hy)

end ContextLint.Source

namespace ContextLint.Scope

open Source

/-- A place in the body of a function at the top level. -/
structure Spot where
  /-- The script before the function. -/
  front : List Step
  /-- The head of the function. -/
  head : FunctionHead
  /-- The script of the body before the place. -/
  before : List Step
  /-- The script of the body behind the place. -/
  after : List Step
  /-- The script behind the function. -/
  back : List Step

namespace Spot

variable (p : Spot)

/-- The script of a module with the given steps in the place. -/
def script (steps : List Step) : List Step :=
  p.front ++ .function p.head (p.before ++ steps ++ p.after) :: p.back

/-- All that stands around the place. -/
def around : List Step := p.front ++ p.before ++ p.after ++ p.back

private theorem ids_script_perm (steps : List Step) :
    ((scheduleAll (p.script steps)).map (·.1.id)).Perm
      ((scheduleAll p.around).map (·.1.id) ++ (scheduleAll steps).map (·.1.id)) := by
  refine List.perm_iff_count.mpr fun id => ?_
  simp only [script, around, scheduleAll_append, scheduleAll, Step.schedule, List.map_append,
    List.map_map, List.count_append, Function.comp_def]
  omega

/-- Nothing is evaluated both in the place and around it. -/
theorem ids_disjoint {p : Spot} {steps : List Step}
    (h : ((scheduleAll (p.script steps)).map (·.1.id)).Nodup) {y z : Expr × Bool}
    (hy : y ∈ scheduleAll p.around) (hz : z ∈ scheduleAll steps) : y.1.id ≠ z.1.id := by
  have hnodup := (p.ids_script_perm steps).nodup_iff.mp h
  exact (List.nodup_append.mp hnodup).2.2 _ (List.mem_map_of_mem hy) _ (List.mem_map_of_mem hz)

private theorem ids_nodup {p : Spot} {steps : List Step}
    (h : ((scheduleAll (p.script steps)).map (·.1.id)).Nodup) :
    ((scheduleAll steps).map (·.1.id)).Nodup :=
  (List.nodup_append.mp ((p.ids_script_perm steps).nodup_iff.mp h)).2.1

end Spot

end ContextLint.Scope

namespace ContextLint.Source.Extraction

open Scope

variable (x : Extraction)

/-- The script of the assignment and the statement behind it. -/
def steps : List Step :=
  [.visit x.base, .bind x.name (some x.base) none, .visit x.newCall]

variable {x} {m m' : Module}

private theorem schedule_steps : scheduleAll x.steps = x.base.schedule ++ x.newCall.schedule := by
  simp [steps, scheduleAll, Step.schedule]

/-- The arguments of the links do not evaluate the new occurrence. -/
theorem ids_argument (h : (x.newCall.schedule.map (·.1.id)).Nodup) {l : Link}
    (hl : l ∈ x.links ++ [x.last]) {e : Expr} (he : e ∈ l.args ++ l.keywords) :
    ∀ y ∈ e.schedule, y.1.id ≠ x.site.id := by
  obtain ⟨rest, hrest, hargs⟩ := x.occurrence.schedule_linked (x.links ++ [x.last])
  rw [x.newCall_eq_linked, hrest, List.map_append] at h
  have hself : x.site.id ∈ x.occurrence.schedule.map (·.1.id) := List.mem_singleton_self _
  intro y hy heq
  exact (List.nodup_append.mp h).2.2 _ hself _ (List.mem_map_of_mem (hargs l hl e he hy)) heq.symm

/-- The base and the new occurrence are evaluated in the place and nowhere else. -/
theorem ids_around {p : Spot} (h : ((scheduleAll (p.script x.steps)).map (·.1.id)).Nodup)
    {y : Expr × Bool} (hy : y ∈ scheduleAll p.around) :
    y.1.id ≠ x.base.id ∧ y.1.id ≠ x.site.id := by
  have hdisjoint : ∀ z ∈ scheduleAll x.steps, y.1.id ≠ z.1.id :=
    fun z hz => Spot.ids_disjoint h hy hz
  obtain ⟨rest, hrest, -⟩ := x.occurrence.schedule_linked (x.links ++ [x.last])
  rw [schedule_steps, x.newCall_eq_linked, hrest, List.forall_mem_append,
    List.forall_mem_append] at hdisjoint
  exact ⟨hdisjoint.1 _ x.base.mem_schedule_self, hdisjoint.2.1 _ x.occurrence.mem_schedule_self⟩

/-- The scripts differ in one spot of one function. -/
theorem Leads.exists_spot (h : x.Leads m m') :
    ∃ p : Spot, Prepared [] p.after ∧ Prepared [] p.back ∧
      bodySteps m.body = p.script [.visit x.call] ∧ bodySteps m'.body = p.script x.steps := by
  obtain ⟨head, body, body', hin, hout⟩ := h.place
  obtain ⟨before, after, -, hafter, hbody, hbody'⟩ := bodySteps_replaces hin
  obtain ⟨front, back, -, hback, hm, hm'⟩ := bodySteps_replaces hout
  have hfunction : ∀ body, bodySteps [.functionDef head body] =
      (head.decorators ++ head.params.defaultValues).map .visit ++
        [.define head.name, .function head (bodySteps body)] := by
    simp [bodySteps, stmtSteps]
  let p : Spot :=
    { front := front ++ (head.decorators ++ head.params.defaultValues).map .visit ++
        [.define head.name], head, before, after, back }
  refine ⟨p, hafter, hback, ?_, ?_⟩
  · rw [hm, hfunction, hbody]
    simp [p, Spot.script, bodySteps, stmtSteps]
  · rw [hm', hfunction, hbody']
    simp [p, Spot.script, bodySteps, stmtSteps, assignSteps, steps]

/-- The same is declared. -/
theorem Leads.decls_eq (h : x.Leads m m') (moduleName : String) (library : Typing.Library) :
    Typing.Declarations.ofModule m moduleName library =
      Typing.Declarations.ofModule m' moduleName library := by
  obtain ⟨head, body, body', hin, hout⟩ := h.place
  have hbody : Stmt.levelsWith Stmt.declares body = Stmt.levelsWith Stmt.declares body' :=
    hin.levelsWith_declares rfl
  have hfunction : Stmt.levelsWith Stmt.declares [.functionDef head body] =
      Stmt.levelsWith Stmt.declares [.functionDef head body'] := by
    unfold Stmt.levelsWith at hbody ⊢
    simp [Stmt.levelsOf, Stmt.levels, zipLevels_nil, Stmt.declares, hbody]
  refine Typing.Declarations.ofModule_congr ?_ (hout.functionHeads_eq rfl) h.characters.symm
    moduleName library
  rw [Module.filter_breadthFirst, Module.filter_breadthFirst, hout.levelsWith_declares hfunction]

end ContextLint.Source.Extraction

namespace ContextLint.Typing

open Source Scope

/-- Results without their expressions. -/
def Results.keys (xs : Results) : List (Nat × Option TypeRef) := xs.map fun x => (x.1.id, x.2)

/-- What is recorded depends on numbers and types alone. -/
theorem keep_congr {xs ys : Results} (h : xs.keys = ys.keys) (t : TypeTable) :
    keep t xs = keep t ys := by
  have hfold : ∀ xs : Results, keep t xs =
      xs.keys.foldl (fun types k => (Facts.record ⟨types, []⟩ k.1 k.2).types) t := by
    intro xs
    rw [Results.keys, List.foldl_map]
    rfl
  rw [hfold, hfold, h]

/-- Findings that differ in what they start from and in hidden names. -/
structure Finding.Parallel (first first' : Results) (hidden : List String) (x y : Finding) :
    Prop where
  type : x.type = y.type
  env : Env.AgreeOff hidden x.env y.env
  results : ∃ xs ys : Results,
    x.results = first ++ xs ∧ y.results = first' ++ ys ∧ xs.keys = ys.keys

variable {base base' : Expr} {l : Link} {p : Place} {x : Extraction} {t : TypeTable} {z : Finding}

namespace Resolver

variable {r : Resolver} {ids : List Nat} {hidden : List String} {first first' : Results}
  {frame : Frame} {env env' : Env}

/-- A method of two receivers that are typed alike. -/
private theorem find_method (site : Site) (name : String)
    (h : Follows False (Finding.Parallel first first' hidden)
      (r.find ⟨frame, none⟩ base env) (r.find ⟨frame, none⟩ base' env')) :
    Follows False (Finding.Parallel first first' hidden)
      (r.find ⟨frame, none⟩ (.attr site base name) env)
      (r.find ⟨frame, none⟩ (.attr site base' name) env') := by
  refine h.map fun x y hxy => ?_
  obtain ⟨xs, ys, hxs, hys, hkeys⟩ := hxy.results
  refine ⟨congrArg (r.decls.attributeType? · name) hxy.type, hxy.env, ?_⟩
  refine ⟨_, _, by rw [Finding.close_results, hxs, List.append_assoc],
    by rw [Finding.close_results, hys, List.append_assoc], ?_⟩
  simp only [Results.keys, List.map_append] at hkeys ⊢
  rw [hkeys, hxy.type]
  rfl

/-- A link goes on from two bases alike. -/
private theorem find_on (hargs : ∀ e ∈ l.args ++ l.keywords, Avoids ids hidden e)
    (h : Follows False (Finding.Parallel first first' hidden)
      (r.find ⟨frame, none⟩ base env) (r.find ⟨frame, none⟩ base' env')) :
    Follows False (Finding.Parallel first first' hidden)
      (r.find ⟨frame, none⟩ (l.on base) env) (r.find ⟨frame, none⟩ (l.on base') env') := by
  rw [List.forall_mem_append] at hargs
  have hagree : r.descend = true → Env.AgreeOff hidden r.globals r.globals := fun _ _ _ => rfl
  have hstep := (walksInStep_off r.decls ids hagree).toInStep
  have hplace : Place.Alike (fun _ => Env.AgreeOff hidden) frame.opensOnGlobals ⟨frame, none⟩
      ⟨frame, none⟩ := ⟨rfl, rfl, .none⟩
  have hall : ∀ es : List Expr, (∀ e ∈ es, Avoids ids hidden e) → ∀ {env env' : Env},
      Env.AgreeOff hidden env env' →
      Follows False (Finding.Alike Eq (Env.AgreeOff hidden) Eq)
        (r.findAll ⟨frame, none⟩ es env) (r.findAll ⟨frame, none⟩ es env') := fun es hes _ _ henv =>
    (hstep.findAll es hes hplace henv).imp fun hne => hne rfl
  refine (find_method l.methodSite l.method h).bind fun f f' hf => ?_
  refine (hall l.args hargs.1 hf.env).bind fun a a' ha => ?_
  refine (hall l.keywords hargs.2 ha.env).bind fun k k' hk => ?_
  rw [hf.type]
  refine (Follows.self _).bind fun ref ref' href => .ok ?_
  obtain ⟨xs, ys, hxs, hys, hkeys⟩ := hf.results
  refine ⟨href.1, hk.env, ?_⟩
  refine ⟨xs ++ (a.results ++ (k.results ++ [(l.on base, ref)])),
    ys ++ (a'.results ++ (k'.results ++ [(l.on base', ref')])), ?_, ?_, ?_⟩
  · simp [hxs, Link.on]
  · simp [hys, Link.on]
  · simp only [Results.keys, List.map_append] at hkeys ⊢
    rw [hkeys, ha.results, hk.results, href.1]
    rfl

/-- Chains of the same links on two bases are typed alike. -/
theorem find_linked {links : List Link}
    (hargs : ∀ l ∈ links, ∀ e ∈ l.args ++ l.keywords, Avoids ids hidden e)
    (h : Follows False (Finding.Parallel first first' hidden)
      (r.find ⟨frame, none⟩ base env) (r.find ⟨frame, none⟩ base' env')) :
    Follows False (Finding.Parallel first first' hidden)
      (r.find ⟨frame, none⟩ (base.linked links) env)
      (r.find ⟨frame, none⟩ (base'.linked links) env') := by
  induction links generalizing base base' with
  | nil => exact h
  | cons l links ih =>
    rw [List.forall_mem_cons] at hargs
    exact ih hargs.2 (find_on hargs.1 h)

/-- A chain fails as its base does. -/
private theorem find_linked_error {err : AnnotationError} (h : r.find p base env = .error err)
    (links : List Link) : r.find p (base.linked links) env = .error err := by
  induction links generalizing base with
  | nil => exact h
  | cons l links ih =>
    have hon : r.find p (l.on base) env = .error err := by
      rw [Link.on, find, find, h]
      rfl
    exact ih hon

/-- What is read of the base when it is assigned. -/
private theorem read_base {x : Finding} (hx : r.find p base env = .ok x)
    (hids : (base.schedule.map (·.1.id)).Nodup) (ht : t[base.id]? = none) :
    (keep t x.results)[base.id]? = x.type := by
  obtain ⟨ys, hys⟩ := find_last p base env x hx
  have hmem : (base, x.type) ∈ x.results :=
    hys ▸ List.mem_append_right _ (List.mem_singleton_self _)
  rw [getElem?_keep, latest_of_mem (results_nodup hx hids) hmem, ht, Option.or_none]

/-- Walks in a scope of which the second has the base extracted: they differ in the new name and
under the number of its occurrence, which has the type of the base. -/
def Related (x : Extraction) (frame : Frame) (a b : Progress) : Prop :=
  Progress.Alike (fun _ => Env.AgreeOff [x.name]) (TypeTable.AgreeOff [x.site.id]) frame a b ∧
    ∀ ref, b.types[x.base.id]? = some ref → b.types[x.site.id]? = some ref

/-- The table with the base extracted. -/
private theorem types_extraction {y y' : Finding} (hread : (keep t z.results)[x.base.id]? = z.type)
    (h : Finding.Parallel z.results [(x.occurrence, z.type)] [x.name] y y')
    (hids : (y'.results.map (·.1.id)).Nodup) (hbase : ∀ w ∈ y'.results, w.1.id ≠ x.base.id) :
    TypeTable.AgreeOff [x.site.id] (keep t y.results) (keep (keep t z.results) y'.results) ∧
      ∀ ref, (keep (keep t z.results) y'.results)[x.base.id]? = some ref →
        (keep (keep t z.results) y'.results)[x.site.id]? = some ref := by
  obtain ⟨xs, ys, hy, hy', hkeys⟩ := h.results
  constructor
  · intro id hid
    have hother : ∀ w ∈ [(x.occurrence, z.type)], w.1.id ≠ id := by
      rintro w hw heq
      rw [List.mem_singleton.mp hw] at heq
      exact hid (List.mem_singleton.mpr heq.symm)
    rw [hy, hy', keep_append, keep_append, ← keep_congr hkeys, getElem?_keep _ xs,
      getElem?_keep _ xs, getElem?_keep_of_ne _ hother]
  · intro ref href
    have hmem : (x.occurrence, z.type) ∈ y'.results :=
      hy' ▸ List.mem_append_left _ (List.mem_singleton_self _)
    have hsite : latest y'.results x.site.id = z.type := latest_of_mem hids hmem
    rw [getElem?_keep_of_ne _ hbase, hread] at href
    rw [getElem?_keep, hsite, href, Option.some_or]

/-- The arguments of the links mention neither the name nor its occurrence. -/
private theorem avoids_argument (hids : (x.newCall.schedule.map (·.1.id)).Nodup)
    (hnames : ∀ n ∈ x.call.nodes, x.name ∉ n.mentions) (hl : l ∈ x.links ++ [x.last]) {e : Expr}
    (he : e ∈ l.args ++ l.keywords) : Avoids [x.site.id] [x.name] e := by
  refine ⟨fun y hy hmem => ?_, fun n hn y hy hmem => ?_⟩
  · exact Extraction.ids_argument hids hl he y hy (List.mem_singleton.mp hmem)
  · have hcall : n ∈ x.call.nodes := x.call_eq_linked ▸ Expr.nodes_argument hl he hn
    exact hnames n hcall (List.mem_singleton.mp hmem ▸ hy)

/-- The name has the type of the base that was assigned to it. -/
private theorem find_occurrence (hz : r.find ⟨frame, none⟩ x.base env = .ok z) :
    Follows False (Finding.Parallel z.results [(x.occurrence, z.type)] [x.name])
      (r.find ⟨frame, none⟩ x.base env)
      (r.find ⟨frame, none⟩ x.occurrence (z.env.set x.name z.type)) := by
  have hname : r.decls.nameIn (z.env.set x.name z.type) x.name = z.type := by
    rw [Declarations.nameIn, NameMap.get?_set, if_pos rfl]
    rfl
  rw [hz, Extraction.occurrence, find, hname]
  refine ⟨rfl, fun y hy => ?_, [], [], (List.append_nil _).symm, rfl, rfl⟩
  rw [Finding.close_env, NameMap.get?_set, if_neg fun heq => hy (List.mem_singleton.mpr heq)]

/-- The base of a chain is extracted. -/
theorem performAll_extraction (hids : ((scheduleAll x.steps).map (·.1.id)).Nodup)
    (hnames : ∀ n ∈ x.call.nodes, x.name ∉ n.mentions) (hnone : t[x.base.id]? = none) :
    Follows False (Related x frame)
      (performAll r.hooks [.visit x.call] ⟨⟨t, env⟩, frame⟩)
      (performAll r.hooks x.steps ⟨⟨t, env⟩, frame⟩) := by
  have hbind : ∀ s, perform r.hooks (.bind x.name (some x.base) none) s =
      pure (assignIn s x.name s.types[x.base.id]?) := fun _ => rfl
  simp only [Extraction.steps, performAll_cons, performAll_nil, perform_visit, hbind, bind_pure,
    bind_map_left, pure_bind, assignIn, Facts.assign, Finding.facts]
  rw [Extraction.schedule_steps, List.map_append, List.nodup_append] at hids
  obtain ⟨hbase, hnew, hdisjoint⟩ := hids
  cases hz : r.find ⟨frame, none⟩ x.base env with
  | error err =>
    rw [x.call_eq_linked, find_linked_error hz]
    exact .inr rfl
  | ok z =>
    have hread := read_base hz hbase hnone
    change Follows False _ _ ((fun y => (⟨⟨keep (keep t z.results) y.results, y.env⟩, frame⟩ :
      Progress)) <$> r.find ⟨frame, none⟩ x.newCall
        (z.env.set x.name (keep t z.results)[x.base.id]?))
    rw [hread]
    have hfind := find_linked (fun l hl e he => avoids_argument hnew hnames hl he)
      (find_occurrence hz)
    rw [← x.call_eq_linked, ← x.newCall_eq_linked] at hfind
    refine (hfind.and (Ensures.trivial _) (Ensures.self _)).map ?_
    rintro y y' ⟨hparallel, -, hy'⟩
    have hnodes := find_results _ x.newCall _ y' hy'
    have hother : ∀ w ∈ y'.results, w.1.id ≠ x.base.id := fun w hw heq =>
      hdisjoint _ (List.mem_map_of_mem x.base.mem_schedule_self) _ (id_mem_of_results hnodes hw)
        heq.symm
    have htypes := types_extraction hread hparallel (results_nodup hy' hnew) hother
    exact ⟨⟨rfl, rfl, hparallel.env, htypes.1⟩, htypes.2⟩

/-- What follows is walked alike if it mentions neither the base nor the new occurrence. -/
private theorem Related.performAll {steps : List Step} {a b : Progress} (h : Related x frame a b)
    (hsuited : SuitedAll (fun _ => Avoids [x.site.id] [x.name]) frame.opensOnGlobals steps)
    (hbase : ∀ y ∈ scheduleAll steps, y.1.id ≠ x.base.id)
    (hsite : ∀ y ∈ scheduleAll steps, y.1.id ≠ x.site.id) :
    Follows False (Related x frame) (Scope.performAll r.hooks steps a)
      (Scope.performAll r.hooks steps b) := by
  have hagree : r.descend = true → Env.AgreeOff [x.name] r.globals r.globals := fun _ _ _ => rfl
  have hwalk := (walksInStep_off r.decls [x.site.id] hagree).performAll_hooks steps
    (.refl (fun _ => rfl) _) h.1 hsuited
  refine (hwalk.and (Ensures.trivial _) (performAll_keeps steps b)).mono ?_
  rintro a' b' ⟨halike, -, -, hkeeps⟩
  refine ⟨halike, fun ref href => ?_⟩
  rw [hkeeps _ hbase] at href
  rw [hkeeps _ hsite]
  exact h.2 ref href

end Resolver

/-- What the walks need to know of the place of an extraction. -/
structure Fits (x : Extraction) (p : Spot) : Prop where
  ids : ((scheduleAll (p.script x.steps)).map (·.1.id)).Nodup
  names : ∀ n ∈ x.call.nodes, x.name ∉ n.mentions
  after : SuitedAll (fun _ => Avoids [x.site.id] [x.name]) false p.after
  back : SuitedAll (fun _ => Avoids [x.site.id] [x.name]) true p.back

variable {m m' : Module}

namespace Fits

variable {x : Extraction} {p : Spot}

/-- Neither the base nor the new occurrence is evaluated around the place. -/
theorem ids_around (h : Fits x p) :
    ((∀ y ∈ scheduleAll p.front, y.1.id ≠ x.base.id ∧ y.1.id ≠ x.site.id) ∧
      ∀ y ∈ scheduleAll p.before, y.1.id ≠ x.base.id ∧ y.1.id ≠ x.site.id) ∧
    (∀ y ∈ scheduleAll p.after, y.1.id ≠ x.base.id ∧ y.1.id ≠ x.site.id) ∧
      ∀ y ∈ scheduleAll p.back, y.1.id ≠ x.base.id ∧ y.1.id ≠ x.site.id := by
  have haround : ∀ y ∈ scheduleAll p.around, y.1.id ≠ x.base.id ∧ y.1.id ≠ x.site.id :=
    fun y hy => Extraction.ids_around h.ids hy
  simp only [Spot.around, scheduleAll_append, List.forall_mem_append] at haround
  exact ⟨haround.1.1, haround.1.2, haround.2⟩

/-- The place of an extraction is fit for it. -/
theorem exists_spot (h : x.Leads m m') (hm' : m'.Numbered) :
    ∃ p : Spot, Fits x p ∧ bodySteps m.body = p.script [.visit x.call] ∧
      bodySteps m'.body = p.script x.steps := by
  obtain ⟨p, hafter, hback, hbody, hbody'⟩ := h.exists_spot
  have hids : ((scheduleAll (p.script x.steps)).map (·.1.id)).Nodup := by
    rw [← hbody']
    exact hm'.schedule_nodup
  have hfresh : ∀ e ∈ visitedAll (p.script [.visit x.call]), ∀ n ∈ e.nodes,
      x.name ∉ n.mentions := by
    intro e he n hn
    rw [← hbody] at he
    have hmem : e ∈ m.nodes := Module.mem_nodes_of_visited he e.mem_liveNodes_self
    exact h.fresh n (Module.mem_nodes_of_mem hn hmem)
  have havoids : ∀ steps : List Step, scheduleAll steps ⊆ scheduleAll p.around →
      visitedAll steps ⊆ visitedAll (p.script [.visit x.call]) →
      ∀ e ∈ visitedAll steps, Avoids [x.site.id] [x.name] e := by
    intro steps haround hvisited e he
    have hother : ∀ y ∈ scheduleAll steps, y.1.id ∉ [x.site.id] := fun y hy hmem =>
      (Extraction.ids_around hids (haround hy)).2 (List.mem_singleton.mp hmem)
    refine ⟨forall_schedule_visited (P := fun n => n.id ∉ [x.site.id]) hother e he, ?_⟩
    intro n hn y hy hmem
    exact hfresh e (hvisited he) n hn (List.mem_singleton.mp hmem ▸ hy)
  refine ⟨p, ⟨hids, ?_, ?_, ?_⟩, hbody, hbody'⟩
  · refine hfresh x.call ?_
    simp [Spot.script, visitedAll, Step.visited]
  · refine suitedAll_of_visited Avoids.part _ hafter (List.forall_mem_nil _) (havoids _ ?_ ?_) _
    · intro y hy
      simp [Spot.around, hy]
    · intro e he
      simp [Spot.script, visitedAll, Step.visited, he]
  · refine suitedAll_of_visited Avoids.part _ hback (List.forall_mem_nil _) (havoids _ ?_ ?_) _
    · intro y hy
      simp [Spot.around, hy]
    · intro e he
      simp [Spot.script, visitedAll, Step.visited, he]

end Fits

namespace Resolver

variable {x : Extraction} {p : Spot} {d : Declarations} {g : Env}

/-- A walk that stays at the top level does not see the place. -/
theorem performAll_script_top (p : Spot) (steps : List Step) (s : Progress) :
    performAll (hooks ⟨d, g, false⟩) (p.script steps) s =
      performAll (hooks ⟨d, g, false⟩) (p.front ++ p.back) s := by
  have hfunction : ∀ s, perform (hooks ⟨d, g, false⟩)
      (.function p.head (p.before ++ steps ++ p.after)) s = pure s :=
    perform_function_of_not_descend rfl _ _
  simp only [Spot.script, performAll_append, performAll_cons, hfunction, pure_bind]

/-- A walk compared with itself. -/
private theorem performAll_same (r : Resolver) (steps : List Step) (s : Progress) :
    Follows False
      (fun a b => a = b ∧ a.frame = s.frame ∧
        ∀ id, (∀ y ∈ scheduleAll steps, y.1.id ≠ id) → a.types[id]? = s.types[id]?)
      (performAll r.hooks steps s) (performAll r.hooks steps s) :=
  (Follows.self _).mono fun a _ h => ⟨h.1, performAll_keeps steps s a h.2⟩

variable {s : Progress}

/-- The body of the function is walked alike with the base extracted. -/
private theorem performAll_body (hfits : Fits x p) (hs : s.frame = .func)
    (hnone : s.types[x.base.id]? = none) :
    Follows False (Related x .func)
      (performAll (hooks ⟨d, g, true⟩) (p.before ++ [.visit x.call] ++ p.after) s)
      (performAll (hooks ⟨d, g, true⟩) (p.before ++ x.steps ++ p.after) s) := by
  rw [performAll_append, performAll_append, performAll_append, performAll_append]
  have hplace : Follows False (Related x .func)
      (performAll (hooks ⟨d, g, true⟩) p.before s >>=
        performAll (hooks ⟨d, g, true⟩) [.visit x.call])
      (performAll (hooks ⟨d, g, true⟩) p.before s >>= performAll (hooks ⟨d, g, true⟩) x.steps) := by
    refine (performAll_same _ p.before s).bind ?_
    rintro ⟨⟨types, env⟩, frame⟩ _ ⟨rfl, hframe, hkeeps⟩
    obtain rfl : frame = .func := hframe.trans hs
    refine performAll_extraction (Spot.ids_nodup hfits.ids) hfits.names ?_
    exact (hkeeps _ fun y hy => (hfits.ids_around.1.2 y hy).1).trans hnone
  refine hplace.bind fun a b hab => hab.performAll hfits.after ?_ ?_
  · exact fun y hy => (hfits.ids_around.2.1 y hy).1
  · exact fun y hy => (hfits.ids_around.2.1 y hy).2

/-- The function is walked alike, and the scope around it stays as it is. -/
private theorem perform_function_extraction (hfits : Fits x p) (hs : s.frame = .module)
    (hnone : s.types[x.base.id]? = none) :
    Follows False (Related x .module)
      (perform (hooks ⟨d, g, true⟩) (.function p.head (p.before ++ [.visit x.call] ++ p.after)) s)
      (perform (hooks ⟨d, g, true⟩) (.function p.head (p.before ++ x.steps ++ p.after)) s) := by
  rw [perform_function rfl, perform_function rfl]
  refine (Follows.self _).bind ?_
  rintro env _ ⟨rfl, -⟩
  have hstart : ({ s with env := env, frame := .func } : Progress).frame = .func := rfl
  refine (performAll_body hfits hstart hnone).map fun a b hab => ?_
  exact ⟨⟨hs, hs, fun _ _ => rfl, hab.1.types⟩, hab.2⟩

/-- The walk that goes into functions finds the same with the base extracted. -/
theorem performAll_script (hfits : Fits x p) (hs : s.frame = .module)
    (hnone : s.types[x.base.id]? = none) :
    Follows False (Related x .module)
      (performAll (hooks ⟨d, g, true⟩) (p.script [.visit x.call]) s)
      (performAll (hooks ⟨d, g, true⟩) (p.script x.steps) s) := by
  rw [Spot.script, Spot.script, performAll_append, performAll_append]
  refine (performAll_same _ p.front s).bind ?_
  rintro a _ ⟨rfl, hframe, hkeeps⟩
  have hknown := (hkeeps _ fun y hy => (hfits.ids_around.1.1 y hy).1).trans hnone
  have hfunction := perform_function_extraction (d := d) (g := g) hfits (hframe.trans hs) hknown
  refine hfunction.bind fun a b hab => hab.performAll hfits.back ?_ ?_
  · exact fun y hy => (hfits.ids_around.2.2 y hy).1
  · exact fun y hy => (hfits.ids_around.2.2 y hy).2

/-- Around the function nothing is recorded under the number of the base. -/
private theorem performAll_around (hfits : Fits x p) (r : Resolver)
    (hnone : s.types[x.base.id]? = none) :
    Ensures (performAll r.hooks (p.front ++ p.back) s) fun s' => s'.types[x.base.id]? = none := by
  refine (performAll_keeps _ s).mono fun s' hs' => (hs'.2 _ ?_).trans hnone
  rw [scheduleAll_append, List.forall_mem_append]
  exact ⟨fun y hy => (hfits.ids_around.1.1 y hy).1, fun y hy => (hfits.ids_around.2.2 y hy).1⟩

end Resolver

/-- With the base of a chain extracted a module has the same declarations and the same types, but
for the new occurrence, which has the type of the base. -/
theorem TypeInfo.ofModule_extraction (h : x.Leads m m') (hm' : m'.Numbered) (moduleName : String)
    (library : Library) :
    Follows False
      (fun info info' => info.decls = info'.decls ∧
        TypeTable.AgreeOff [x.site.id] info.types info'.types ∧
        ∀ ref, info'.typeOf? x.base = some ref → info'.typeOf? x.occurrence = some ref)
      (ofModule m moduleName library) (ofModule m' moduleName library) := by
  obtain ⟨p, hfits, hbody, hbody'⟩ := Fits.exists_spot h hm'
  unfold ofModule Resolver.walkModule
  rw [← h.decls_eq]
  simp only [walkBody_eq, hbody, hbody', Resolver.performAll_script_top]
  refine (Follows.self _).bind ?_
  rintro d _ ⟨rfl, -⟩
  refine (Follows.self _).bind ?_
  rintro top _ ⟨rfl, htop⟩
  have hempty : (∅ : TypeTable)[x.base.id]? = none := Std.TreeMap.getElem?_emptyc
  have hnone : top.types[x.base.id]? = none := Resolver.performAll_around hfits _ hempty top htop
  have hstart : Progress.frame ⟨⟨top.types, []⟩, .module⟩ = .module := rfl
  refine (Resolver.performAll_script hfits hstart hnone).bind fun full full' hfull => ?_
  exact ⟨rfl, hfull.1.types, hfull.2⟩

end ContextLint.Typing
