import ContextLint.Proofs.Rule.Alike
import ContextLint.Proofs.Rule.Straight
import ContextLint.Proofs.Typing.Extraction
import ContextLint.Proofs.Typing.Passes

/-!
# Extracting a variable keeps a call quiet

If the base of a chain is assigned to a new name, a call at the end of the chain that is not
reported stays unreported. A context injected behind the cut is still found in the chain. One
injected before it, or carried by the name at the root, is found when the new name is bound,
which then carries it.
-/

namespace ContextLint.Source.Extraction

private theorem base_subset (x : Extraction) : x.base.nodes ⊆ x.call.nodes := by
  rw [x.call_eq_linked]
  exact Expr.nodes_linked x.base _

namespace Leads

open Scope

variable {x : Extraction} {m m' : Module}

private theorem call_mem (h : x.Leads m m') : x.call ∈ m.nodes := by
  obtain ⟨p, -, -, hbody, -⟩ := h.exists_spot
  have hvisited : x.call ∈ m.visited := by
    simp [Module.visited, hbody, Spot.script, visitedAll, Step.visited]
  exact Module.mem_nodes_of_visited hvisited x.call.mem_liveNodes_self

/-- The base stands in both modules. -/
theorem base_mem (h : x.Leads m m') : x.base ∈ m.nodes ∧ x.base ∈ m'.nodes := by
  refine ⟨Module.mem_nodes_of_mem (x.base_subset x.base.mem_nodes_self) h.call_mem, ?_⟩
  obtain ⟨p, -, -, -, hbody⟩ := h.exists_spot
  have hvisited : x.base ∈ m'.visited := by
    simp [Module.visited, hbody, Spot.script, steps, visitedAll, Step.visited]
  exact Module.mem_nodes_of_visited hvisited x.base.mem_liveNodes_self

private theorem newCall_mem (h : x.Leads m m') : x.newCall ∈ m'.nodes := by
  obtain ⟨p, -, -, -, hbody⟩ := h.exists_spot
  have hvisited : x.newCall ∈ m'.visited := by
    simp [Module.visited, hbody, Spot.script, steps, visitedAll, Step.visited]
  exact Module.mem_nodes_of_visited hvisited x.newCall.mem_liveNodes_self

private theorem occurrence_mem (h : x.Leads m m') : x.occurrence ∈ m'.nodes := by
  refine Module.mem_nodes_of_mem ?_ h.newCall_mem
  rw [x.newCall_eq_linked]
  exact Expr.nodes_linked _ _ x.occurrence.mem_nodes_self

/-- What stands in both modules has not the number of the new occurrence. -/
theorem id_ne (h : x.Leads m m') (hm' : m'.Numbered) {n : Expr} (hn : n ∈ m.nodes)
    (hn' : n ∈ m'.nodes) : n.id ≠ x.site.id := by
  intro heq
  obtain rfl : n = x.occurrence := hm'.inj hn' h.occurrence_mem heq
  exact h.fresh _ hn (List.mem_singleton_self _)

/-- Neither has a link. -/
theorem link_id_ne (h : x.Leads m m') (hm' : m'.Numbered) {l : Link} (hl : l ∈ x.links) :
    l.site.id ≠ x.site.id := by
  intro heq
  obtain ⟨e, he⟩ := x.occurrence.exists_on_mem_nodes (List.mem_append_left [x.last] hl)
  rw [← x.newCall_eq_linked] at he
  have hsame : l.on e = x.occurrence :=
    hm'.inj (Module.mem_nodes_of_mem he h.newCall_mem) h.occurrence_mem heq
  cases hsame

end Leads

end ContextLint.Source.Extraction

namespace ContextLint.Rule

open Source Scope Fluent Typing

namespace Tracker

namespace Exclusive

variable {t : Tracker}

/-- Recording a value keeps loggers apart. -/
theorem tracked (h : t.Exclusive) (a : Analysis) (name : String) (e : Expr) :
    (a.tracked t name e).Exclusive := by
  cases ht : t.records with
  | false => rwa [a.tracked_of_not_records ht]
  | true =>
    rw [a.tracked_eq_record ht]
    exact h.record name _

/-- Acts keep a tracker exclusive. -/
theorem followAll (h : t.Exclusive) (a : Analysis) (acts : List Act) :
    (a.followAll acts t).1.Exclusive := by
  have hstep : Analysis.InStep a a (fun t _ => t.Exclusive) fun _ _ => True :=
    { idle := .empty false
      child := child
      clause := child
      reset := fun x h => h.record x (none, none)
      adopt := fun x h _ => h.adopt _ x
      assign := fun x e h => h.tracked a x e
      judge := fun _ _ => trivial
      nil := trivial
      append := fun _ _ => trivial }
  exact (hstep.followAll acts (u := t) h).1

/-- A chain that a name covers is built on a name that carries a context. -/
theorem rootCarries_of_covers (h : t.Exclusive) {settings : Settings} {e : Expr}
    (he : t.covers settings e = true) : t.rootCarries e = true := by
  unfold Tracker.covers at he
  unfold Tracker.rootCarries
  cases hroot : e.rootName? with
  | none => simp [hroot] at he
  | some name =>
    simp only [hroot, Bool.or_eq_true, Bool.and_eq_true, beq_iff_eq] at he
    simp only [Tracker.carries, Tracker.state, beq_iff_eq]
    rcases he with he | ⟨he, -⟩
    · rw [he]
      rfl
    · have hnone : t.builders.get? name = none := (h name).resolve_right (by simp [he])
      rw [hnone, he]
      rfl

end Exclusive

end Tracker

namespace Analysis

variable {a b : Analysis}

/-- In a numbered module no call is judged twice. -/
theorem callsAll_nodup {m : Module} (hm : m.Numbered) : (callsAll (moduleActs m)).Nodup := by
  have hnodes : m.nodes.Nodup := List.Nodup.of_map Expr.id hm
  have hlive := (List.nodup_append.mp (m.nodes_perm.nodup_iff.mp hnodes)).1
  exact (callsAll_moduleActs_perm m).nodup_iff.mpr (hlive.filter _)

/-- A call in a function at the top level that is judged once is reported if it is flagged with what
is known before it. -/
theorem mem_followAll_iff {front back before after : List Act} {params : List String} {call : Expr}
    (h : (callsAll (front ++ .function params (before ++ .judge call :: after) :: back)).Nodup) :
    call ∈ (a.followAll (front ++ .function params (before ++ .judge call :: after) :: back)
        .idle).2 ↔
      a.flagged call (a.followAll before (Tracker.resetAll {} params)).1 = true := by
  have hperm : (callsAll (front ++ .function params (before ++ .judge call :: after) :: back)).Perm
      (call :: callsAll (front ++ before ++ after ++ back)) := by
    simp only [callsAll_append, callsAll, Act.calls, List.append_assoc, List.cons_append,
      List.nil_append]
    rw [← List.append_assoc, ← List.append_assoc (callsAll front)]
    exact List.perm_middle
  have hother := (List.nodup_cons.mp (hperm.nodup_iff.mp h)).1
  simp only [callsAll_append, List.mem_append, not_or] at hother
  have hnone : ∀ acts t, call ∉ callsAll acts → call ∉ (a.followAll acts t).2 :=
    fun acts t hacts hmem => hacts (a.followAll_subset acts t hmem)
  have hchild : Tracker.idle.child = {} := rfl
  rw [followAll_idle_append, followAll, follow, hchild, followAll_append, followAll, follow]
  simp only [List.mem_append, hnone _ _ hother.1.1.1, hnone _ _ hother.1.1.2,
    hnone _ _ hother.1.2, hnone _ _ hother.2, or_false, false_or]
  split
  · next hflagged => simp [hflagged]
  · next hflagged => simp [hflagged]

/-- Two analyses see a link alike, whatever it is a link of. -/
structure SeesLinkAlike (a b : Analysis) (l : Link) : Prop where
  result : ∀ e e' qualname, a.info.hasType (l.on e) qualname = b.info.hasType (l.on e') qualname
  arguments : ∀ e ∈ l.args ++ l.keywords, a.SeesAlike b e

variable {base base' : Expr}

/-- A chain carries a context that its links or its base carry. -/
theorem carries_linked (hs : a.settings = b.settings) {links : List Link}
    (hlinks : ∀ l ∈ links, a.SeesLinkAlike b l)
    (hbase : ∀ qualname, a.info.hasType base qualname = b.info.hasType base' qualname) {role : Role}
    (h : a.inquiry.carries role (base.linked links) = true) :
    b.inquiry.carries role (base'.linked links) = true ∨ a.inquiry.carries role base = true := by
  induction links generalizing base base' with
  | nil => exact .inr h
  | cons l links ih =>
    rw [List.forall_mem_cons] at hlinks
    rcases ih hlinks.2 (hlinks.1.result base base') h with hrest | hon
    · exact .inl hrest
    · rw [Inquiry.carries_on, Bool.or_eq_true, injects_on_congr hs hlinks.1.arguments hbase] at hon
      refine hon.imp_left fun hinjects => Inquiry.carries_linked_of_base ?_ links
      rw [Inquiry.carries_on, hinjects, Bool.true_or]

/-- Chains of the same links have the same types. -/
theorem hasType_linked {links : List Link} (hlinks : ∀ l ∈ links, a.SeesLinkAlike b l)
    (hbase : ∀ qualname, a.info.hasType base qualname = b.info.hasType base' qualname)
    (qualname : String) :
    a.info.hasType (base.linked links) qualname = b.info.hasType (base'.linked links) qualname := by
  induction links generalizing base base' with
  | nil => exact hbase qualname
  | cons l links ih =>
    rw [List.forall_mem_cons] at hlinks
    exact ih hlinks.2 (hlinks.1.result base base')

/-- An expression that finishes no logger is bound as none. -/
theorem producerOf_eq_none {e : Expr} (h : e.calledMethod? ≠ some a.settings.finalizingMethod)
    (t : Tracker) : a.producerOf t e = none := by
  unfold producerOf
  split
  · next site site' value method args keywords =>
    have hmethod : (method == a.settings.finalizingMethod) = false :=
      beq_eq_false_iff_ne.mpr fun heq => h (congrArg some heq)
    rw [hmethod, Bool.false_and, if_neg Bool.false_ne_true]
  · rfl

/-- A name bound to an event that carries a context covers the chains that start from it. -/
theorem covers_tracked {t : Tracker} (ht : t.records = true) {e : Expr}
    (hfinal : e.calledMethod? ≠ some a.settings.finalizingMethod)
    (hcarries : (a.injected e || t.rootCarries e) = true) {name : String} {receiver : Expr}
    (hroot : receiver.rootName? = some name) (settings : Settings) :
    (a.tracked t name e).covers settings receiver = true := by
  have hbuilder : a.builderOf t e = some .carries := by rw [builderOf, if_pos hcarries]
  rw [a.tracked_eq ht, producerOf_eq_none hfinal, hbuilder]
  simp [Tracker.covers, hroot, Tracker.setBuilder, NameMap.get?_set]

/-- A call that is not reported stays unreported with the base of its chain extracted. -/
theorem not_flagged_extraction {x : Extraction} (hs : a.settings = b.settings)
    (hlinks : ∀ l ∈ x.links, a.SeesLinkAlike b l) (hnodes : ∀ n ∈ x.base.nodes, a.SeesAlike b n)
    (hbase : ∀ qualname, a.info.hasType x.base qualname = b.info.hasType x.occurrence qualname)
    (hbuilder : a.info.hasType x.base a.settings.builderType = true)
    (hfinal : x.base.calledMethod? ≠ some a.settings.finalizingMethod) {t : Tracker}
    (ht : t.records = true) (hexclusive : t.Exclusive) (hsup : a.suppresses x.call = false)
    (hquiet : a.flagged x.call t = false) :
    b.flagged x.newCall (b.tracked t x.name x.base) = false := by
  rw [← tracked_congr hs hnodes]
  have hcall : x.call.receiver? = some x.receiver := rfl
  have hnewCall : x.newCall.receiver? = some x.newReceiver := rfl
  have hemits : a.emits x.call = b.emits x.newCall := by
    have htype := hasType_linked hlinks hbase a.settings.builderType
    simp only [emits, Extraction.call, Extraction.newCall, Link.on]
    exact congrArg₂ _ (hs ▸ htype) (by rw [hs])
  have hroot : x.newReceiver.rootName? = some x.name := Expr.rootName?_linked ..
  have hcovers : (a.injected x.base || t.rootCarries x.base) = true →
      (a.tracked t x.name x.base).covers b.settings x.newReceiver = true :=
    fun hcarries => covers_tracked ht hfinal hcarries hroot b.settings
  rw [a.flagged_eq hcall, hemits, hsup] at hquiet
  rw [b.flagged_eq hnewCall]
  cases hemitted : b.emits x.newCall with
  | false => rfl
  | true =>
    rw [hemitted] at hquiet
    simp only [Bool.true_and, Bool.not_false, Bool.and_true, Bool.and_eq_false_iff,
      Bool.not_eq_eq_eq_not] at hquiet ⊢
    refine .inl ?_
    rcases hquiet with hcarries | hcovered
    · rcases carries_linked hs hlinks hbase hcarries with hbehind | hfront
      · exact .inl hbehind
      · refine .inr (hcovers ?_)
        rw [injected, if_pos hbuilder, hfront, Bool.true_or]
    · refine .inr (hcovers ?_)
      have hcarried := hexclusive.rootCarries_of_covers hcovered
      rw [Tracker.rootCarries, Extraction.receiver, Expr.rootName?_linked] at hcarried
      rw [Tracker.rootCarries, hcarried, Bool.or_true]

/-- The acts of a module with the given steps in a place of a function. -/
theorem stepsActs_script (p : Spot) (steps : List Step) :
    stepsActs (p.script steps) =
      stepsActs p.front ++ .function p.head.params.names
        (stepsActs p.before ++ stepsActs steps ++ stepsActs p.after) :: stepsActs p.back := by
  simp [Spot.script, stepsActs, stepActs]

variable {x : Extraction} {p : Spot} {m : Module}

/-- What is known of names when the place is reached. -/
def arriving (a : Analysis) (p : Spot) : Tracker :=
  (a.followAll (stepsActs p.before) (Tracker.resetAll {} p.head.params.names)).1

private theorem arriving_records (a : Analysis) (p : Spot) : (a.arriving p).records = true := by
  rw [arriving, followAll_records, Tracker.resetAll_records]

private theorem arriving_exclusive (a : Analysis) (p : Spot) : (a.arriving p).Exclusive := by
  refine Tracker.Exclusive.followAll (fun y => ?_) a _
  simp

/-- The call is reported if it is flagged with what is known when it is reached. -/
theorem mem_reported_call (a : Analysis) (hm : m.Numbered)
    (hbody : bodySteps m.body = p.script [.visit x.call]) :
    x.call ∈ a.reported m ↔ a.flagged x.call (a.arriving p) = true := by
  have hnodup := callsAll_nodup hm
  have hcall : ∃ rest, exprActs x.call = .judge x.call :: rest := ⟨_, rfl⟩
  obtain ⟨rest, hrest⟩ := hcall
  rw [a.reported_eq_follow hm]
  rw [moduleActs, hbody, stepsActs_script] at hnodup ⊢
  simp only [stepsActs, stepActs, hrest, List.append_nil, List.append_assoc, List.cons_append]
    at hnodup ⊢
  exact mem_followAll_iff hnodup

/-- With the base extracted it is reported if it is flagged with what is known once the base is
bound to the new name. -/
theorem mem_reported_newCall (a : Analysis) (hm : m.Numbered) (hstraight : x.base.Straight)
    (hbody : bodySteps m.body = p.script x.steps) :
    x.newCall ∈ a.reported m ↔
      a.flagged x.newCall (a.tracked (a.arriving p) x.name x.base) = true := by
  have hnodup := callsAll_nodup hm
  have hcall : ∃ rest, exprActs x.newCall = .judge x.newCall :: rest := ⟨_, rfl⟩
  obtain ⟨rest, hrest⟩ := hcall
  have hbound : (a.followAll (stepsActs p.before ++ (exprActs x.base ++ [.assign x.name x.base]))
      (Tracker.resetAll {} p.head.params.names)).1 = a.tracked (a.arriving p) x.name x.base := by
    rw [followAll_append, followAll_append, exprActs_straight x.base hstraight, followAll_judges]
    rfl
  rw [a.reported_eq_follow hm, ← hbound]
  rw [moduleActs, hbody, stepsActs_script] at hnodup ⊢
  have hacts : stepsActs p.before ++ stepsActs x.steps ++ stepsActs p.after =
      (stepsActs p.before ++ (exprActs x.base ++ [.assign x.name x.base])) ++
        .judge x.newCall :: (rest ++ stepsActs p.after) := by
    simp [Extraction.steps, stepsActs, stepActs, hrest]
  rw [hacts] at hnodup ⊢
  exact mem_followAll_iff hnodup

section

variable {m' : Module} (h : x.Leads m m') (hm' : m'.Numbered) (hs : a.settings = b.settings)
  (hdecls : a.info.decls = b.info.decls)
  (htypes : TypeTable.AgreeOff [x.site.id] a.info.types b.info.types)
include h hm' hs hdecls htypes

/-- What stands in both modules is seen alike. -/
theorem seesAlike_extraction {n : Expr} (hn : n ∈ m.nodes) (hn' : n ∈ m'.nodes) :
    a.SeesAlike b n := by
  refine seesAlike_of_eq hs hdecls (htypes n.id ?_)
  exact fun hmem => h.id_ne hm' hn hn' (List.mem_singleton.mp hmem)

/-- The base is seen alike. -/
theorem seesAlike_base {n : Expr} (hn : n ∈ x.base.nodes) : a.SeesAlike b n :=
  seesAlike_extraction h hm' hs hdecls htypes (Module.mem_nodes_of_mem hn h.base_mem.1)
    (Module.mem_nodes_of_mem hn h.base_mem.2)

/-- The new occurrence has the type of the base if this has one. -/
theorem hasType_occurrence {builderType : String}
    (hbuilder : a.info.hasType x.base builderType = true)
    (hoccurrence : ∀ ref, b.info.typeOf? x.base = some ref → b.info.typeOf? x.occurrence = some ref)
    (qualname : String) :
    a.info.hasType x.base qualname = b.info.hasType x.occurrence qualname := by
  rw [(seesAlike_base h hm' hs hdecls htypes x.base.mem_nodes_self).hasType] at hbuilder ⊢
  cases href : b.info.typeOf? x.base with
  | none =>
    rw [TypeInfo.hasType, href] at hbuilder
    cases hbuilder
  | some ref => rw [TypeInfo.hasType, TypeInfo.hasType, href, hoccurrence ref href]

/-- The links are seen alike. -/
theorem seesLinkAlike_extraction {l : Link} (hl : l ∈ x.links) : a.SeesLinkAlike b l := by
  have hmem : l ∈ x.links ++ [x.last] := List.mem_append_left _ hl
  have hsite : l.site.id ∉ [x.site.id] :=
    fun hsite => h.link_id_ne hm' hl (List.mem_singleton.mp hsite)
  constructor
  · intro e e' qualname
    have hsees : a.SeesAlike b (l.on e) := seesAlike_of_eq hs hdecls (htypes _ hsite)
    exact hsees.hasType qualname
  · intro e he
    have hcall : e ∈ x.call.nodes := x.call_eq_linked ▸ Expr.nodes_argument hmem he e.mem_nodes_self
    have hnewCall : e ∈ x.newCall.nodes :=
      x.newCall_eq_linked ▸ Expr.nodes_argument hmem he e.mem_nodes_self
    exact seesAlike_extraction h hm' hs hdecls htypes (Module.mem_nodes_of_mem hcall h.call_mem)
      (Module.mem_nodes_of_mem hnewCall h.newCall_mem)

/-- The same is known of names when the place is reached. -/
theorem arriving_extraction (hbody : bodySteps m.body = p.script [.visit x.call])
    (hbody' : bodySteps m'.body = p.script x.steps) : a.arriving p = b.arriving p := by
  refine (followAll_congr hs _ (fun e he n hn => ?_) _).1
  have hmem : e ∈ m.nodes := subjectsAll_moduleActs <| by
    rw [moduleActs, hbody, stepsActs_script]
    simp [subjectsAll, Act.subjects, he]
  have hmem' : e ∈ m'.nodes := subjectsAll_moduleActs <| by
    rw [moduleActs, hbody', stepsActs_script]
    simp [subjectsAll, Act.subjects, he]
  exact seesAlike_extraction h hm' hs hdecls htypes (Module.mem_nodes_of_mem hn hmem)
    (Module.mem_nodes_of_mem hn hmem')

end

end Analysis

/-- Extracting a variable does not bring a call to be reported. Take a call at the end of a chain, a
statement of its own in a function at the top level, that is not reported though no directive
applies to it. Cut its chain at an event that no finalizing method made, assign the event to a new
name and let the chain start from that name. The module is still accepted, whatever text it has, and
the call is still not reported. -/
theorem extraction_keeps_quiet (x : Extraction) {m m' : Module} (h : x.Leads m m')
    (hm : m.Numbered) (hm' : m'.Numbered) {source : List Char} {filename moduleName : String}
    {settings : Settings} {library : Library} {a : Analysis}
    (ha : Analysis.ofModule m source filename moduleName settings library = .ok a)
    (hsuppressed : a.suppresses x.call = false) (hreported : x.call ∉ a.reported m)
    (hbuilder : a.info.hasType x.base settings.builderType = true)
    (hfinal : x.base.calledMethod? ≠ some settings.finalizingMethod) (source' : List Char)
    (filename' : String) :
    ∃ b, Analysis.ofModule m' source' filename' moduleName settings library = .ok b ∧
      b.check m' = ((b.reported m').map b.diagnosticOf).mergeSort Report.Diagnostic.placeLe ∧
      x.newCall ∉ b.reported m' := by
  obtain ⟨p, -, hbody, hbody'⟩ := Fits.exists_spot h hm'
  obtain ⟨hinfo, rfl, -⟩ := Analysis.ofModule_ok ha
  have hinfos := TypeInfo.ofModule_extraction h hm' moduleName library
  rw [hinfo] at hinfos
  obtain ⟨info', hinfo', hdecls, htypes, hoccurrence⟩ := hinfos.exists_of_ok_left
  obtain ⟨b, hb, rfl, hs, -⟩ := Analysis.exists_ofModule hinfo' source' filename' a.settings
  refine ⟨b, hb, b.check_eq_reported m', ?_⟩
  have hstraight : x.base.Straight := fun n hn => h.straight n (x.base_subset hn)
  rw [a.mem_reported_call hm hbody, Bool.not_eq_true] at hreported
  rw [b.mem_reported_newCall hm' hstraight hbody', Bool.not_eq_true,
    ← Analysis.arriving_extraction h hm' hs.symm hdecls htypes hbody hbody']
  refine Analysis.not_flagged_extraction hs.symm ?_ ?_ ?_ hbuilder hfinal (a.arriving_records p)
    (a.arriving_exclusive p) hsuppressed hreported
  · exact fun l => Analysis.seesLinkAlike_extraction h hm' hs.symm hdecls htypes
  · exact fun n => Analysis.seesAlike_base h hm' hs.symm hdecls htypes
  · exact Analysis.hasType_occurrence h hm' hs.symm hdecls htypes hbuilder hoccurrence

namespace ExtractedEvent

/-- `e.ctx(c)` is cut from `e.ctx(c).str().msg()` and gets the name `event`. -/
def cut : Extraction where
  base := .call (.ofId 0) (.attr (.ofId 1) (.name (.ofId 2) "e") "ctx") [.name (.ofId 3) "c"] []
  links := [⟨.ofId 4, .ofId 5, "str", [], []⟩]
  last := ⟨.ofId 6, .ofId 7, "msg", [], []⟩
  name := "event"
  target := .ofId 8
  site := .ofId 9

/-- A function of an event and a context. -/
def head : FunctionHead where
  name := "f"
  params :=
    { regular :=
        [⟨"e", some (.attr (.ofId 10) (.name (.ofId 11) "zerolog") "Event")⟩,
         ⟨"c", some (.attr (.ofId 12) (.name (.ofId 13) "context") "Context")⟩] }
  decorators := []
  returns := none

/-- `import zerolog, context`. -/
def imports : Stmt := .imports ⟨none, [⟨"zerolog", none⟩, ⟨"context", none⟩]⟩

/-- A module that defines the function. -/
def defining (body : List Stmt) : Module := { body := [imports, .functionDef head body] }

/-- The function emits the event in one chain. -/
def chained : Module := defining [.value (some cut.call)]

/-- The function emits it through the new name. -/
def extracted : Module :=
  defining [.assign [.name cut.target cut.name] cut.base, .value (some cut.newCall)]

private theorem leads : cut.Leads chained extracted where
  place := ⟨head, _, _, .here, .among [imports] [] .here⟩
  straight := by
    unfold Expr.Straight
    decide
  fresh := by decide
  characters := rfl

/-- The chain emits an event, and a context is injected before the cut. -/
theorem exists_injected :
    ∃ a, Analysis.ofModule chained [] "sample.py" "sample" {} .standard = .ok a ∧
      a.emits cut.call = true ∧ a.suppresses cut.call = false ∧
      (a.reported chained).isEmpty = true ∧
      a.info.hasType cut.base ({} : Settings).builderType = true := by
  decide +kernel

/-- The context injected before the cut is not lost: with the event extracted the call is still
not reported. -/
theorem injection_survives :
    cut.Leads chained extracted ∧ chained.Numbered ∧ extracted.Numbered ∧
      cut.base.calledMethod? ≠ some ({} : Settings).finalizingMethod ∧
      ∃ a, Analysis.ofModule chained [] "sample.py" "sample" {} .standard = .ok a ∧
        a.emits cut.call = true ∧ a.suppresses cut.call = false ∧
        cut.call ∉ a.reported chained ∧
        a.info.hasType cut.base ({} : Settings).builderType = true ∧
        ∃ b, Analysis.ofModule extracted [] "sample.py" "sample" {} .standard = .ok b ∧
          cut.newCall ∉ b.reported extracted := by
  obtain ⟨a, ha, hemits, hsuppressed, hempty, htype⟩ := exists_injected
  have hnum : chained.Numbered := by decide
  have hnum' : extracted.Numbered := by decide
  have hfinal : cut.base.calledMethod? ≠ some ({} : Settings).finalizingMethod := by decide
  have hquiet : cut.call ∉ a.reported chained := by
    rw [List.isEmpty_iff.mp hempty]
    exact List.not_mem_nil
  obtain ⟨b, hb, -, hnew⟩ := extraction_keeps_quiet cut leads hnum hnum' ha hsuppressed hquiet htype
    hfinal [] "sample.py"
  exact ⟨leads, hnum, hnum', hfinal, a, ha, hemits, hsuppressed, hquiet, htype, b, hb, hnew⟩

end ExtractedEvent

end ContextLint.Rule
