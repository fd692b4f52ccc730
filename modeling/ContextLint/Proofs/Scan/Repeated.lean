import ContextLint.Proofs.Rule.Coverage
import ContextLint.Proofs.Scan.PathOrder

/-!
# Files found under several paths

A scan looks for files under each of its paths separately. A file is visited once for every path
that it is found under, so it is visited once and counted once exactly if no two paths have it in
common. Within a visit no call is reported twice.
-/

namespace ContextLint

open Files Report Source Rule

section

variable (tree : Tree) (cwd : Path) (paths : List Path)

include tree cwd paths

/-- The files visited are those discovered under the paths, path by path. -/
theorem map_file_visits :
    (visits tree cwd paths).map FileVisit.file =
      paths.flatMap fun path => discover tree [Path.resolve cwd path] := by
  rw [visits, List.map_flatMap]
  apply List.flatMap_congr
  intro path _
  rw [rootVisits, List.map_map]
  exact List.map_id _

/-- A file is visited as often as it is found under a path. -/
theorem count_file_visits (file : Path) :
    ((visits tree cwd paths).map FileVisit.file).count file =
      paths.countP fun path => file ∈ discover tree [Path.resolve cwd path] := by
  rw [map_file_visits]
  induction paths with
  | nil => rfl
  | cons path paths ih =>
    rw [List.flatMap_cons, List.count_append, ih, List.countP_cons, (nodup_discover tree _).count,
      Nat.add_comm]
    simp only [decide_eq_true_eq]

private theorem nodup_file_visits_iff :
    ((visits tree cwd paths).map FileVisit.file).Nodup ↔
      paths.Pairwise fun p q =>
        (discover tree [Path.resolve cwd p]).Disjoint (discover tree [Path.resolve cwd q]) := by
  rw [map_file_visits, List.nodup_flatMap]
  constructor
  · intro h
    exact h.2
  · intro h
    exact ⟨fun path _ => nodup_discover tree _, h⟩

/-- As many files are visited as there are exactly if no file is visited again. -/
theorem length_visits_eq_iff :
    (visits tree cwd paths).length = (discover tree (paths.map (Path.resolve cwd))).length ↔
      ((visits tree cwd paths).map FileVisit.file).Nodup := by
  have hdistinct := nodup_discover tree (paths.map (Path.resolve cwd))
  have hmem (file : Path) : file ∈ discover tree (paths.map (Path.resolve cwd)) ↔
      file ∈ (visits tree cwd paths).map FileVisit.file := by
    rw [mem_discover_iff, map_file_visits, List.mem_flatMap]
    simp
  rw [← List.length_map (f := FileVisit.file)]
  constructor
  · intro hlength
    have hsubperm : (discover tree (paths.map (Path.resolve cwd))).Subperm
        ((visits tree cwd paths).map FileVisit.file) :=
      List.subperm_of_subset hdistinct fun file hfile => (hmem file).mp hfile
    exact (hsubperm.perm_of_length_le hlength.le).nodup_iff.mp hdistinct
  · intro hnodup
    exact ((List.perm_ext_iff_of_nodup hdistinct hnodup).mpr hmem).length_eq.symm

end

namespace FileVisit

/-- The visit finds the module in its file and analyses it. -/
def Analyses (v : FileVisit) (characters : CharacterNames) (tree : Tree) (settings : Settings)
    (m : Module) (a : Analysis) : Prop :=
  ∃ source name, v.Reads tree source ∧ '\x00' ∉ source ∧ parseModule characters source = .ok m ∧
    moduleOfPath v.file v.base = .ok name ∧
    Analysis.ofModule m source v.file.text name settings .standard = .ok a

variable {v : FileVisit} {characters : CharacterNames} {tree : Tree} {settings : Settings}

/-- A visit that analyses a module finds the diagnostics of the module. -/
theorem Analyses.diagnostics {m : Module} {a : Analysis}
    (h : v.Analyses characters tree settings m a) :
    (v.outcome characters tree settings).diagnostics = a.check m := by
  obtain ⟨source, name, hreads, hnull, hparse, hname, ha⟩ := h
  rw [outcome_of_parsed hreads hnull hname, hparse]
  dsimp only
  rw [checkModule_of_ok ha]
  rfl

/-- The module that a visit analyses has numbers of its own for all its expressions. -/
theorem Analyses.numbered {m : Module} {a : Analysis}
    (h : v.Analyses characters tree settings m a) : m.Numbered := by
  obtain ⟨_, _, -, -, hparse, -, -⟩ := h
  exact numbered_of_parseModule hparse

/-- A visit that finds a diagnostic analyses a module. -/
theorem exists_analyses {read : FileRead} (hread : tree.read? v.file = some read) {name : String}
    (hname : moduleOfPath v.file v.base = .ok name)
    (h : (v.outcome characters tree settings).diagnostics ≠ []) :
    ∃ m a, v.Analyses characters tree settings m a := by
  have hends : v.Ends characters tree settings (v.outcome characters tree settings) :=
    (ends_iff hread hname).mpr rfl
  generalize v.outcome characters tree settings = o at hends h
  cases hends with
  | @checked source m name ds hreads hnull hparse hname hcheck =>
    obtain ⟨a, ha, -⟩ := exists_of_checkModule_ok hcheck
    exact ⟨m, a, source, name, hreads, hnull, hparse, hname, ha⟩
  | _ => exact absurd rfl h

end FileVisit

/-- No call is reported twice in a module, and every one that is emits an event. -/
theorem Rule.Analysis.reported_subperm (a : Analysis) (m : Module) :
    (a.reported m).Subperm (m.liveNodes.filter a.emits) := by
  have hcall (c : Expr) (h : a.emits c = true) : c.isCall = true := by
    unfold emits at h
    split at h
    · rfl
    · cases h
  have hemits : (a.reported m).filter a.emits = a.reported m :=
    List.filter_eq_self.mpr fun c => a.emits_of_mem_reported
  have hlive : (m.liveNodes.filter Expr.isCall).filter a.emits = m.liveNodes.filter a.emits := by
    rw [List.filter_filter]
    apply List.filter_congr
    intro c _
    cases h : a.emits c with
    | false => rfl
    | true => rw [hcall c h]; rfl
  have hjudged : (a.judgedCalls m).Perm (m.liveNodes.filter Expr.isCall) := by
    rw [judgedCalls_eq]
    exact callsAll_moduleActs_perm m
  rw [← hemits, ← hlive]
  exact ((a.reported_sublist m).filter _).subperm.trans (hjudged.filter _).subperm

/-- A scan visits a file once for every path under which it is discovered, and counts every visit.
So it counts the distinct files, and visits none of them again, exactly if no two of its paths have
a file in common. The report holds the diagnostics of all visits, and those of one visit are the
diagnostics of calls that emit events, no call twice, in a module whose expressions are told apart
by their numbers. -/
theorem files_visited_once_per_path (characters : CharacterNames) (fs : FileSystem) (cwd : Path)
    (paths : List Path) (settings : Settings) (createdAt : String) :
    (∀ file, ((visits fs.tree cwd paths).map FileVisit.file).count file =
        paths.countP fun path => file ∈ discover fs.tree [Path.resolve cwd path]) ∧
      (scan characters fs.tree cwd paths settings createdAt).filesScanned =
        (visits fs.tree cwd paths).length ∧
      (discover fs.tree (paths.map (Path.resolve cwd))).Nodup ∧
      ((scan characters fs.tree cwd paths settings createdAt).filesScanned =
          (discover fs.tree (paths.map (Path.resolve cwd))).length ↔
        paths.Pairwise fun p q =>
          (discover fs.tree [Path.resolve cwd p]).Disjoint
            (discover fs.tree [Path.resolve cwd q])) ∧
      (((visits fs.tree cwd paths).map FileVisit.file).Nodup ↔
        paths.Pairwise fun p q =>
          (discover fs.tree [Path.resolve cwd p]).Disjoint
            (discover fs.tree [Path.resolve cwd q])) ∧
      (scan characters fs.tree cwd paths settings createdAt).diagnostics.Perm
        ((visits fs.tree cwd paths).flatMap fun v =>
          (v.outcome characters fs.tree settings).diagnostics) ∧
      ∀ v ∈ visits fs.tree cwd paths, (v.outcome characters fs.tree settings).diagnostics = [] ∨
        ∃ m a, v.Analyses characters fs.tree settings m a ∧ m.Numbered ∧
          (v.outcome characters fs.tree settings).diagnostics.Perm
            ((a.reported m).map a.diagnosticOf) ∧
          (a.reported m).Subperm (m.liveNodes.filter a.emits) := by
  have hcollects := scan_collects characters fs.tree settings cwd paths createdAt
  have hnodup := nodup_file_visits_iff fs.tree cwd paths
  refine ⟨count_file_visits fs.tree cwd paths, hcollects.counted, nodup_discover fs.tree _, ?_,
    hnodup, hcollects.diagnostics.perm, ?_⟩
  · rw [hcollects.counted, ← hnodup, ← length_visits_eq_iff]
    exact Int.ofNat_inj
  · intro v hv
    by_cases hnone : (v.outcome characters fs.tree settings).diagnostics = []
    · exact .inl hnone
    · obtain ⟨hfile, name, hname⟩ := FileSystem.exists_of_mem_visits hv
      obtain ⟨read, hread⟩ := hfile.read
      obtain ⟨m, a, h⟩ := FileVisit.exists_analyses hread hname hnone
      refine .inr ⟨m, a, h, h.numbered, ?_, a.reported_subperm m⟩
      rw [h.diagnostics, a.check_eq_reported]
      exact List.mergeSort_perm _ _

namespace RepeatedPath

open TwoFiles

def text : List Char := "from zerolog import log\nlog.info().msg(\"a\")\n".toList

def visit : FileVisit := ⟨⟨"/", ["a.py"]⟩, top⟩

private theorem parse_text :
    ∃ m, parseModule default text = .ok m ∧
      ∃ a, Analysis.ofModule m text "/a.py" "a" {} .standard = .ok a ∧
        (m.liveNodes.filter a.emits).length = 1 ∧ (a.reported m).length = 1 := by
  decide +kernel

/-- A visit reports the one call of the file that emits an event. -/
theorem exists_reported :
    ∃ m a c, visit.Analyses default system.tree {} m a ∧ m.liveNodes.filter a.emits = [c] ∧
      (visit.outcome default system.tree {}).diagnostics = [a.diagnosticOf c] := by
  obtain ⟨m, hparse, a, ha, hone, hreported⟩ := parse_text
  obtain ⟨c, honly⟩ := List.length_eq_one_iff.mp hone
  have hall : a.reported m = [c] := by
    have hsubperm := a.reported_subperm m
    rw [honly] at hsubperm
    exact List.perm_singleton.mp (hsubperm.perm_of_length_le hreported.ge)
  have hreads : visit.Reads system.tree text :=
    ⟨content, text, by decide +kernel, by decide +kernel, by decide +kernel⟩
  have hanalyses : visit.Analyses default system.tree {} m a :=
    ⟨text, "a", hreads, by decide +kernel, hparse, by decide +kernel, ha⟩
  refine ⟨m, a, c, hanalyses, honly, ?_⟩
  rw [hanalyses.diagnostics, a.check_eq_reported, hall, List.map_singleton,
    List.mergeSort_singleton]

/-- Each of two visits reports calls of the one module that emit events, no call twice. -/
theorem visit_reports_apart :
    visit ∈ visits system.tree top [first, first] ∧
      ∃ m a, visit.Analyses default system.tree {} m a ∧ m.Numbered ∧
        (visit.outcome default system.tree {}).diagnostics.Perm ((a.reported m).map a.diagnosticOf) ∧
        (a.reported m).Subperm (m.liveNodes.filter a.emits) := by
  obtain ⟨m, a, c, -, -, hdiagnostics⟩ := exists_reported
  have hvisit : visit ∈ visits system.tree top [first, first] := by decide +kernel
  have hfound : (visit.outcome default system.tree {}).diagnostics ≠ [] := by
    rw [hdiagnostics]
    exact List.cons_ne_nil _ _
  obtain ⟨-, -, -, -, -, -, hvisits⟩ :=
    files_visited_once_per_path default system top [first, first] {} ""
  exact ⟨hvisit, (hvisits visit hvisit).resolve_left hfound⟩

/-- A scan that is given the path of a file twice counts two files where one is discovered, and
reports the one call of the file that emits an event twice. -/
theorem message_reported_twice :
    (discover system.tree ([first, first].map (Path.resolve top))).length = 1 ∧
      (scan default system.tree top [first, first] {} "").filesScanned = 2 ∧
      ∃ m a c, visit.Analyses default system.tree {} m a ∧ m.liveNodes.filter a.emits = [c] ∧
        (scan default system.tree top [first, first] {} "").diagnostics =
          [a.diagnosticOf c, a.diagnosticOf c] := by
  obtain ⟨m, a, c, h, honly, hdiagnostics⟩ := exists_reported
  have hvisits : visits system.tree top [first, first] = [visit, visit] := by decide +kernel
  refine ⟨by decide +kernel, by rw [scan_eq, hvisits]; rfl, m, a, c, h, honly, ?_⟩
  have htwice : ([visit, visit].flatMap fun v => (v.outcome default system.tree {}).diagnostics) =
      [a.diagnosticOf c, a.diagnosticOf c] := by
    simp only [List.flatMap_cons, List.flatMap_nil, hdiagnostics]
    rfl
  rw [scan_eq, hvisits, htwice]
  apply List.mergeSort_of_pairwise
  rw [List.pairwise_pair, Diagnostic.le_iff]

end RepeatedPath

end ContextLint
