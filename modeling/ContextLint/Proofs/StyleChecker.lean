import ContextLint.Proofs.ModuleName
import ContextLint.Proofs.Scan.Repeated
import ContextLint.Proofs.Text.Lines
import ContextLint.StyleChecker

/-!
# The style checker and the scan

A file that is checked inside a style checker gets the findings of the diagnostics that a scan of
the file reports. The one names the file and its module by the path as it is given, the other by the
resolved path. Both paths end in the same name, which alone names the module, and the name of the
file has no part in the findings.
-/

namespace ContextLint

open Files Report Source

variable {characters : CharacterNames} {fs : FileSystem} {cwd path : Path} {read : FileRead}
  {tree : Tree}

/-- A scan of a file visits that file and no other, and names its module from the directory it
stands in. -/
theorem visits_of_file (h : tree.read? (Path.resolve cwd path) = some read) :
    visits tree cwd [path] = [⟨Path.resolve cwd path, (Path.resolve cwd path).parent⟩] := by
  have hfind := Tree.read?_eq_some.mp h
  have hfile : tree.isFile (Path.resolve cwd path) = true := by
    rw [Tree.isFile, h]
    rfl
  have hdiscover : discover tree [Path.resolve cwd path] = [Path.resolve cwd path] := by
    rw [discover, List.foldl_cons, filesOf, hfind]
    rfl
  simp only [visits, List.flatMap_singleton, rootVisits, hdiscover, List.map_singleton, baseOf, hfile,
    if_true]

/-- The module of a file has the same name by the path as it is given and by the resolved path. -/
theorem FileSystem.moduleOfPath_resolve (hcwd : fs.tree.isDir cwd = true)
    (h : fs.tree.read? (Path.located cwd path) = some read) :
    moduleOfPath (Path.resolve cwd path) (Path.resolve cwd path).parent =
      moduleOfPath path path.parent := by
  obtain ⟨hne, hlast⟩ := FileSystem.last_of_read? hcwd h
  have hname := Path.name_resolve hne hlast cwd
  have hresolved : (Path.resolve cwd path).parts ≠ [] := by
    intro hnil
    have hread := Tree.read?_resolve h
    rw [Tree.read?, Tree.find?, hnil] at hread
    cases hread
  rw [moduleOfPath_parent hresolved, moduleOfPath_parent hne, hname]

variable {ds : List Diagnostic}

/-- Diagnostics of one file that stand in the order of their places stay where they are. -/
theorem mergeSort_of_one_file {file : String} (hfile : ∀ d ∈ ds, d.file = file)
    (hplaces : ds.Pairwise fun d d' => d.placeLe d' = true) : ds.mergeSort Diagnostic.le = ds := by
  apply List.mergeSort_of_pairwise
  refine hplaces.imp_of_mem ?_
  intro d d' hd hd' hle
  rw [Diagnostic.le, hfile d hd, hfile d' hd', hle]
  simp

variable {v : FileVisit}

/-- The report on a single visit is that of its outcome. -/
theorem scan_of_visit (characters : CharacterNames) {paths : List Path}
    (h : visits tree cwd paths = [v]) (settings : Settings) (createdAt : String) :
    scan characters tree cwd paths settings createdAt =
      { createdAt
        filesScanned := 1
        diagnostics := (v.outcome characters tree settings).diagnostics.mergeSort Diagnostic.le
        skipped := (v.outcome characters tree settings).skips v.file.text
        errors := (v.outcome characters tree settings).failures v.file.text } := by
  rw [scan_eq, h]
  simp only [List.flatMap_singleton, List.length_singleton]
  rfl

variable {settings : Settings} {source : List Char} {m : Module} {name : String}

/-- A module that is read and parsed, and on which the analysis does not fail, is checked. -/
theorem FileVisit.checked_of_no_failure (hreads : v.Reads tree source)
    (hparse : parseModule characters source = .ok m) (hname : moduleOfPath v.file v.base = .ok name)
    (hfailures : (v.outcome characters tree settings).failures v.file.text = []) :
    ∃ ds, Rule.checkModule m source v.file.text name settings .standard = .ok ds ∧
      v.outcome characters tree settings = .checked ds := by
  by_cases hnull : '\x00' ∈ source
  · rw [outcome_of_null hreads hnull] at hfailures
    cases hfailures
  · have houtcome : v.outcome characters tree settings = _ := outcome_of_parsed hreads hnull hname
    rw [hparse] at houtcome
    dsimp only at houtcome
    cases hcheck : Rule.checkModule m source v.file.text name settings .standard with
    | error e =>
      rw [hcheck] at houtcome
      rw [houtcome] at hfailures
      cases hfailures
    | ok ds =>
      rw [hcheck] at houtcome
      exact ⟨ds, rfl, houtcome⟩

namespace StyleChecker

/-- A module is checked under the name that its path gives it, and each diagnostic is a finding. -/
theorem checkUnder_of_ok {filename : String}
    (hname : moduleOfPath (Path.ofString filename) (Path.ofString filename).parent = .ok name)
    (hcheck : Rule.checkModule m source filename name settings .standard = .ok ds) :
    checkUnder settings m filename source = .ok (ds.map (finding settings)) := by
  rw [checkUnder, hname]
  change ((Rule.checkModule m source filename name settings .standard).mapError CheckError.hint >>=
    fun found => pure (found.map (finding settings))) = _
  rw [hcheck]
  rfl

/-- A file of unified lines that is read, parsed and analysed by a scan without an error has the
same findings in a style checker that is handed its module, its path and its lines, under the same
settings and in the same order. -/
theorem findings_eq_scan (hpath : path.Proper) (hcwd : fs.tree.isDir cwd = true) {bytes : List UInt8}
    (hfile : fs.tree.read? (Path.located cwd path) = some (.ok bytes)) {content : List Char}
    (hdecode : Text.decode bytes = .ok content) (hreturn : '\r' ∉ content) {m : Module}
    (hparse : parseModule characters content = .ok m) {settings : Settings} {createdAt : String}
    (hscan : (scan characters fs.tree cwd [path] settings createdAt).errors = []) :
    checkUnder settings m path.text (Text.wholeLines content).flatten =
        .ok ((scan characters fs.tree cwd [path] settings createdAt).diagnostics.map
          (finding settings)) ∧
      (settingsFor fs.tree cwd path.text = .ok settings →
        check fs.tree cwd m path.text (Text.wholeLines content).flatten =
          .ok ((scan characters fs.tree cwd [path] settings createdAt).diagnostics.map
            (finding settings))) ∧
      (scan characters fs.tree cwd [path] settings createdAt).filesScanned = 1 ∧
      (scan characters fs.tree cwd [path] settings createdAt).skipped = [] := by
  have hread := Tree.read?_resolve hfile
  obtain ⟨hne, -⟩ := FileSystem.last_of_read? hcwd hfile
  have hparent : path ≠ path.parent := by
    intro heq
    have hlength := congrArg (fun p : Path => p.parts.length) heq
    have hpositive := List.length_pos_iff.mpr hne
    simp only [Path.parent, List.length_dropLast] at hlength
    omega
  obtain ⟨name, hname, -⟩ := exists_name hpath hne hparent
  have hmodule := (FileSystem.moduleOfPath_resolve hcwd hfile).trans hname
  have hreads : FileVisit.Reads ⟨Path.resolve cwd path, (Path.resolve cwd path).parent⟩ fs.tree
      content :=
    ⟨bytes, content, hread, hdecode, Text.unifyNewlines_of_no_return hreturn⟩
  have hreport := scan_of_visit characters (visits_of_file hread) settings createdAt
  rw [hreport] at hscan
  obtain ⟨ds, hcheck, houtcome⟩ := FileVisit.checked_of_no_failure hreads hparse hmodule hscan
  have hsorted : ds.mergeSort Diagnostic.le = ds := by
    obtain ⟨a, -, -, rfl⟩ := Rule.exists_of_checkModule_ok hcheck
    exact mergeSort_of_one_file (fun d hd => Rule.file_of_mem_checkModule hcheck hd)
      (a.pairwise_check m)
  have hfindings : checkUnder settings m path.text content = .ok (ds.map (finding settings)) := by
    have hpathname : moduleOfPath (Path.ofString path.text) (Path.ofString path.text).parent =
        .ok name := by rwa [Path.ofString_text hpath]
    rw [checkUnder_of_ok hpathname (Rule.checkModule_renamed hcheck path.text), List.map_map]
    rfl
  rw [hreport, houtcome, Text.flatten_wholeLines]
  dsimp only [FileOutcome.diagnostics, FileOutcome.skips]
  rw [hsorted]
  refine ⟨hfindings, ?_, rfl, rfl⟩
  intro hsettings
  rw [check, hsettings]
  exact hfindings

namespace RoundaboutPath

open TwoFiles RepeatedPath

/-- A path that leaves the topmost directory, which leads back to it, and names a file there. -/
def roundabout : Path := Path.ofString "../a.py"

/-- The message without a context is found in both ways. -/
theorem message_found_alike :
    ∃ m, parseModule default RepeatedPath.text = .ok m ∧
      (scan default system.tree top [roundabout] {} "").diagnostics ≠ [] ∧
      checkUnder {} m roundabout.text (Text.wholeLines RepeatedPath.text).flatten =
        .ok ((scan default system.tree top [roundabout] {} "").diagnostics.map (finding {})) := by
  obtain ⟨m, hparse⟩ : ∃ m, parseModule default RepeatedPath.text = .ok m := by decide +kernel
  have htext : Text.decode content = .ok RepeatedPath.text := by decide +kernel
  have herrors : (scan default system.tree top [roundabout] {} "").errors = [] := by
    decide +kernel
  have hfile : system.tree.read? (Path.located top roundabout) = some (.ok content) := by
    decide +kernel
  have hagree := findings_eq_scan (Path.proper_ofString _) (by decide +kernel) hfile htext
    (by decide +kernel) hparse herrors
  refine ⟨m, hparse, ?_, hagree.1⟩
  obtain ⟨_, _, _, -, -, hdiagnostics⟩ := exists_reported
  have hvisits : visits system.tree top [roundabout] = [visit] := by decide +kernel
  rw [scan_of_visit default hvisits {} "", hdiagnostics]
  simp

end RoundaboutPath

end StyleChecker

end ContextLint
