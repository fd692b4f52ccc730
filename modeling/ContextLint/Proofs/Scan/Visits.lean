import ContextLint.Proofs.Report.Order
import ContextLint.Scan

/-!
# The visits of a scan

A scan visits the files of its roots one after the other. Each visit ends in an outcome of its own,
and the report collects the outcomes: it counts the visits, lists what they found, and sorts the
diagnostics.
-/

namespace ContextLint

open Files Report Source

/-- A visit of a scan to a file. -/
structure FileVisit where
  file : Path
  /-- The directory from which its module is named. -/
  base : Path
  deriving DecidableEq, Repr

/-- The directory from which the modules of a root are named. -/
def baseOf (tree : Tree) (root : Path) : Path := if tree.isFile root then root.parent else root

/-- The visits to the files of a root. -/
def rootVisits (tree : Tree) (root : Path) : List FileVisit :=
  (discover tree [root]).map fun file => ⟨file, baseOf tree root⟩

/-- The visits of a scan, in order. -/
def visits (tree : Tree) (cwd : Path) (paths : List Path) : List FileVisit :=
  paths.flatMap fun path => rootVisits tree (Path.resolve cwd path)

/-- The outcome of a visit. -/
def FileVisit.outcome (v : FileVisit) (characters : CharacterNames) (tree : Tree)
    (settings : Settings) : FileOutcome :=
  checkRead characters ((tree.read? v.file).getD (.ok [])) v.file.text
    ((moduleOfPath v.file v.base).toOption.getD v.file.stem) settings

namespace FileOutcome

/-- The diagnostics of a file that was checked. -/
def diagnostics : FileOutcome → List Diagnostic
  | checked ds => ds
  | skipped _ | failed _ => []

/-- The entry for a file that was skipped. -/
def skips (file : String) : FileOutcome → List FileIssue
  | skipped reason => [⟨file, reason⟩]
  | checked _ | failed _ => []

/-- The entry for a file on which the analysis failed. -/
def failures (file : String) : FileOutcome → List FileIssue
  | failed reason => [⟨file, reason⟩]
  | checked _ | skipped _ => []

/-- The file was checked. -/
def isChecked : FileOutcome → Bool
  | checked _ => true
  | skipped _ | failed _ => false

end FileOutcome

variable (characters : CharacterNames) (tree : Tree) (settings : Settings)

/-- A visit counts one file and adds its outcome. -/
theorem scanFile_eq (r : Report) (v : FileVisit) :
    scanFile characters tree settings v.base r v.file =
      { r with
        filesScanned := r.filesScanned + 1
        diagnostics := r.diagnostics ++ (v.outcome characters tree settings).diagnostics
        skipped := r.skipped ++ (v.outcome characters tree settings).skips v.file.text
        errors := r.errors ++ (v.outcome characters tree settings).failures v.file.text } := by
  change addOutcome { r with filesScanned := r.filesScanned + 1 } v.file.text
    (v.outcome characters tree settings) = _
  cases v.outcome characters tree settings with
  | checked ds | skipped reason | failed reason =>
    simp [addOutcome, FileOutcome.diagnostics, FileOutcome.skips, FileOutcome.failures]

/-- Visits in a row count their files and add their outcomes in order. -/
theorem foldl_scanFile_eq (r : Report) (vs : List FileVisit) :
    vs.foldl (fun r v => scanFile characters tree settings v.base r v.file) r =
      { r with
        filesScanned := r.filesScanned + vs.length
        diagnostics := r.diagnostics ++ vs.flatMap fun v =>
          (v.outcome characters tree settings).diagnostics
        skipped := r.skipped ++ vs.flatMap fun v =>
          (v.outcome characters tree settings).skips v.file.text
        errors := r.errors ++ vs.flatMap fun v =>
          (v.outcome characters tree settings).failures v.file.text } := by
  induction vs generalizing r with
  | nil => simp
  | cons v vs ih =>
    have hcount : r.filesScanned + 1 + (vs.length : ℤ) =
        r.filesScanned + ((v :: vs).length : ℤ) := by
      rw [List.length_cons]
      omega
    rw [List.foldl_cons, ih, scanFile_eq]
    simp only [List.flatMap_cons, List.append_assoc, hcount]

/-- A scan makes its visits and sorts the diagnostics. -/
theorem scan_eq (cwd : Path) (paths : List Path) (createdAt : String) :
    scan characters tree cwd paths settings createdAt =
      { createdAt
        filesScanned := (visits tree cwd paths).length
        diagnostics := ((visits tree cwd paths).flatMap fun v =>
          (v.outcome characters tree settings).diagnostics).mergeSort Diagnostic.le
        skipped := (visits tree cwd paths).flatMap fun v =>
          (v.outcome characters tree settings).skips v.file.text
        errors := (visits tree cwd paths).flatMap fun v =>
          (v.outcome characters tree settings).failures v.file.text } := by
  have hroots :
      (paths.map (Path.resolve cwd)).foldl (scanRoot characters tree settings) { createdAt } =
        (visits tree cwd paths).foldl
          (fun r v => scanFile characters tree settings v.base r v.file) { createdAt } := by
    simp only [visits, rootVisits, List.foldl_flatMap, List.foldl_map]
    rfl
  rw [scan, hroots, foldl_scanFile_eq]
  simp

/-- The report is made of the outcomes of visits, one for each visit. -/
structure Report.Collects (r : Report) (visited : List FileVisit)
    (outcome : FileVisit → FileOutcome) : Prop where
  /-- Every visit counts. -/
  counted : r.filesScanned = visited.length
  /-- The diagnostics are those of the checked files, sorted by file, line and column. -/
  diagnostics : IsStableSort Diagnostic.key
    (visited.flatMap fun v => (outcome v).diagnostics) r.diagnostics
  /-- Every skipped file is listed. -/
  skipped : r.skipped = visited.flatMap fun v => (outcome v).skips v.file.text
  /-- Every file on which the analysis failed is listed. -/
  errors : r.errors = visited.flatMap fun v => (outcome v).failures v.file.text

/-- A scan collects the outcomes of its visits. -/
theorem scan_collects (cwd : Path) (paths : List Path) (createdAt : String) :
    (scan characters tree cwd paths settings createdAt).Collects (visits tree cwd paths)
      fun v => v.outcome characters tree settings := by
  rw [scan_eq]
  exact ⟨rfl, isStableSort_mergeSort Diagnostic.le_iff _, rfl, rfl⟩

end ContextLint
