import ContextLint.Proofs.Scan.Outcome

/-!
# The order of the paths

Diagnostics of different files never tie when a report is sorted. So if no file is found under two
of the paths of a scan, the paths may be given in any order.
-/

namespace ContextLint

open Files Report Source

/-- The diagnostics found under a path, in the order of the visits. -/
def pathDiagnostics (characters : CharacterNames) (tree : Tree) (cwd : Path) (settings : Settings)
    (path : Path) : List Diagnostic :=
  (rootVisits tree (Path.resolve cwd path)).flatMap fun v =>
    (v.outcome characters tree settings).diagnostics

variable {characters : CharacterNames}

/-- A diagnostic found under a path is about a file that is discovered there. -/
theorem exists_file_of_mem_pathDiagnostics {tree : Tree} {cwd path : Path} {settings : Settings}
    {d : Diagnostic} (h : d ∈ pathDiagnostics characters tree cwd settings path) :
    ∃ file ∈ discover tree [Path.resolve cwd path], d.file = file.text := by
  obtain ⟨v, hv, hd⟩ := List.mem_flatMap.mp h
  obtain ⟨file, hfile, rfl⟩ := List.mem_map.mp hv
  exact ⟨file, hfile, file_of_mem_checkRead hd⟩

/-- Diagnostics found under paths without a common file do not tie. -/
theorem not_tied_of_disjoint {fs : FileSystem} {cwd p q : Path} {settings : Settings}
    (h : (discover fs.tree [Path.resolve cwd p]).Disjoint (discover fs.tree [Path.resolve cwd q]))
    {a b : Diagnostic} (ha : a ∈ pathDiagnostics characters fs.tree cwd settings p)
    (hb : b ∈ pathDiagnostics characters fs.tree cwd settings q) :
    ¬ (a.le b = true ∧ b.le a = true) := by
  intro htie
  obtain ⟨f, hf, haf⟩ := exists_file_of_mem_pathDiagnostics ha
  obtain ⟨g, hg, hbg⟩ := exists_file_of_mem_pathDiagnostics hb
  have htext : f.text = g.text := by rw [← haf, ← hbg, Diagnostic.file_eq_of_tie htie]
  have hsame : f = g := (FileSystem.hasFile_of_mem_discover hf).eq_of_text_eq
    (FileSystem.hasFile_of_mem_discover hg) htext
  rw [hsame] at hf
  exact h hf hg

/-- A scan whose paths have no file in common gives the same diagnostics and the same count for
every order of the paths, and lists the same skipped and failed files up to their order. -/
theorem scan_of_permuted_paths (characters : CharacterNames) (fs : FileSystem) (cwd : Path)
    {paths paths' : List Path}
    (hperm : paths.Perm paths')
    (hdisjoint : paths.Pairwise fun p q =>
      (discover fs.tree [Path.resolve cwd p]).Disjoint (discover fs.tree [Path.resolve cwd q]))
    (settings : Settings) (createdAt createdAt' : String) :
    (scan characters fs.tree cwd paths settings createdAt).diagnostics =
        (scan characters fs.tree cwd paths' settings createdAt').diagnostics ∧
      (scan characters fs.tree cwd paths settings createdAt).filesScanned =
        (scan characters fs.tree cwd paths' settings createdAt').filesScanned ∧
      (scan characters fs.tree cwd paths settings createdAt).skipped.Perm
        (scan characters fs.tree cwd paths' settings createdAt').skipped ∧
      (scan characters fs.tree cwd paths settings createdAt).errors.Perm
        (scan characters fs.tree cwd paths' settings createdAt').errors := by
  have hvisits : (visits fs.tree cwd paths).Perm (visits fs.tree cwd paths') :=
    hperm.flatMap_right _
  have hblocks (paths : List Path) :
      ((visits fs.tree cwd paths).flatMap fun v =>
          (v.outcome characters fs.tree settings).diagnostics) =
        paths.flatMap (pathDiagnostics characters fs.tree cwd settings) := by
    rw [visits, List.flatMap_assoc]
    rfl
  have hle := Diagnostic.le_iff
  rw [scan_eq, scan_eq, hblocks, hblocks]
  refine ⟨?_, congrArg Int.ofNat hvisits.length_eq, hvisits.flatMap_right _,
    hvisits.flatMap_right _⟩
  apply mergeSort_flatMap_perm (trans_of_key hle) (total_of_key hle) hperm
  apply hdisjoint.imp
  intro p q hpq a ha b hb
  exact not_tied_of_disjoint hpq ha hb

namespace TwoFiles

/-- The text `from zerolog import log`, then `log.info().msg("a")`. -/
def content : List UInt8 :=
  "from zerolog import log\nlog.info().msg(\"a\")\n".toList.map fun c => c.toNat.toUInt8

/-- A directory with two files that hold the same message without a context. -/
def system : FileSystem where
  entries := [("a.py", .file (.ok content)), ("b.py", .file (.ok content))]
  wellFormed := .dir (by decide) (by decide) (by simp [Tree.WellFormed.file])

def top : Path := ⟨"/", []⟩

def first : Path := ⟨"", ["a.py"]⟩

def second : Path := ⟨"", ["b.py"]⟩

/-- The two files may be given in either order. -/
theorem exchanged_alike :
    [first, second].Perm [second, first] ∧
      ([first, second].Pairwise fun p q => (discover system.tree [Path.resolve top p]).Disjoint
        (discover system.tree [Path.resolve top q])) ∧
      visits system.tree top [first, second] ≠ visits system.tree top [second, first] ∧
      (scan default system.tree top [first, second] {} "").diagnostics =
        (scan default system.tree top [second, first] {} "").diagnostics := by
  have hperm : [first, second].Perm [second, first] := .swap second first []
  have hfirst : discover system.tree [Path.resolve top first] = [⟨"/", ["a.py"]⟩] := by
    decide +kernel
  have hsecond : discover system.tree [Path.resolve top second] = [⟨"/", ["b.py"]⟩] := by
    decide +kernel
  have hdisjoint : [first, second].Pairwise fun p q =>
      (discover system.tree [Path.resolve top p]).Disjoint
        (discover system.tree [Path.resolve top q]) := by
    rw [List.pairwise_pair, hfirst, hsecond]
    simp
  exact ⟨hperm, hdisjoint, by decide +kernel,
    (scan_of_permuted_paths default system top hperm hdisjoint {} "" "").1⟩

end TwoFiles

end ContextLint
