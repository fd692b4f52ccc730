import Mathlib.Data.List.Lex
import ContextLint.Proofs.Files.Discover
import ContextLint.Proofs.Report.Order

/-!
# Listings of source files

Paths are listed one after the other, and a file that an earlier path stands for is not listed
again. A directory adds its sources in the order of their names, compared level by level from the
directory on. A source is listed under one path although another path leads to it only through an
ignored directory.
-/

namespace ContextLint.Files

/-- What is added behind a list is what would be added to none, without the files of the list. -/
theorem addNew_eq_append (found xs : List Path) :
    addNew found xs = found ++ (addNew [] xs).filter (· ∉ found) := by
  have hnew (new : List Path) : addNew (found ++ new.filter (· ∉ found)) xs =
      found ++ (addNew new xs).filter (· ∉ found) := by
    induction xs generalizing new with
    | nil => rfl
    | cons p xs ih =>
      rw [addNew, addNew]
      by_cases hp : p ∈ new
      · have hmem : p ∈ found ++ new.filter (· ∉ found) := by
          by_cases hfound : p ∈ found <;> simp [hfound, hp]
        simpa [hp, hmem] using ih new
      · have hadd := ih (new ++ [p])
        by_cases hfound : p ∈ found <;> simpa [hp, hfound] using hadd
  simpa using hnew []

private theorem addNew_sublist (found xs : List Path) :
    (addNew found xs).Sublist (found ++ xs) := by
  induction xs generalizing found with
  | nil => simp [addNew]
  | cons p xs ih =>
    rw [addNew]
    split
    · exact (ih found).trans (.append_left (List.sublist_cons_self p xs) found)
    · simpa using ih (found ++ [p])

/-- Further paths add the files that they stand for and that are not listed yet. -/
theorem discover_append (t : Tree) (paths others : List Path) :
    discover t (paths ++ others) =
      discover t paths ++ (discover t others).filter (· ∉ discover t paths) := by
  simp only [discover_eq, List.flatMap_append, addNew_append]
  exact addNew_eq_append _ _

/-- Results that start with different names increase when they are put in the order of the names. -/
theorem sorted_byName {results : List (String × List (List String))}
    (distinct : (results.map Prod.fst).Nodup)
    (hstart : ∀ r ∈ results, ∀ parts ∈ r.2, ∃ rest, parts = r.1 :: rest)
    (hsorted : ∀ r ∈ results, r.2.Pairwise (· < ·)) : (byName results).Pairwise (· < ·) := by
  have hle (a b : String × List (List String)) : decide (a.1 ≤ b.1) = true ↔ a.1 ≤ b.1 :=
    decide_eq_true_iff
  obtain ⟨hperm, hordered, -⟩ := Report.isStableSort_mergeSort hle results
  have hnodup := List.pairwise_map.mp ((hperm.map Prod.fst).nodup_iff.mpr distinct)
  rw [byName, List.pairwise_flatMap]
  refine ⟨fun r hr => hsorted r (hperm.subset hr), ?_⟩
  apply (List.Pairwise.and_mem.mp (hordered.and hnodup)).imp
  rintro a b ⟨ha, hb, hab, hne⟩ x hx y hy
  obtain ⟨xs, rfl⟩ := hstart a (hperm.subset ha) x hx
  obtain ⟨ys, rfl⟩ := hstart b (hperm.subset hb) y hy
  exact List.cons_lt_cons_iff.mpr (.inl (lt_of_le_of_ne hab hne))

/-- The sources below a directory increase level by level. -/
theorem sorted_filesBelow {t : Tree} (h : t.WellFormed) : (filesBelow t).Pairwise (· < ·) := by
  induction h with
  | file read => exact List.Pairwise.nil
  | @dir entries distinct named inner ih =>
    rw [filesBelow, entryFiles_eq]
    apply sorted_byName
    · rwa [List.map_map]
    · rw [List.forall_mem_map]
      intro e he parts hparts
      exact exists_of_mem_filesIn hparts
    · rw [List.forall_mem_map]
      rintro ⟨name, t⟩ he
      have hbelow := ih _ he
      cases t with
      | file read =>
        simp only [filesIn]
        split <;> simp
      | dir inner =>
        simp only [filesIn]
        split
        · exact List.Pairwise.nil
        · apply hbelow.map
          intro xs ys hlt
          exact List.cons_lt_cons_iff.mpr (.inr ⟨rfl, hlt⟩)

namespace FileSystem

variable {fs : FileSystem} {root p : Path}

/-- The path leads down from a directory, through directories that are not ignored, to a Python file
that is not too large. -/
def SourceBelow (fs : FileSystem) (root p : Path) : Prop :=
  ∃ dirs name read, p = { root with parts := root.parts ++ (dirs ++ [name]) } ∧
    ".." ∉ dirs ∧ (∀ dir ∈ dirs, isIgnored dir = false) ∧ isPythonName name = true ∧
    fs.tree.read? p = some read ∧ read.size ≤ maxFileSize

private theorem wellFormed_of_find? {t : Tree} (h : fs.tree.find? p = some t) : t.WellFormed :=
  (fs.wellFormed.below? (Tree.Passed.start.follow h)).2

private theorem sourceBelow_iff {entries : List (String × Tree)}
    (hroot : fs.tree.find? root = some (.dir entries)) :
    fs.SourceBelow root p ↔ ∃ parts ∈ filesBelow (.dir entries),
      p = { root with parts := root.parts ++ parts } := by
  have hwell := wellFormed_of_find? hroot
  have hfind {names : List String} (hnames : ".." ∉ names) :
      fs.tree.find? { root with parts := root.parts ++ names } =
        (Tree.dir entries).below? names := by
    rw [Tree.find?] at hroot ⊢
    rw [Tree.follow_append hnames, hroot, Option.bind_some]
  constructor
  · rintro ⟨dirs, name, read, rfl, hdirs, hopen, hpython, hread, hsize⟩
    have hname : ".." ≠ name := by
      rintro rfl
      exact absurd hpython (by decide)
    rw [Tree.read?_eq_some, hfind (by simp [hdirs, hname])] at hread
    exact ⟨_, (concat_mem_filesBelow hwell).mpr ⟨hopen, hpython, read, hread, hsize⟩, rfl⟩
  · rintro ⟨parts, hparts, rfl⟩
    obtain ⟨dirs, name, rfl⟩ := exists_concat_of_mem_filesBelow hparts
    obtain ⟨hopen, hpython, read, hread, hsize⟩ := (concat_mem_filesBelow hwell).mp hparts
    have hnames := (hwell.below? hread).1
    have hup : ".." ∉ dirs ++ [name] := fun hmem => (hnames _ hmem).ne_parent rfl
    refine ⟨dirs, name, read, rfl, fun hmem => hup (List.mem_append_left _ hmem), hopen, hpython,
      ?_, hsize⟩
    rw [Tree.read?_eq_some, hfind hup, hread]

/-- A path to a file stands for itself, and a path to a directory for the sources below. -/
theorem mem_filesOf : p ∈ filesOf fs.tree root ↔
    p = root ∧ fs.tree.isFile root = true ∨ fs.tree.isDir root = true ∧ fs.SourceBelow root p := by
  unfold filesOf
  split
  · next read hfile => simp [Tree.isFile, Tree.isDir, Tree.read?, hfile]
  · next entries hdir =>
    rw [sourceBelow_iff hdir, List.mem_map]
    simp [Tree.isFile, Tree.isDir, Tree.read?, hdir, eq_comm]
  · next hnone => simp [Tree.isFile, Tree.isDir, Tree.read?, hnone]

/-- The files that a path stands for increase level by level. -/
theorem sorted_discover (fs : FileSystem) (root : Path) :
    (discover fs.tree [root]).Pairwise (·.parts < ·.parts) := by
  apply List.Pairwise.sublist (addNew_sublist [] (filesOf fs.tree root))
  rw [List.nil_append]
  unfold filesOf
  split
  · exact List.pairwise_singleton _ _
  · next entries hdir =>
    apply (sorted_filesBelow (wellFormed_of_find? hdir)).map
    intro xs ys hlt
    exact List.append_left_lt hlt
  · exact List.Pairwise.nil

end FileSystem

/-- The files listed for paths are the files among the paths and the sources below the directories
among them, each once; what a directory adds stands together in the order of the names, level by
level; and further paths only add files behind. -/
theorem sources_listed_in_order (fs : FileSystem) :
    (∀ paths, (discover fs.tree paths).Nodup) ∧
    (∀ paths p, p ∈ discover fs.tree paths ↔ p ∈ paths ∧ fs.tree.isFile p = true ∨
      ∃ root ∈ paths, fs.tree.isDir root = true ∧ fs.SourceBelow root p) ∧
    (∀ before root after, fs.tree.isDir root = true →
      ∃ added rest, discover fs.tree (before ++ root :: after) =
          discover fs.tree before ++ added ++ rest ∧
        (∀ p, p ∈ added ↔ fs.SourceBelow root p ∧ p ∉ discover fs.tree before) ∧
        added.Pairwise (·.parts < ·.parts)) ∧
    ∀ paths others, discover fs.tree (paths ++ others) =
      discover fs.tree paths ++ (discover fs.tree others).filter (· ∉ discover fs.tree paths) := by
  refine ⟨nodup_discover fs.tree, ?_, ?_, discover_append fs.tree⟩
  · intro paths p
    simp only [mem_discover, FileSystem.mem_filesOf]
    constructor
    · rintro ⟨root, hroot, ⟨rfl, hfile⟩ | hbelow⟩
      · exact .inl ⟨hroot, hfile⟩
      · exact .inr ⟨root, hroot, hbelow⟩
    · rintro (⟨hp, hfile⟩ | ⟨root, hroot, hbelow⟩)
      · exact ⟨p, hp, .inl ⟨rfl, hfile⟩⟩
      · exact ⟨root, hroot, .inr hbelow⟩
  · intro before root after hdir
    have hsplit := discover_append fs.tree (before ++ [root]) after
    rw [← List.append_cons, discover_append fs.tree before [root]] at hsplit
    refine ⟨_, _, hsplit, ?_, (fs.sorted_discover root).filter _⟩
    intro p
    simp [mem_discover, FileSystem.mem_filesOf, hdir, fs.tree.isFile_of_isDir hdir]

end ContextLint.Files
