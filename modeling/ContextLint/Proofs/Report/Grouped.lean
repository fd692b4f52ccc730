import Mathlib.Algebra.Ring.Nat
import Mathlib.Data.List.Forall2
import Mathlib.Data.List.Induction
import Mathlib.Data.List.Nodup
import ContextLint.Report.Markdown

/-!
# Diagnostics by file

Grouping by file divides the diagnostics: there is one group for each file, in the order in which
the files first occur, and it keeps the order of its diagnostics. In Markdown every group is a table
whose rows and number of left over diagnostics make up the group.
-/

namespace ContextLint.Report

/-- The files of diagnostics, in the order in which they first occur. -/
def seenFiles (ds : List Diagnostic) : List String := (ds.map (·.file)).eraseDups

/-- The group of a file. -/
def groupOf (ds : List Diagnostic) (file : String) : String × List Diagnostic :=
  (file, ds.filter (·.file = file))

section Groups

variable {ds : List Diagnostic} {d : Diagnostic}

private theorem mem_seenFiles {file : String} : file ∈ seenFiles ds ↔ ∃ d ∈ ds, d.file = file := by
  rw [seenFiles, List.mem_eraseDups, List.mem_map]

private theorem seenFiles_concat :
    seenFiles (ds ++ [d]) = seenFiles ds ++ if d.file ∈ seenFiles ds then [] else [d.file] := by
  simp only [seenFiles, List.map_append, List.eraseDups_append, List.mem_eraseDups]
  generalize ds.map (·.file) = files
  split_ifs with h <;> simp [List.removeAll, List.eraseDups_cons, h]

private theorem nodup_seenFiles (ds : List Diagnostic) : (seenFiles ds).Nodup := by
  induction ds using List.reverseRecOn with
  | nil => exact List.nodup_nil
  | append_singleton ds d ih =>
    rw [seenFiles_concat]
    split_ifs with h
    · rwa [List.append_nil]
    · exact List.nodup_append_comm.mpr (List.nodup_cons.mpr ⟨h, ih⟩)

/-- A further diagnostic goes to the group of its file, which is opened if it is missing. -/
theorem addToGroup_groups {files : List String} (hnodup : files.Nodup)
    (hnew : d.file ∉ files → ∀ e ∈ ds, e.file ≠ d.file) :
    addToGroup d (files.map (groupOf ds)) =
      (files ++ if d.file ∈ files then [] else [d.file]).map (groupOf (ds ++ [d])) := by
  have hkeep {file : String} (h : file ≠ d.file) : groupOf (ds ++ [d]) file = groupOf ds file := by
    simp [groupOf, h.symm]
  induction files with
  | nil =>
    have hnone : ds.filter (·.file = d.file) = [] := by simpa using hnew List.not_mem_nil
    simp [addToGroup, groupOf, hnone]
  | cons file rest ih =>
    obtain ⟨hfile, hrest⟩ := List.nodup_cons.mp hnodup
    by_cases h : file = d.file
    · have htail : rest.map (groupOf (ds ++ [d])) = rest.map (groupOf ds) :=
        List.map_congr_left fun f hf => hkeep fun heq => hfile (h.trans heq.symm ▸ hf)
      simp [addToGroup, groupOf, h, htail]
    · have hmem : d.file ∈ file :: rest ↔ d.file ∈ rest := by simp [Ne.symm h]
      have htail := ih hrest fun hnot => hnew (hmem.not.mpr hnot)
      rw [List.map_cons, groupOf, addToGroup, if_neg h, htail]
      simp only [hmem, List.cons_append, List.map_cons, hkeep h]
      rfl

/-- There is one group for each file, with the diagnostics of the file in their order. -/
theorem byFile_eq (r : Report) :
    r.byFile = (seenFiles r.diagnostics).map (groupOf r.diagnostics) := by
  rw [byFile]
  induction r.diagnostics using List.reverseRecOn with
  | nil => rfl
  | append_singleton ds d ih =>
    rw [List.foldl_concat, ih, addToGroup_groups (nodup_seenFiles ds), seenFiles_concat]
    intro hnew e he heq
    exact hnew (mem_seenFiles.mpr ⟨e, he, heq⟩)

end Groups

private theorem sum_addToGroup (d : Diagnostic) (groups : List (String × List Diagnostic)) :
    ((addToGroup d groups).map (·.2.length)).sum = (groups.map (·.2.length)).sum + 1 := by
  induction groups with
  | nil => rfl
  | cons g rest ih =>
    unfold addToGroup
    split_ifs <;> simp [ih] <;> omega

private theorem sum_byFile (r : Report) : (r.byFile.map (·.2.length)).sum = r.count := by
  rw [byFile, count]
  induction r.diagnostics using List.reverseRecOn with
  | nil => rfl
  | append_singleton ds d ih =>
    rw [List.foldl_concat, sum_addToGroup, ih, List.length_append, List.length_singleton]

/-- A table of diagnostics. -/
structure Table where
  /-- The file in its heading. -/
  file : String
  rows : List String
  /-- The number in the line on what is left over, if there is one. -/
  leftOver : Option Nat

namespace Table

/-- The lines of a table. -/
def lines (t : Table) : List String :=
  ["## " ++ code t.file ++ "\n", "| Line | Col | Call | Code |", "|---|---|---|---|"] ++ t.rows ++
    (t.leftOver.map fun n => "\n... and " ++ toString n ++ " more").toList ++ [""]

/-- The number of diagnostics that a table speaks of. -/
def size (t : Table) : Nat := t.rows.length + t.leftOver.getD 0

/-- The table has a row for each of the first fifty diagnostics of a group in their order, and if
the group is larger, the number of the others. -/
structure Shows (t : Table) (g : String × List Diagnostic) : Prop where
  file : t.file = g.1
  rows : t.rows = (g.2.take 50).map row
  leftOver : ∀ n, t.leftOver = some n ↔ 50 < g.2.length ∧ n = g.2.length - 50

private theorem Shows.size_eq {t : Table} {g : String × List Diagnostic} (h : t.Shows g) :
    t.size = g.2.length := by
  rw [size, h.rows, List.length_map, List.length_take]
  cases hleft : t.leftOver with
  | none =>
    have hsmall : ¬ 50 < g.2.length := fun hlarge =>
      Option.some_ne_none _ (((h.leftOver _).mpr ⟨hlarge, rfl⟩).symm.trans hleft)
    rw [Option.getD_none]
    omega
  | some n =>
    obtain ⟨hlarge, rfl⟩ := (h.leftOver n).mp hleft
    rw [Option.getD_some]
    omega

/-- The table of a group. -/
def ofGroup (g : String × List Diagnostic) : Table :=
  ⟨g.1, (g.2.take maxRows).map row,
    if maxRows < g.2.length then some (g.2.length - maxRows) else none⟩

private theorem shows_ofGroup (g : String × List Diagnostic) : (ofGroup g).Shows g := by
  refine ⟨rfl, rfl, fun n => ?_⟩
  rw [ofGroup, maxRows]
  split_ifs with h <;> simp [h, eq_comm]

private theorem lines_ofGroup (g : String × List Diagnostic) :
    (ofGroup g).lines = fileSection g.1 g.2 := by
  rw [fileSection, lines, ofGroup]
  split_ifs <;> rfl

end Table

/-- Grouping divides the diagnostics by file, and the tables of the groups account for all of
them. -/
theorem markdown_tables_account (r : Report) :
    (seenFiles r.diagnostics).Nodup ∧
    r.byFile = (seenFiles r.diagnostics).map (groupOf r.diagnostics) ∧
    (r.byFile.map (·.2.length)).sum = r.count ∧
    ∃ tables : List Table,
      r.markdown = "\n".intercalate
        (["# Log Context Report\n", "\n".intercalate r.summary ++ "\n"] ++
          tables.flatMap Table.lines ++ r.notAnalyzed) ∧
      tables.Forall₂ Table.Shows r.byFile ∧ (tables.map Table.size).sum = r.count := by
  refine ⟨nodup_seenFiles _, byFile_eq r, sum_byFile r, r.byFile.map Table.ofGroup, ?_, ?_, ?_⟩
  · simp only [markdown, List.flatMap_map, Table.lines_ofGroup]
  · rw [List.forall₂_map_left_iff, List.forall₂_same]
    exact fun g _ => Table.shows_ofGroup g
  · rw [List.map_map, ← sum_byFile r]
    simp only [Function.comp_def, (Table.shows_ofGroup _).size_eq]

end ContextLint.Report
