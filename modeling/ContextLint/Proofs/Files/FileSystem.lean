import ContextLint.Files.Tree
import ContextLint.Proofs.Files.PathText

/-!
# File systems

A file system is a directory whose entries have proper names, no two the same, and so on in every
directory below. A path without double dots is followed in it name by name. A path with double dots
that leads to a file leads to the same file once it is resolved, and keeps its last name.
-/

namespace ContextLint.Files

/-- A name that an entry of a directory can have. -/
structure IsEntryName (name : String) : Prop extends IsPart name where
  /-- It does not stand for the directory above. -/
  ne_parent : name ≠ ".."

private theorem isEntryName_iff {name : String} :
    IsEntryName name ↔ name ≠ "" ∧ name ≠ "." ∧ '/' ∉ name.toList ∧ name ≠ ".." := by
  constructor
  · rintro ⟨⟨hempty, hdot, hslash⟩, hparent⟩
    exact ⟨hempty, hdot, hslash, hparent⟩
  · rintro ⟨hempty, hdot, hslash, hparent⟩
    exact ⟨⟨hempty, hdot, hslash⟩, hparent⟩

instance (name : String) : Decidable (IsEntryName name) := decidable_of_iff _ isEntryName_iff.symm

variable {names : List String} {p : Path} {entries : List (String × Tree)} {name : String}
  {t : Tree}

namespace Tree

/-- Every directory has entries with proper names, no two the same. -/
inductive WellFormed : Tree → Prop where
  | file (read : FileRead) : WellFormed (.file read)
  | dir {entries : List (String × Tree)} (distinct : (entries.map Prod.fst).Nodup)
      (named : ∀ e ∈ entries, IsEntryName e.1) (inner : ∀ e ∈ entries, WellFormed e.2) :
      WellFormed (.dir entries)

/-- What names lead to, one inside the other. -/
def below? (t : Tree) : List String → Option Tree
  | [] => some t
  | name :: rest => (t.named? name).bind (·.below? rest)

/-- Where no name goes back, what was passed on the way does not matter. -/
theorem follow_eq_below? (h : ".." ∉ names) (above : List Tree) (here : Tree) :
    follow above here names = here.below? names := by
  induction names generalizing above here with
  | nil => rfl
  | cons name rest ih =>
    rw [List.mem_cons, not_or] at h
    cases here with
    | file read => rfl
    | dir entries =>
      have hname : name ≠ ".." := Ne.symm h.1
      simp only [follow, hname, if_false, below?, named?]
      cases entries.lookup name with
      | none => rfl
      | some next => exact ih h.2 _ next

/-- Names without `..` lead downwards. -/
theorem follow_append (h : ".." ∉ names) (above : List Tree) (here : Tree) (way : List String) :
    follow above here (way ++ names) = (follow above here way).bind (·.below? names) := by
  induction way generalizing above here with
  | nil => exact follow_eq_below? h above here
  | cons name way ih =>
    cases here with
    | file read => rfl
    | dir entries =>
      by_cases hname : name = ".."
      · subst hname
        cases above with
        | nil => exact ih [] _
        | cons up above => exact ih above up
      · simp only [List.cons_append, follow, hname, if_false]
        cases entries.lookup name with
        | none => rfl
        | some next => exact ih _ next

/-- A path without `..` leads downwards. -/
theorem find?_eq_below? (t : Tree) (h : ".." ∉ p.parts) : t.find? p = t.below? p.parts :=
  follow_eq_below? h [] t

/-- A way down goes on from where its front ends. -/
theorem below?_append (t : Tree) (xs ys : List String) :
    t.below? (xs ++ ys) = (t.below? xs).bind (·.below? ys) := by
  induction xs generalizing t with
  | nil => rfl
  | cons name xs ih =>
    rw [List.cons_append, below?, below?, Option.bind_assoc]
    congr 1
    funext next
    exact ih next

/-- An entry is found by its name. -/
theorem named?_of_mem (h : (entries.map Prod.fst).Nodup) (ht : (name, t) ∈ entries) :
    (Tree.dir entries).named? name = some t := by
  obtain ⟨before, after, rfl⟩ := List.append_of_mem ht
  rw [List.map_append, List.map_cons, List.nodup_append] at h
  rw [named?, List.lookup_eq_some_iff]
  refine ⟨before, after, rfl, ?_⟩
  intro e he
  rw [bne_iff_ne]
  exact (h.2.2 e.1 (List.mem_map_of_mem he) name List.mem_cons_self).symm

/-- What has a name is an entry. -/
theorem mem_of_named? (h : (Tree.dir entries).named? name = some t) : (name, t) ∈ entries := by
  rw [named?, List.lookup_eq_some_iff] at h
  obtain ⟨before, after, rfl, -⟩ := h
  exact List.mem_append_right _ List.mem_cons_self

namespace WellFormed

variable {t u : Tree}

/-- What a well-formed tree names is well-formed. -/
theorem named? (h : t.WellFormed) (hu : t.named? name = some u) :
    IsEntryName name ∧ u.WellFormed := by
  cases h with
  | file read => cases hu
  | dir distinct named inner =>
    have hmem := mem_of_named? hu
    exact ⟨named _ hmem, inner _ hmem⟩

/-- Names that lead somewhere are names of entries. -/
theorem below? (h : t.WellFormed) (hu : t.below? names = some u) :
    (∀ name ∈ names, IsEntryName name) ∧ u.WellFormed := by
  induction names generalizing t with
  | nil =>
    obtain rfl := Option.some.inj hu
    exact ⟨by simp, h⟩
  | cons name rest ih =>
    obtain ⟨next, hnext, hrest⟩ := Option.bind_eq_some_iff.mp hu
    obtain ⟨hname, hinner⟩ := h.named? hnext
    obtain ⟨hnames, hwell⟩ := ih hinner hrest
    exact ⟨List.forall_mem_cons.mpr ⟨hname, hnames⟩, hwell⟩

end WellFormed

end Tree

/-- A file system. -/
structure FileSystem where
  /-- The entries of its topmost directory. -/
  entries : List (String × Tree)
  /-- All names in it are proper. -/
  wellFormed : (Tree.dir entries).WellFormed

/-- The tree of a file system. -/
def FileSystem.tree (fs : FileSystem) : Tree := .dir fs.entries

namespace Path

/-- Resolved names do not go back. -/
private theorem parent_not_mem_normalParts {done rest : List String} (h : ".." ∉ done) :
    ".." ∉ normalParts done rest := by
  fun_induction normalParts done rest with
  | case1 done => simpa using h
  | case2 done rest ih =>
    apply ih
    intro hmem
    exact h (List.mem_of_mem_drop hmem)
  | case3 done name rest hname ih =>
    apply ih
    rw [List.mem_cons, not_or]
    exact ⟨Ne.symm hname, h⟩

/-- A resolved path does not go back. -/
theorem parent_not_mem_resolve (cwd p : Path) : ".." ∉ (resolve cwd p).parts :=
  parent_not_mem_normalParts List.not_mem_nil

private theorem normalParts_concat (h : name ≠ "..") (done names : List String) :
    normalParts done (names ++ [name]) = normalParts done names ++ [name] := by
  fun_induction normalParts done names with
  | case1 done => simp [normalParts]
  | case2 done rest ih => exact ih
  | case3 done other rest hother ih => simpa [normalParts, hother] using ih

/-- The path from the top for a path that is taken from a directory. -/
def located (cwd p : Path) : Path where
  anchor := "/"
  parts := if p.isAbsolute then p.parts else cwd.parts ++ p.parts

/-- A path keeps its last name when it is resolved. -/
theorem name_resolve (hne : p.parts ≠ []) (hlast : p.parts.getLast? ≠ some "..") (cwd : Path) :
    (resolve cwd p).name = p.name := by
  have hname : p.parts.getLast hne ≠ ".." := by
    intro heq
    rw [List.getLast?_eq_some_getLast hne, heq] at hlast
    exact hlast rfl
  obtain ⟨before, hbefore⟩ : ∃ before, (located cwd p).parts = before ++ [p.parts.getLast hne] := by
    unfold located
    dsimp only
    split
    · exact ⟨_, (List.dropLast_append_getLast hne).symm⟩
    · refine ⟨cwd.parts ++ p.parts.dropLast, ?_⟩
      rw [List.append_assoc, List.dropLast_append_getLast]
  have hparts : (resolve cwd p).parts = normalParts [] before ++ [p.parts.getLast hne] := by
    rw [← normalParts_concat hname, ← hbefore]
    rfl
  rw [name, name, hparts, List.getLastD_concat, List.getLastD_eq_getLast?,
    List.getLast?_eq_some_getLast hne, Option.getD_some]

end Path

variable {read : FileRead} {cwd : Path}

namespace Tree

/-- The way from the top to a place: the names on it, the last one first, and the directories. -/
inductive Passed (top : Tree) : List String → List Tree → Tree → Prop where
  | start : Passed top [] [] top
  | enter {done above entries name next} (h : Passed top done above (.dir entries))
      (hnext : entries.lookup name = some next) :
      Passed top (name :: done) (.dir entries :: above) next

namespace Passed

variable {top here t : Tree} {done names : List String} {above : List Tree}

private theorem below? (h : Passed top done above here) : top.below? done.reverse = some here := by
  induction h with
  | start => rfl
  | enter h hnext ih =>
    rw [List.reverse_cons, below?_append, ih, Option.bind_some, Tree.below?, named?, hnext]
    rfl

/-- Following names ends where the resolved names lead. -/
theorem follow (h : Passed top done above here) (hfollow : Tree.follow above here names = some t) :
    top.below? (Path.normalParts done names) = some t := by
  induction names generalizing done above here with
  | nil =>
    obtain rfl := Option.some.inj hfollow
    exact h.below?
  | cons name rest ih =>
    cases here with
    | file read => cases hfollow
    | dir entries =>
      by_cases hname : name = ".."
      · subst hname
        cases h with
        | start => exact ih .start hfollow
        | enter h hnext => exact ih h hfollow
      · simp only [Tree.follow, hname, if_false] at hfollow
        rw [Path.normalParts]
        · cases hnext : entries.lookup name with
          | none => simp [hnext] at hfollow
          | some next =>
            rw [hnext] at hfollow
            exact ih (h.enter hnext) hfollow
        · exact hname

/-- Names that lead to a file do not end by going back. -/
theorem last_ne_parent (h : Passed top done above here)
    (hfollow : Tree.follow above here names = some (.file read)) : names.getLast? ≠ some ".." := by
  induction names generalizing done above here with
  | nil => simp
  | cons name rest ih =>
    cases here with
    | file read => cases hfollow
    | dir entries =>
      by_cases hrest : rest = []
      · subst hrest
        rw [List.getLast?_singleton, Ne, Option.some_inj]
        rintro rfl
        -- One step back from a directory is a directory.
        cases h with
        | start | enter h hnext => cases hfollow
      · rw [List.getLast?_cons_of_ne_nil hrest]
        by_cases hname : name = ".."
        · subst hname
          cases h with
          | start => exact ih .start hfollow
          | enter h hnext => exact ih h hfollow
        · simp only [Tree.follow, hname, if_false] at hfollow
          cases hnext : entries.lookup name with
          | none => simp [hnext] at hfollow
          | some next =>
            rw [hnext] at hfollow
            exact ih (h.enter hnext) hfollow

end Passed

/-- What is read at a path is the file found there. -/
theorem read?_eq_some : t.read? p = some read ↔ t.find? p = some (.file read) := by
  unfold read?
  split
  · next h => simp [h]
  · next h =>
    constructor
    · intro hnone
      cases hnone
    · intro hfile
      exact absurd hfile (h read)

/-- A directory is no file. -/
theorem isFile_of_isDir (t : Tree) (h : t.isDir p = true) : t.isFile p = false := by
  unfold isDir at h
  split at h
  · next hdir => simp [isFile, read?, hdir]
  · cases h

/-- A file is found under its resolved path. -/
theorem read?_resolve (h : t.read? (Path.located cwd p) = some read) :
    t.read? (Path.resolve cwd p) = some read := by
  rw [read?_eq_some] at h ⊢
  rw [find?_eq_below? t (Path.parent_not_mem_resolve cwd p)]
  exact Passed.start.follow h

end Tree

/-- A path that leads from a directory to a file has a last name, which does not go back. -/
theorem FileSystem.last_of_read? {fs : FileSystem} (hcwd : fs.tree.isDir cwd = true)
    (h : fs.tree.read? (Path.located cwd p) = some read) :
    p.parts ≠ [] ∧ p.parts.getLast? ≠ some ".." := by
  rw [Tree.read?_eq_some, Tree.find?] at h
  have hlast := Tree.Passed.start.last_ne_parent h
  have hne : p.parts ≠ [] := by
    intro hnil
    unfold Path.located at h
    rw [hnil, List.append_nil] at h
    split at h
    · cases h
    · rw [Tree.isDir, Tree.find?, h] at hcwd
      cases hcwd
  refine ⟨hne, ?_⟩
  unfold Path.located at hlast
  dsimp only at hlast
  split at hlast
  · exact hlast
  · rwa [List.getLast?_append_of_ne_nil _ hne] at hlast

end ContextLint.Files
