import Mathlib.Data.List.Nodup
import ContextLint.Files.Discover
import ContextLint.Proofs.Files.FileSystem

/-!
# The files that paths stand for

Several paths stand for the files that one of them stands for, each listed once. In a file system
every file listed for a resolved path is there, is named from the top by proper names, and lies
strictly below the directory that it is looked up from.
-/

namespace ContextLint.Files

/-- Lists are added one after the other. -/
theorem addNew_append (found xs ys : List Path) :
    addNew found (xs ++ ys) = addNew (addNew found xs) ys := by
  induction xs generalizing found with
  | nil => rfl
  | cons p xs ih => exact ih _

variable {found : List Path} {p : Path}

private theorem mem_addNew {xs : List Path} : p ∈ addNew found xs ↔ p ∈ found ∨ p ∈ xs := by
  induction xs generalizing found with
  | nil => simp [addNew]
  | cons q xs ih =>
    rw [addNew, ih, List.mem_cons]
    by_cases hq : q ∈ found
    · rw [if_pos (by simpa using hq)]
      constructor
      · rintro (h | h)
        · exact .inl h
        · exact .inr (.inr h)
      · rintro (h | rfl | h)
        · exact .inl h
        · exact .inl hq
        · exact .inr h
    · rw [if_neg (by simpa using hq), List.mem_append, List.mem_singleton, or_assoc]

private theorem nodup_addNew (h : found.Nodup) (xs : List Path) : (addNew found xs).Nodup := by
  induction xs generalizing found with
  | nil => exact h
  | cons q xs ih =>
    rw [addNew]
    apply ih
    by_cases hq : q ∈ found
    · rwa [if_pos (by simpa using hq)]
    · rw [if_neg (by simpa using hq)]
      rw [← List.concat_eq_append]
      exact h.concat hq

/-- The paths stand for the files of all of them, without repetition. -/
theorem discover_eq (t : Tree) (paths : List Path) :
    discover t paths = addNew [] (paths.flatMap (filesOf t)) := by
  have hfold (found : List Path) :
      paths.foldl (fun found root => addNew found (filesOf t root)) found =
        addNew found (paths.flatMap (filesOf t)) := by
    induction paths generalizing found with
    | nil => rfl
    | cons root paths ih => rw [List.foldl_cons, ih, List.flatMap_cons, addNew_append]
  exact hfold []

/-- No file is discovered twice. -/
theorem nodup_discover (t : Tree) (paths : List Path) : (discover t paths).Nodup := by
  rw [discover_eq]
  exact nodup_addNew List.nodup_nil _

variable {t : Tree} {paths : List Path}

/-- The files of all paths are discovered. -/
theorem mem_discover : p ∈ discover t paths ↔ ∃ root ∈ paths, p ∈ filesOf t root := by
  rw [discover_eq, mem_addNew, List.mem_flatMap]
  simp

/-- A file is listed for several paths if it is listed for one of them. -/
theorem mem_discover_iff : p ∈ discover t paths ↔ ∃ root ∈ paths, p ∈ discover t [root] := by
  simp only [mem_discover, List.mem_singleton, exists_eq_left]

/-- The Python files of an entry, each as the names that lead to it from the directory. -/
def filesIn (name : String) : Tree → List (List String)
  | .file read => if isPythonName name && read.size ≤ maxFileSize then [[name]] else []
  | .dir entries => if isIgnored name then [] else (filesBelow (.dir entries)).map (name :: ·)

theorem entryFiles_eq (entries : List (String × Tree)) :
    entryFiles entries = entries.map fun e => (e.1, filesIn e.1 e.2) := by
  induction entries with
  | nil => rfl
  | cons e entries ih =>
    obtain ⟨name, t⟩ := e
    cases t <;> rw [entryFiles, ih] <;> rfl

variable {parts : List String}

private theorem mem_filesBelow {entries : List (String × Tree)} :
    parts ∈ filesBelow (.dir entries) ↔ ∃ e ∈ entries, parts ∈ filesIn e.1 e.2 := by
  simp [filesBelow, byName, entryFiles_eq]

variable {name : String}

/-- A file in an entry lies below its name. -/
theorem exists_of_mem_filesIn (h : parts ∈ filesIn name t) : ∃ rest, parts = name :: rest := by
  cases t with
  | file read =>
    rw [filesIn] at h
    split at h
    · exact ⟨[], List.mem_singleton.mp h⟩
    · cases h
  | dir entries =>
    rw [filesIn] at h
    split at h
    · cases h
    · obtain ⟨rest, -, hrest⟩ := List.mem_map.mp h
      exact ⟨rest, hrest.symm⟩

/-- Whether names are listed is decided by the entry that the first of them stands for. -/
theorem cons_mem_filesBelow (h : t.WellFormed) {rest : List String} :
    name :: rest ∈ filesBelow t ↔ ∃ u, t.named? name = some u ∧ name :: rest ∈ filesIn name u := by
  cases h with
  | file read => simp [filesBelow, Tree.named?]
  | @dir entries distinct named inner =>
    rw [mem_filesBelow]
    constructor
    · rintro ⟨⟨n, u⟩, he, hmem⟩
      obtain ⟨_, hhead⟩ := exists_of_mem_filesIn hmem
      obtain rfl := (List.cons.inj hhead).1
      exact ⟨u, Tree.named?_of_mem distinct he, hmem⟩
    · rintro ⟨u, hu, hmem⟩
      exact ⟨(name, u), Tree.mem_of_named? hu, hmem⟩

private theorem ne_nil_of_mem_filesBelow (h : parts ∈ filesBelow t) : parts ≠ [] := by
  cases t with
  | file read => simp [filesBelow] at h
  | dir entries =>
    obtain ⟨e, -, hmem⟩ := mem_filesBelow.mp h
    obtain ⟨rest, rfl⟩ := exists_of_mem_filesIn hmem
    exact List.cons_ne_nil _ _

/-- A file below a directory has a name. -/
theorem exists_concat_of_mem_filesBelow (h : parts ∈ filesBelow t) :
    ∃ dirs name, parts = dirs ++ [name] :=
  (List.eq_nil_or_concat' parts).resolve_left (ne_nil_of_mem_filesBelow h)

/-- A Python file that is not too large, reached through directories that are not ignored. -/
structure IsSource (t : Tree) (dirs : List String) (name : String) : Prop where
  /-- No directory on the way is passed over. -/
  notIgnored : ∀ dir ∈ dirs, isIgnored dir = false
  /-- It has the name of a Python file. -/
  python : isPythonName name = true
  /-- It is there and is not too large. -/
  read : ∃ read, t.below? (dirs ++ [name]) = some (.file read) ∧ read.size ≤ maxFileSize

/-- Below a directory exactly the sources are listed. -/
theorem concat_mem_filesBelow (h : t.WellFormed) {dirs : List String} :
    dirs ++ [name] ∈ filesBelow t ↔ IsSource t dirs name := by
  induction dirs generalizing t with
  | nil =>
    rw [List.nil_append, cons_mem_filesBelow h]
    constructor
    · rintro ⟨u, hu, hmem⟩
      cases u with
      | file read =>
        obtain ⟨hpython, hsize⟩ : isPythonName name = true ∧ read.size ≤ maxFileSize := by
          simpa [filesIn] using hmem
        exact ⟨by simp, hpython, read, by simp [Tree.below?, hu], hsize⟩
      | dir entries =>
        obtain ⟨-, hnil⟩ : isIgnored name = false ∧ [] ∈ filesBelow (.dir entries) := by
          simpa [filesIn] using hmem
        exact absurd rfl (ne_nil_of_mem_filesBelow hnil)
    · rintro ⟨-, hpython, read, hbelow, hsize⟩
      obtain ⟨u, hu, hrest⟩ := Option.bind_eq_some_iff.mp hbelow
      obtain rfl := Option.some.inj hrest
      exact ⟨_, hu, by simp [filesIn, hpython, hsize]⟩
  | cons dir dirs ih =>
    rw [List.cons_append, cons_mem_filesBelow h]
    constructor
    · rintro ⟨u, hu, hmem⟩
      cases u with
      | file read => simp [filesIn] at hmem
      | dir entries =>
        obtain ⟨hdir, hmem⟩ :
            isIgnored dir = false ∧ dirs ++ [name] ∈ filesBelow (.dir entries) := by
          simpa [filesIn] using hmem
        obtain ⟨hopen, hpython, hread⟩ := (ih (h.named? hu).2).mp hmem
        exact ⟨List.forall_mem_cons.mpr ⟨hdir, hopen⟩, hpython, by simpa [Tree.below?, hu]⟩
    · rintro ⟨hopen, hpython, read, hbelow, hsize⟩
      obtain ⟨hdir, hdirs⟩ := List.forall_mem_cons.mp hopen
      obtain ⟨u, hu, hrest⟩ := Option.bind_eq_some_iff.mp hbelow
      refine ⟨u, hu, ?_⟩
      cases u with
      | file read => cases dirs <;> simp [Tree.below?, Tree.named?] at hrest
      | dir entries =>
        have hmem := (ih (h.named? hu).2).mpr ⟨hdirs, hpython, read, hrest, hsize⟩
        simp [filesIn, hdir, hmem]

/-- The path leads from the top of a file system to a file. -/
structure FileSystem.HasFile (fs : FileSystem) (file : Path) : Prop where
  /-- The path is absolute. -/
  anchor : file.anchor = "/"
  /-- It is made of names of entries. -/
  names : ∀ name ∈ file.parts, IsEntryName name
  /-- The file is there. -/
  read : ∃ read, fs.tree.read? file = some read

variable {fs : FileSystem} {file : Path}

private theorem FileSystem.hasFile_of_below? (hanchor : file.anchor = "/") {read : FileRead}
    (h : fs.tree.below? file.parts = some (.file read)) : fs.HasFile file := by
  have hnames := (fs.wellFormed.below? h).1
  refine ⟨hanchor, hnames, read, ?_⟩
  have hparent : ".." ∉ file.parts := by
    intro hmem
    exact (hnames _ hmem).ne_parent rfl
  rw [Tree.read?, Tree.find?_eq_below? _ hparent, h]

/-- A path stands for itself if it leads to a file, and else for files strictly below it. -/
theorem FileSystem.exists_of_mem_filesOf {root : Path} (hroot : ".." ∉ root.parts)
    (h : file ∈ filesOf fs.tree root) :
    ∃ rest read, file = { root with parts := root.parts ++ rest } ∧
      fs.tree.below? file.parts = some (.file read) ∧
      (rest = [] ↔ fs.tree.isFile root = true) := by
  have hfind := Tree.find?_eq_below? fs.tree hroot
  unfold filesOf at h
  split at h
  · next read hfile =>
    obtain rfl := List.mem_singleton.mp h
    refine ⟨[], read, by simp, hfind.symm.trans hfile, ?_⟩
    simp [Tree.isFile, Tree.read?, hfile]
  · next entries hdir =>
    obtain ⟨rest, hrest, rfl⟩ := List.mem_map.mp h
    have hbelow := hfind.symm.trans hdir
    obtain ⟨dirs, name, rfl⟩ := exists_concat_of_mem_filesBelow hrest
    obtain ⟨-, -, read, hread, -⟩ :=
      (concat_mem_filesBelow (fs.wellFormed.below? hbelow).2).mp hrest
    refine ⟨_, read, rfl, ?_, ?_⟩
    · rw [Tree.below?_append, hbelow]
      exact hread
    · simp [Tree.isFile, Tree.read?, hdir]
  · cases h

/-- A file that is listed for a resolved path is in the file system. -/
theorem FileSystem.hasFile_of_mem_discover {cwd path : Path}
    (h : file ∈ discover fs.tree [Path.resolve cwd path]) : fs.HasFile file := by
  obtain ⟨root, hroot, hfile⟩ := mem_discover.mp h
  obtain rfl := List.mem_singleton.mp hroot
  obtain ⟨rest, read, rfl, hbelow, -⟩ :=
    exists_of_mem_filesOf (Path.parent_not_mem_resolve cwd path) hfile
  exact hasFile_of_below? rfl hbelow

/-- The path of a file is proper. -/
theorem FileSystem.HasFile.proper (h : fs.HasFile file) :
    file.Proper where
  anchor := .inr (.inl h.anchor)
  parts name hname := (h.names name hname).toIsPart

/-- Files of a file system with the same text are the same. -/
theorem FileSystem.HasFile.eq_of_text_eq {f g : Path} (hf : fs.HasFile f) (hg : fs.HasFile g)
    (h : f.text = g.text) : f = g :=
  Path.eq_of_text_eq hf.proper hg.proper h

end ContextLint.Files
