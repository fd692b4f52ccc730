import ContextLint.Proofs.Scan.Outcome
import ContextLint.Proofs.Typing.Declared
import ContextLint.Proofs.Typing.Qualname

/-!
# Names of modules

A module that is named by its path has the identifiers on the way, joined by dots, for its name. If
there are none it is named by the stem of its file, whatever that is made of, and need not be
importable under such a name. A module that is named by its file name alone has an identifier for
its name.
-/

namespace ContextLint

open Files Typing

/-- A name under which a module can be imported: identifiers joined by dots. -/
structure ImportableName where
  segments : List String
  ne_nil : segments ≠ []
  isIdentifier : ∀ s ∈ segments, Text.isIdentifier s.toList = true

namespace ImportableName

/-- The identifiers joined by dots. -/
def text (n : ImportableName) : String := ".".intercalate n.segments

/-- A name that a module can have under the name of a package. -/
theorem text_append (n : ImportableName) (name : String) :
    n.text ++ "." ++ name = ".".intercalate (n.segments ++ [name]) := by
  rw [text, String.intercalate_append_of_ne_nil n.ne_nil (List.cons_ne_nil _ _),
    String.intercalate_singleton]

/-- The text is made of the characters of identifiers, and of dots. -/
theorem char_of_mem_text (n : ImportableName) {c : Char} (hc : c ∈ n.text.toList) :
    Text.isIdentifierStart c = true ∨ Text.isIdentifierPart c = true ∨ c = '.' := by
  have hsegment {s : String} (hs : Text.isIdentifier s.toList = true) {c : Char}
      (hc : c ∈ s.toList) :
      Text.isIdentifierStart c = true ∨ Text.isIdentifierPart c = true ∨ c = '.' := by
    generalize s.toList = cs at hs hc
    cases cs with
    | nil => cases hc
    | cons d cs =>
      rw [Text.isIdentifier, Bool.and_eq_true, List.all_eq_true] at hs
      rcases List.mem_cons.mp hc with rfl | hc
      · exact .inl hs.1
      · exact .inr (.inl (hs.2 c hc))
  have hall := n.isIdentifier
  rw [text, String.toList_intercalate] at hc
  generalize n.segments = segments at hc hall
  induction segments with
  | nil => cases hc
  | cons s rest ih =>
    rw [List.forall_mem_cons] at hall
    cases rest with
    | nil =>
      rw [List.map_singleton, List.intercalate_singleton] at hc
      exact hsegment hall.1 hc
    | cons next rest =>
      rw [List.map_cons, List.map_cons, List.intercalate_cons_cons, List.mem_append,
        List.mem_append] at hc
      rcases hc with (hc | hc) | hc
      · exact hsegment hall.1 hc
      · exact .inr (.inr (List.mem_singleton.mp hc))
      · exact ih hc hall.2

private theorem text_ne_empty (n : ImportableName) : n.text ≠ "" := by
  obtain ⟨segments, hne, hall⟩ := n
  cases segments with
  | nil => exact absurd rfl hne
  | cons s rest =>
    have hs := hall s List.mem_cons_self
    intro hempty
    have hnil : s.toList = [] := by
      have hlist := congrArg String.toList hempty
      rw [text, String.toList_intercalate, String.toList_empty] at hlist
      cases rest with
      | nil => rwa [List.map_singleton, List.intercalate_singleton] at hlist
      | cons next rest =>
        rw [List.map_cons, List.map_cons, List.intercalate_cons_cons, List.append_assoc] at hlist
        exact (List.append_eq_nil_iff.mp hlist).1
    rw [hnil] at hs
    cases hs

end ImportableName

/-- A module can be imported under the name. -/
def IsImportable (name : String) : Prop := ∃ n : ImportableName, n.text = name

namespace Files.Path

private theorem stem_ne_empty {p : Path} (h : p.name ≠ "") : p.stem ≠ "" := by
  have hname : p.name.toList ≠ [] := fun hnil => h (String.toList_eq_nil_iff.mp hnil)
  have hstem : (splitName p.name.toList).1 ≠ [] := by
    unfold splitName
    dsimp only
    split
    · next hsplit =>
      rw [Bool.and_eq_true, Bool.not_eq_true', List.isEmpty_eq_false_iff] at hsplit
      exact hsplit.2
    · exact hname
  rw [stem, Ne, String.ofList_eq_empty_iff]
  exact hstem

private theorem name_append {parts rest : List String} (h : rest ≠ []) (anchor anchor' : String) :
    name ⟨anchor, parts ++ rest⟩ = name ⟨anchor', rest⟩ := by
  rw [name, name, List.getLastD_eq_getLast?, List.getLastD_eq_getLast?,
    List.getLast?_append_of_ne_nil _ h]

end Files.Path

/-- The path that a module is named by: the one inside the directory, or the file name alone. -/
def namingPath (p base : Path) : Path := (p.relativeTo? base).getD (Path.ofString p.name)

/-- The identifiers among the names that a module can be named by. -/
def namingParts (p base : Path) : List String :=
  (moduleParts (namingPath p base)).filter fun n => Text.isIdentifier n.toList

section

variable {p base : Path}

/-- Unless the path is the directory itself, the path that names the module ends in the file name.
-/
theorem namingPath_name (hp : p.Proper) (hne : p.parts ≠ []) (h : p ≠ base) :
    (namingPath p base).name = p.name := by
  obtain ⟨anchor, parts⟩ := p
  obtain ⟨banchor, bparts⟩ := base
  unfold namingPath Path.relativeTo?
  dsimp only
  split
  · next hinside =>
    rw [Bool.and_eq_true, decide_eq_true_eq, List.isPrefixOf_iff_prefix] at hinside
    obtain ⟨rfl, rest, rfl⟩ := hinside
    rw [Option.getD_some, List.drop_left]
    refine (Path.name_append ?_ _ _).symm
    rintro rfl
    exact h (by rw [List.append_nil])
  · have hlast : (Files.Path.mk anchor parts).name = parts.getLast hne := by
      rw [Path.name, List.getLastD_eq_getLast?, List.getLast?_eq_some_getLast hne, Option.getD_some]
    have hpart := hp.parts _ (List.getLast_mem hne)
    rw [Option.getD_none, hlast, Path.ofString_name hpart]
    rfl

private theorem name_ne_empty (hp : p.Proper) (hne : p.parts ≠ []) : p.name ≠ "" := by
  rw [Path.name, List.getLastD_eq_getLast?, List.getLast?_eq_some_getLast hne, Option.getD_some]
  exact (hp.parts _ (List.getLast_mem hne)).ne_empty

private theorem isIdentifier_of_mem_namingParts :
    ∀ s ∈ namingParts p base, Text.isIdentifier s.toList = true :=
  fun _ hs => (List.mem_filter.mp hs).2

/-- The name of a module by its path. -/
theorem moduleOfPath_eq (hp : p.Proper) (hne : p.parts ≠ []) (h : p ≠ base) :
    moduleOfPath p base =
      .ok (if namingParts p base = [] then p.stem else ".".intercalate (namingParts p base)) := by
  have hname : (namingPath p base).name.isEmpty = false := by
    rw [namingPath_name hp hne h]
    simpa using name_ne_empty hp hne
  have hempty : (".".intercalate (namingParts p base)).isEmpty = true ↔ namingParts p base = [] := by
    constructor
    · intro hempty
      by_contra hparts
      exact ImportableName.text_ne_empty ⟨_, hparts, isIdentifier_of_mem_namingParts⟩
        (String.isEmpty_iff.mp hempty)
    · intro hnil
      rw [hnil]
      rfl
  change (if (namingPath p base).name.isEmpty = true then Except.error EmptyName.mk
    else .ok (if (".".intercalate (namingParts p base)).isEmpty = true then p.stem
      else ".".intercalate (namingParts p base))) = _
  rw [if_neg (by rw [hname]; exact Bool.false_ne_true)]
  simp only [hempty]

/-- A directory is not named by its path inside itself. -/
theorem moduleOfPath_self (p : Path) : moduleOfPath p p = .error {} := by
  have hrel : p.relativeTo? p = some ⟨"", []⟩ := by simp [Path.relativeTo?]
  rw [moduleOfPath, hrel]
  rfl

/-- From the directory that it stands in, a module is named by its file name alone. -/
theorem moduleOfPath_parent (hne : p.parts ≠ []) :
    moduleOfPath p p.parent = moduleOfPath ⟨"", [p.name]⟩ ⟨"", []⟩ := by
  have hlast : [p.name] = p.parts.drop p.parent.parts.length := by
    rw [Path.name, Path.parent, List.getLastD_eq_getLast?, List.getLast?_eq_some_getLast hne,
      Option.getD_some, List.length_dropLast, List.drop_length_sub_one hne]
  have hrel : p.relativeTo? p.parent = some ⟨"", [p.name]⟩ := by
    rw [hlast, Path.relativeTo?, if_pos]
    simpa [Path.parent] using List.dropLast_prefix p.parts
  have hself : (Files.Path.mk "" [p.name]).relativeTo? ⟨"", []⟩ = some ⟨"", [p.name]⟩ := by
    simp [Path.relativeTo?]
  have hstem : (Files.Path.mk "" [p.name]).stem = p.stem := rfl
  rw [moduleOfPath, moduleOfPath, hrel, hself, hstem]
  rfl

/-- A path that is not the directory itself names a module, and only a path with no identifier on
the way is named by its stem. -/
theorem exists_name (hp : p.Proper) (hne : p.parts ≠ []) (h : p ≠ base) :
    ∃ name, moduleOfPath p base = .ok name ∧ name ≠ "" ∧
      (namingParts p base = [] → name = p.stem) ∧ (namingParts p base ≠ [] → IsImportable name) := by
  refine ⟨_, moduleOfPath_eq hp hne h, ?_⟩
  by_cases hparts : namingParts p base = []
  · rw [if_pos hparts]
    exact ⟨Path.stem_ne_empty (name_ne_empty hp hne), fun _ => rfl, fun hsome => absurd hparts hsome⟩
  · rw [if_neg hparts]
    let n : ImportableName := ⟨_, hparts, isIdentifier_of_mem_namingParts⟩
    exact ⟨n.text_ne_empty, fun hnil => absurd hnil hparts, fun _ => ⟨n, rfl⟩⟩

end

/-- By its file name alone, a module is named by an identifier. -/
theorem isIdentifier_moduleOfFile (filename : String) :
    Text.isIdentifier (moduleOfFile filename).toList = true := by
  unfold moduleOfFile
  dsimp only
  split
  · next h => rwa [String.toList_ofList]
  · decide

/-- A scan names the modules of files by paths that are not the directory they are named from. -/
theorem FileSystem.named_of_mem_visits {fs : FileSystem} {cwd : Path} {paths : List Path}
    {v : FileVisit} (hv : v ∈ visits fs.tree cwd paths) :
    v.file.Proper ∧ v.file.parts ≠ [] ∧ v.file ≠ v.base := by
  obtain ⟨hfile, name, hname⟩ := FileSystem.exists_of_mem_visits hv
  refine ⟨hfile.proper, ?_, ?_⟩
  · intro hnil
    obtain ⟨read, hread⟩ := hfile.read
    rw [Tree.read?, Tree.find?, hnil] at hread
    cases hread
  · intro hbase
    rw [← hbase, moduleOfPath_self] at hname
    cases hname

/-- The classes of a module that can be imported have whole identifiers before their names. -/
theorem Typing.Declarations.isSome_classes_iff_segments (n : ImportableName) {m : Source.Module}
    {library : Library} {decls : Declarations} (h : ofModule m n.text library = .ok decls)
    {q : String} :
    (decls.classes.get? q).isSome ↔
      ∃ name ∈ classNames m.breadthFirst, q = ".".intercalate (n.segments ++ [name]) := by
  rw [isSome_classes_iff h]
  simp only [n.text_append, eq_comm]

/-- The name of a module by its path fails only for the directory itself, and is never empty. It is
one under which the module can be imported if there is an identifier on the way or the stem of the
file is such a name, and only then; the classes of the module then have whole identifiers before
their names. Without an identifier on the way the name is the stem, whatever it is made of. No file
of a scan is the directory it is named from. The name of a module by its file name alone is an
identifier. -/
theorem moduleOfPath_importable_or_stem {p base : Path} (hp : p.Proper) (hne : p.parts ≠ []) :
    (moduleOfPath p base = .error {} ↔ p = base) ∧
    (p ≠ base → ∃ name, moduleOfPath p base = .ok name ∧ name ≠ "" ∧
      (namingParts p base = [] → name = p.stem) ∧
      (IsImportable name ↔ namingParts p base ≠ [] ∨ IsImportable p.stem) ∧
      ∀ n : ImportableName, n.text = name → ∀ m library decls,
        Declarations.ofModule m name library = .ok decls → ∀ q, (decls.classes.get? q).isSome ↔
          ∃ C ∈ classNames m.breadthFirst, q = ".".intercalate (n.segments ++ [C])) ∧
    (∀ (fs : FileSystem) cwd paths, ∀ v ∈ visits fs.tree cwd paths,
      v.file.Proper ∧ v.file.parts ≠ [] ∧ v.file ≠ v.base) ∧
    ∀ filename, Text.isIdentifier (moduleOfFile filename).toList = true := by
  refine ⟨⟨?_, ?_⟩, ?_, ?_, isIdentifier_moduleOfFile⟩
  · intro herror
    by_contra h
    rw [moduleOfPath_eq hp hne h] at herror
    cases herror
  · rintro rfl
    exact moduleOfPath_self p
  · intro h
    obtain ⟨name, hname, hempty, hstem, himportable⟩ := exists_name hp hne h
    refine ⟨name, hname, hempty, hstem, ⟨?_, ?_⟩, ?_⟩
    · intro hn
      by_cases hparts : namingParts p base = []
      · exact .inr (hstem hparts ▸ hn)
      · exact .inl hparts
    · rintro (hparts | hn)
      · exact himportable hparts
      · by_cases hparts : namingParts p base = []
        · rwa [hstem hparts]
        · exact himportable hparts
    · rintro n rfl m library decls hdecls q
      exact Declarations.isSome_classes_iff_segments n hdecls
  · intro fs cwd paths v hv
    exact FileSystem.named_of_mem_visits hv

namespace HyphenatedFile

/-- A file whose name has a hyphen. -/
def file : Path := Path.ofString "x-context.py"

/-- The directory it stands in. -/
def top : Path := Path.ofString "."

/-- The module of the file cannot be imported under its name, and a class `Context` in it is taken
for that of the module `context`. By its file name alone it would be the main module. -/
theorem name_not_importable :
    ∃ name, moduleOfPath file top = .ok name ∧ ¬ IsImportable name ∧
      qualnameMatches (name ++ "." ++ "Context") "context.Context" = true ∧
      moduleOfFile "x-context.py" = "__main__" := by
  refine ⟨"x-context", by decide +kernel, ?_, by decide +kernel, by decide +kernel⟩
  rintro ⟨n, hn⟩
  have hchar := n.char_of_mem_text (c := '-') (by rw [hn]; decide)
  revert hchar
  decide +kernel

/-- In a directory that is an identifier the module is named by the directory alone. -/
theorem name_in_package :
    (Path.ofString "pkg/x-context.py").Proper ∧
      ∃ name, moduleOfPath (Path.ofString "pkg/x-context.py") top = .ok name ∧ name = "pkg" ∧
        IsImportable name := by
  have hproper := Path.proper_ofString "pkg/x-context.py"
  obtain ⟨-, hnamed, -⟩ :=
    @moduleOfPath_importable_or_stem _ top hproper (by decide +kernel)
  obtain ⟨name, hname, -, -, himportable, -⟩ := hnamed (by decide +kernel)
  refine ⟨hproper, name, hname, ?_, himportable.mpr (.inl (by decide +kernel))⟩
  have hpkg : moduleOfPath (Path.ofString "pkg/x-context.py") top = .ok "pkg" := by decide +kernel
  exact Except.ok.inj (hname.symm.trans hpkg)

end HyphenatedFile

end ContextLint
