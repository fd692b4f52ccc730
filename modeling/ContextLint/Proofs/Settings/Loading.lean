import ContextLint.Proofs.Settings.Valid
import ContextLint.Settings.Load

/-!
# Failures of loading

Loading settings gives valid ones or fails. Callers report the errors about a missing or malformed
file and about settings that are not valid. The other failures, which no caller expects, are
described here by what comes of reading the file; there are no more, whatever the readers of
documents make of its text. A search for a settings file fails only where loading from the file at
which it ends would.
-/

namespace ContextLint

open Data Files Text

variable (readers : SettingsReaders)

/-- The entries of the section of settings in a file. -/
inductive HasSection (path : Path) (read : FileRead) : List (Value × Value) → Prop
  /-- A project file has it among the tools. -/
  | tool {text entries tools inner}
      (htoml : path.suffix = ".toml") (htext : textOfFile read = .ok text)
      (hparse : readers.toml text = some entries)
      (htools : Value.find? "tool" entries = some (.map tools))
      (hinner : Value.find? sectionName tools = some (.map inner)) : HasSection path read inner
  /-- A settings file may have it under its name. -/
  | named {text entries inner} (hyaml : path.suffix ≠ ".toml") (htext : textOfFile read = .ok text)
      (hparse : readers.yaml (unifyNewlines text) = .ok (.map entries))
      (hinner : Value.find? sectionName entries = some (.map inner)) :
      HasSection path read inner
  /-- Otherwise the section is all of the file. -/
  | whole {text entries} (hyaml : path.suffix ≠ ".toml") (htext : textOfFile read = .ok text)
      (hparse : readers.yaml (unifyNewlines text) = .ok (.map entries))
      (hnone : Value.find? sectionName entries = none) : HasSection path read entries

/-- A project file has no section of settings. -/
inductive LacksSection (read : FileRead) : Prop
  /-- It has no tools. -/
  | noTools {text entries} (htext : textOfFile read = .ok text)
      (hparse : readers.toml text = some entries) (hnone : Value.find? "tool" entries = none) :
      LacksSection read
  /-- This tool is not among them. -/
  | otherTools {text entries tools}
      (htext : textOfFile read = .ok text) (hparse : readers.toml text = some entries)
      (htools : Value.find? "tool" entries = some (.map tools))
      (hnone : Value.find? sectionName tools = none) : LacksSection read

/-- What comes of reading a file makes loading fail in a way that callers do not expect. -/
inductive Unforeseen (path : Path) (read : FileRead) : LoadError → Prop
  /-- The file cannot be read. -/
  | unreadable {fault} (hread : read = .error fault) : Unforeseen path read (.unreadable fault)
  /-- Its content is no text. -/
  | undecodable {content fault} (hread : read = .ok content)
      (htext : decode content = .error fault) : Unforeseen path read (.undecodable fault)
  /-- The tools of a project file are no table. -/
  | toolsNotTable {text entries tools}
      (htoml : path.suffix = ".toml") (htext : textOfFile read = .ok text)
      (hparse : readers.toml text = some entries)
      (htools : Value.find? "tool" entries = some tools) (hkind : ∀ inner, tools ≠ .map inner) :
      Unforeseen path read (.toolsNotTable tools.kindName)
  /-- A scalar of a settings file is no value of its type. -/
  | badScalar {text kind message}
      (hyaml : path.suffix ≠ ".toml") (htext : textOfFile read = .ok text)
      (hparse : readers.yaml (unifyNewlines text) = .error (.value kind message)) :
      Unforeseen path read (.badScalar kind message)
  /-- A key of the section is no text; the error names the first such key. -/
  | nameNotText {before after key v}
      (hentries : HasSection readers path read (before ++ (key, v) :: after))
      (hbefore : ∀ entry ∈ before, (keyText? entry.1).isSome) (hkey : keyText? key = none) :
      Unforeseen path read (.nameNotText key)

/-- The errors that callers expect are those of one kind. -/
theorem LoadError.isExpected_iff (e : LoadError) :
    e.isExpected = true ↔ e.kindName = "ConfigError" := by
  cases e with
  | nameNotText v => cases v <;> simp [isExpected, kindName, nameError]
  | badScalar kind message => cases kind <;> simp [isExpected, kindName, Yaml.FaultKind.name]
  | unreadable fault =>
    cases hkind : fault.kind <;> simp [isExpected, kindName, hkind, ReadFaultKind.name]
  | _ => simp [isExpected, kindName]

/-- The section of a file, by the ending of its name. -/
def sectionIn (path : Path) (read : FileRead) : Except LoadError (Option (List (Value × Value))) :=
  if path.suffix == ".toml" then projectSection readers path read
  else yamlSection readers path read

variable {e : LoadError} {entries : List (Value × Value)}

section Reading

variable {path : Path} {read : FileRead}

/-- A file has a text unless it cannot be read or decoded. -/
theorem unforeseen_of_textOfFile (h : textOfFile read = .error e) :
    Unforeseen readers path read e := by
  cases read with
  | error fault =>
    obtain rfl := Except.error.inj h
    exact .unreadable rfl
  | ok content =>
    change (decode content).mapError LoadError.undecodable = .error e at h
    cases htext : decode content with
    | error fault =>
      rw [htext] at h
      obtain rfl := Except.error.inj h
      exact .undecodable rfl htext
    | ok text =>
      rw [htext] at h
      cases h

/-- What reading the section of a project file tells of the file. -/
theorem projectSection_spec (htoml : path.suffix = ".toml") (read : FileRead) :
    match projectSection readers path read with
    | .ok none => LacksSection readers read
    | .ok (some entries) => HasSection readers path read entries
    | .error e => e.isExpected = true ∨ Unforeseen readers path read e := by
  unfold projectSection
  cases htext : textOfFile read with
  | error e => exact .inr (unforeseen_of_textOfFile readers htext)
  | ok text =>
    simp only [bind, Except.bind]
    cases hparse : readers.toml text with
    | none => exact .inl rfl
    | some entries =>
      dsimp only
      cases htools : Value.find? "tool" entries with
      | none => exact .noTools htext hparse htools
      | some tools =>
        cases tools with
        | map tools =>
          dsimp only [Option.getD]
          cases hinner : Value.find? sectionName tools with
          | none => exact .otherTools htext hparse htools hinner
          | some v =>
            cases v with
            | map inner => exact .tool htoml htext hparse htools hinner
            | _ => exact .inl rfl
        | _ => exact .inr (.toolsNotTable htoml htext hparse htools nofun)

/-- What reading the section of a settings file tells of the file. -/
theorem yamlSection_spec (hyaml : path.suffix ≠ ".toml") (read : FileRead) :
    match yamlSection readers path read with
    | .ok none => True
    | .ok (some entries) => HasSection readers path read entries
    | .error e => e.isExpected = true ∨ Unforeseen readers path read e := by
  unfold yamlSection
  cases htext : textOfFile read with
  | error e => exact .inr (unforeseen_of_textOfFile readers htext)
  | ok text =>
    simp only [bind, Except.bind]
    cases hparse : readers.yaml (unifyNewlines text) with
    | error fault =>
      cases fault with
      | malformed => exact .inl rfl
      | value kind message => exact .inr (.badScalar hyaml htext hparse)
    | ok v =>
      cases v with
      | null => exact trivial
      | map entries =>
        dsimp only
        cases hinner : Value.find? sectionName entries with
        | none => exact .whole hyaml htext hparse hinner
        | some v =>
          cases v with
          | map inner => exact .named hyaml htext hparse hinner
          | _ => exact .inl rfl
      | _ => exact .inl rfl

private theorem sectionIn_of_toml (htoml : path.suffix = ".toml") :
    sectionIn readers path read = projectSection readers path read := by
  rw [sectionIn, if_pos (beq_iff_eq.mpr htoml)]

private theorem sectionIn_of_yaml (hyaml : path.suffix ≠ ".toml") :
    sectionIn readers path read = yamlSection readers path read := by
  rw [sectionIn, if_neg (by simpa using hyaml)]

/-- What reading the section of a file tells of the file. -/
theorem sectionIn_spec (path : Path) (read : FileRead) :
    match sectionIn readers path read with
    | .ok none => True
    | .ok (some entries) => HasSection readers path read entries
    | .error e => e.isExpected = true ∨ Unforeseen readers path read e := by
  obtain htoml | hyaml := eq_or_ne path.suffix ".toml"
  · have hspec := projectSection_spec readers htoml read
    rw [sectionIn_of_toml readers htoml]
    split at hspec
    · trivial
    · exact hspec
    · exact hspec
  · rw [sectionIn_of_yaml readers hyaml]
    exact yamlSection_spec readers hyaml read

variable {readers}

private theorem projectSection_of_lacksSection (h : LacksSection readers read) :
    projectSection readers path read = .ok none := by
  cases h with
  | noTools htext hparse hnone =>
    simp only [projectSection, htext, hparse, hnone, bind, Except.bind]
    rfl
  | otherTools htext hparse htools hnone =>
    simp only [projectSection, htext, hparse, htools, hnone, bind, Except.bind, Option.getD]
    rfl

private theorem projectSection_of_tools {text : List Char} {tools : Value}
    (htext : textOfFile read = .ok text) (hparse : readers.toml text = some entries)
    (htools : Value.find? "tool" entries = some tools) (hkind : ∀ inner, tools ≠ .map inner) :
    projectSection readers path read = .error (.toolsNotTable tools.kindName) := by
  simp only [projectSection, htext, hparse, htools, bind, Except.bind, Option.getD]
  rfl

private theorem sectionIn_of_hasSection (h : HasSection readers path read entries) :
    sectionIn readers path read = .ok (some entries) := by
  cases h with
  | tool htoml htext hparse htools hinner =>
    rw [sectionIn_of_toml readers htoml]
    simp only [projectSection, htext, hparse, htools, hinner, bind, Except.bind, Option.getD]
    rfl
  | named hyaml htext hparse hinner | whole hyaml htext hparse hinner =>
    rw [sectionIn_of_yaml readers hyaml]
    simp only [yamlSection, htext, hparse, hinner, bind, Except.bind]
    rfl

private theorem sectionIn_of_textOfFile (h : textOfFile read = .error e) :
    sectionIn readers path read = .error e := by
  unfold sectionIn projectSection yamlSection
  rw [h]
  split <;> rfl

/-- Naming the values of a section fails exactly at the first key that is no text. -/
theorem namedValues_eq_error_iff {found : List (String × Value)} :
    namedValues entries found = .error e ↔
      ∃ before key v after, entries = before ++ (key, v) :: after ∧
        (∀ entry ∈ before, (keyText? entry.1).isSome) ∧ keyText? key = none ∧
        e = .nameNotText key := by
  induction entries generalizing found with
  | nil => simp [namedValues]
  | cons first rest ih =>
    obtain ⟨key, v⟩ := first
    rw [namedValues]
    cases hkey : keyText? key with
    | none =>
      constructor
      · rintro ⟨⟩
        exact ⟨[], key, v, rest, rfl, List.forall_mem_nil _, hkey, rfl⟩
      · rintro ⟨_ | ⟨b, before⟩, key', v', after, ⟨⟩, hbefore, -, rfl⟩
        · rfl
        · simpa [hkey] using hbefore _ List.mem_cons_self
    | some name =>
      dsimp only
      rw [ih]
      constructor
      · rintro ⟨before, key', v', after, rfl, hbefore, hnone, he⟩
        refine ⟨(key, v) :: before, key', v', after, rfl, ?_, hnone, he⟩
        exact List.forall_mem_cons.mpr ⟨by simp [hkey], hbefore⟩
      · rintro ⟨_ | ⟨b, before⟩, key', v', after, ⟨⟩, hbefore, hnone, he⟩
        · cases hkey.symm.trans hnone
        · exact ⟨before, key', v', after, rfl, (List.forall_mem_cons.mp hbefore).2, hnone, he⟩

end Reading

section Loading

variable {readers} {tree : Tree} {path : Path} {read : FileRead}

/-- Loading from a file reads its section, names the values and checks them. -/
theorem loadFile_of_read (hread : tree.read? path = some read) :
    loadFile readers tree path = (sectionIn readers path read).bind fun
      | none => .ok {}
      | some entries => (namedValues entries []).bind fun values =>
          (Settings.ofValues values).mapError (LoadError.invalid path) := by
  unfold loadFile
  rw [hread]
  dsimp only [bind, Except.bind]
  rw [← sectionIn]
  cases sectionIn readers path read with
  | error e => rfl
  | ok found =>
    cases found with
    | none => rfl
    | some entries =>
      dsimp only
      cases namedValues entries [] with
      | error e => rfl
      | ok values =>
        dsimp only
        cases Settings.ofValues values <;> rfl

/-- Loading gives valid settings, or an error that is expected, or one that the file explains. -/
theorem loadFile_spec (readers : SettingsReaders) (tree : Tree) (path : Path) :
    match loadFile readers tree path with
    | .ok s => s.Valid
    | .error e => e.isExpected = true ∨
        ∃ read, tree.read? path = some read ∧ Unforeseen readers path read e := by
  cases hread : tree.read? path with
  | none =>
    have hmissing : loadFile readers tree path = .error (.notFound path) := by
      rw [loadFile, hread]
      rfl
    rw [hmissing]
    exact .inl rfl
  | some read =>
    rw [loadFile_of_read hread]
    have hspec := sectionIn_spec readers path read
    split at hspec
    · next hsection =>
      rw [hsection]
      exact Settings.valid_default
    · next entries hsection =>
      rw [hsection]
      dsimp only [Except.bind]
      cases hnamed : namedValues entries [] with
      | error e =>
        obtain ⟨before, key, v, after, rfl, hbefore, hkey, rfl⟩ :=
          namedValues_eq_error_iff.mp hnamed
        exact .inr ⟨read, rfl, .nameNotText hspec hbefore hkey⟩
      | ok values =>
        dsimp only
        cases hvalues : Settings.ofValues values with
        | error issues => exact .inl rfl
        | ok s => exact Settings.valid_of_ofValues hvalues
    · next e hsection =>
      rw [hsection]
      exact hspec.imp id fun h => ⟨read, rfl, h⟩

private theorem Unforeseen.not_expected (h : Unforeseen readers path read e) :
    e.isExpected = false := by
  cases h <;> rfl

/-- A file that is described as such makes loading fail. -/
theorem Unforeseen.loadFile {e : LoadError} (h : Unforeseen readers path read e)
    (hread : tree.read? path = some read) : loadFile readers tree path = .error e := by
  rw [loadFile_of_read hread]
  cases h with
  | @unreadable fault hread =>
    have htext : textOfFile read = .error (.unreadable fault) := by rw [hread]; rfl
    rw [sectionIn_of_textOfFile htext]
    rfl
  | @undecodable content fault hread hdecode =>
    have htext : textOfFile read = .error (.undecodable fault) := by
      rw [hread]
      exact congrArg (Except.mapError LoadError.undecodable) hdecode
    rw [sectionIn_of_textOfFile htext]
    rfl
  | toolsNotTable htoml htext hparse htools hkind =>
    rw [sectionIn_of_toml readers htoml, projectSection_of_tools htext hparse htools hkind]
    rfl
  | @badScalar text kind message hyaml htext hparse =>
    have hsection : sectionIn readers path read = .error (.badScalar kind message) := by
      rw [sectionIn_of_yaml readers hyaml]
      simp only [yamlSection, htext, hparse, bind, Except.bind]
      rfl
    rw [hsection]
    rfl
  | nameNotText hentries hbefore hkey =>
    rw [sectionIn_of_hasSection hentries]
    dsimp only [Except.bind]
    rw [namedValues_eq_error_iff.mpr ⟨_, _, _, _, rfl, hbefore, hkey, rfl⟩]

end Loading

section Search

/-- A search ends in a directory at its first settings file, or without one at its project file,
unless that has no section. -/
inductive EndsAt (tree : Tree) (dir : Path) : Path → Prop
  | settingsFile {path} (hfound : (settingsFileNames.map dir.child).find? tree.isFile = some path) :
      EndsAt tree dir path
  | projectFile {read} (hnone : (settingsFileNames.map dir.child).find? tree.isFile = none)
      (hread : tree.read? (dir.child projectFileName) = some read)
      (hsection : ¬ LacksSection readers read) : EndsAt tree dir (dir.child projectFileName)

/-- The file at which a search through directories ends, if there is one. -/
def SearchEnds (tree : Tree) (dirs : List Path) : Option Path → Prop
  | none => ∀ dir ∈ dirs, ∀ path, ¬ EndsAt readers tree dir path
  | some path => ∃ before dir after, dirs = before ++ dir :: after ∧
      (∀ d ∈ before, ∀ p, ¬ EndsAt readers tree d p) ∧ EndsAt readers tree dir path

private theorem suffix_projectFile (dir : Path) : (dir.child projectFileName).suffix = ".toml" := by
  have hname : (dir.child projectFileName).name = projectFileName := by
    simp [Path.name, Path.child]
  rw [Path.suffix, hname]
  decide

/-- What looking for a settings file in a directory tells of the directory. It fails only where
loading from the project file does. -/
theorem settingsFileIn_spec (tree : Tree) (dir : Path) :
    match settingsFileIn readers tree dir with
    | .ok none => ∀ path, ¬ EndsAt readers tree dir path
    | .ok (some path) => EndsAt readers tree dir path
    | .error e => ∃ path, EndsAt readers tree dir path ∧ loadFile readers tree path = .error e := by
  unfold settingsFileIn
  cases hfound : (settingsFileNames.map dir.child).find? tree.isFile with
  | some path => exact .settingsFile hfound
  | none =>
    dsimp only
    cases hread : tree.read? (dir.child projectFileName) with
    | none =>
      intro path hpath
      cases hpath with
      | settingsFile h => simp [hfound] at h
      | projectFile _ h _ => simp [hread] at h
    | some read =>
      dsimp only [bind, Except.bind]
      have htoml := suffix_projectFile dir
      have hspec := projectSection_spec readers htoml read
      have hlacks : projectSection readers (dir.child projectFileName) read ≠ .ok none →
          ¬ LacksSection readers read := fun hne h => hne (projectSection_of_lacksSection h)
      cases hsection : projectSection readers (dir.child projectFileName) read with
      | error e =>
        refine ⟨_, .projectFile hfound hread (hlacks (by simp [hsection])), ?_⟩
        rw [loadFile_of_read hread, sectionIn_of_toml readers htoml, hsection]
        rfl
      | ok found =>
        rw [hsection] at hspec
        cases found with
        | some entries => exact .projectFile hfound hread (hlacks (by simp [hsection]))
        | none =>
          intro path hpath
          cases hpath with
          | settingsFile h => simp [hfound] at h
          | projectFile _ h hne =>
            obtain rfl := Option.some.inj (hread.symm.trans h)
            exact hne hspec

/-- A search and loading from what it finds do the same as loading from the file at which the search
ends. -/
theorem exists_searchEnds (tree : Tree) (dirs : List Path) :
    ∃ file, SearchEnds readers tree dirs file ∧
      firstSettingsFile readers tree dirs >>= loadSettings readers tree =
        loadSettings readers tree file := by
  induction dirs with
  | nil => exact ⟨none, List.forall_mem_nil _, rfl⟩
  | cons dir rest ih =>
    have hspec := settingsFileIn_spec readers tree dir
    unfold firstSettingsFile
    split at hspec
    · next hhere =>
      obtain ⟨file, hends, hload⟩ := ih
      refine ⟨file, ?_, by rw [hhere]; exact hload⟩
      cases file with
      | none => exact List.forall_mem_cons.mpr ⟨hspec, hends⟩
      | some path =>
        obtain ⟨before, d, after, rfl, hbefore, hd⟩ := hends
        exact ⟨dir :: before, d, after, rfl, List.forall_mem_cons.mpr ⟨hspec, hbefore⟩, hd⟩
    · next path hhere =>
      refine ⟨some path, ⟨[], dir, rest, rfl, List.forall_mem_nil _, hspec⟩, ?_⟩
      rw [hhere]
      rfl
    · next e hhere =>
      obtain ⟨path, hpath, hload⟩ := hspec
      refine ⟨some path, ⟨[], dir, rest, rfl, List.forall_mem_nil _, hpath⟩, ?_⟩
      rw [hhere]
      exact hload.symm

end Search

/-- Loading settings gives valid ones or an error. The errors that callers do not expect are those
of files that are described as unforeseen, and every such file gives its error. A search followed by
loading ends as loading from the file at which the search ends. -/
theorem settings_valid_or_failure_described (tree : Tree) :
    (∀ file, (∃ s, loadSettings readers tree file = .ok s ∧ s.Valid) ∨
      ∃ e, loadSettings readers tree file = .error e ∧ (e.kindName = "ConfigError" ∨
        ∃ path read, file = some path ∧ tree.read? path = some read ∧
          Unforeseen readers path read e)) ∧
      (∀ path e, loadSettings readers tree (some path) = .error e ∧ e.kindName ≠ "ConfigError" ↔
        ∃ read, tree.read? path = some read ∧ Unforeseen readers path read e) ∧
      ∀ start, ∃ file,
        SearchEnds readers tree (if tree.isDir start then start else start.parent).upward file ∧
          findSettings readers tree start >>= loadSettings readers tree =
            loadSettings readers tree file := by
  refine ⟨?_, ?_, fun start => exists_searchEnds readers tree _⟩
  · intro file
    cases file with
    | none => exact .inl ⟨{}, rfl, Settings.valid_default⟩
    | some path =>
      have hspec := loadFile_spec readers tree path
      split at hspec
      · next s hload => exact .inl ⟨s, hload, hspec⟩
      · next e hload =>
        refine .inr ⟨e, hload, hspec.imp e.isExpected_iff.mp ?_⟩
        rintro ⟨read, hread, h⟩
        exact ⟨path, read, rfl, hread, h⟩
  · intro path e
    constructor
    · rintro ⟨hload, hkind⟩
      have hspec := loadFile_spec readers tree path
      rw [show loadFile readers tree path = .error e from hload] at hspec
      exact hspec.resolve_left fun h => hkind (e.isExpected_iff.mp h)
    · rintro ⟨read, hread, h⟩
      refine ⟨h.loadFile hread, ?_⟩
      rw [Ne, ← e.isExpected_iff, h.not_expected]
      exact Bool.false_ne_true

namespace UnusableFile

/-- A directory with one file. -/
def tree (name : String) (read : FileRead) : Tree := .dir [(name, .file read)]

/-- The name of the kind of error with which loading from the file fails. -/
def loadKind (name : String) (read : FileRead) : Except String Settings :=
  (loadSettings .standard (tree name read) (some ⟨"/", [name]⟩)).mapError LoadError.kindName

/-- A text as bytes. -/
def bytes (text : String) : FileRead := .ok (text.toList.map fun c => c.toNat.toUInt8)

/-- Loading fails with errors that callers do not expect if a project file has a number in the place
of its tools, where the search fails, too, and if a settings file is no text or may not be read. -/
theorem files_fail_unexpectedly :
    loadKind "pyproject.toml" (bytes "tool = 1\n") = .error "AttributeError" ∧
      (findSettings .standard (tree "pyproject.toml" (bytes "tool = 1\n")) ⟨"/", []⟩).mapError
        LoadError.kindName = .error "AttributeError" ∧
      loadKind ".logctx.yml" (.ok [0x80]) = .error "UnicodeDecodeError" ∧
      loadKind ".logctx.yml" (.error ⟨.denied, "[Errno 13] Permission denied: '/.logctx.yml'", 0⟩) =
        .error "PermissionError" := by
  decide +kernel

end UnusableFile

end ContextLint
