import ContextLint.Proofs.Files.Discover
import ContextLint.Proofs.Rule.Reported
import ContextLint.Proofs.Scan.Visits

/-!
# What becomes of each file

Every visit of a scan ends in exactly one way: the file is checked and all its diagnostics are
reported, or it is skipped, or the analysis fails. The last two give one entry and no diagnostic.
What the report says on a file depends on the content of that file alone.
-/

namespace ContextLint

open Files Report Source

variable {read : FileRead} {name : String} {o : FileOutcome}

namespace FileVisit

/-- The file can be read and holds the text, whose line ends are unified. -/
def Reads (v : FileVisit) (tree : Tree) (source : List Char) : Prop :=
  ∃ content chars, tree.read? v.file = some (.ok content) ∧ Text.decode content = .ok chars ∧
    Text.unifyNewlines chars = source

/-- How a visit ends. -/
inductive Ends (v : FileVisit) (characters : CharacterNames) (tree : Tree) (settings : Settings) :
    FileOutcome → Prop where
  | unreadable {fault} (hread : tree.read? v.file = some (.error fault)) :
      Ends v characters tree settings (.skipped ("unreadable: " ++ fault.message))
  | undecodable {content fault} (hread : tree.read? v.file = some (.ok content))
      (hdecode : Text.decode content = .error fault) :
      Ends v characters tree settings (.skipped ("unreadable: " ++ fault.message))
  | nullCharacter {source} (hreads : v.Reads tree source) (hnull : '\x00' ∈ source) :
      Ends v characters tree settings (.failed ("ValueError: " ++ nullSourceMessage))
  | malformed {source fault} (hreads : v.Reads tree source)
      (hnull : '\x00' ∉ source) (hparse : parseModule characters source = .error fault) :
      Ends v characters tree settings (.skipped ("syntax error: line " ++ toString fault.line))
  | failed {source m name e} (hreads : v.Reads tree source) (hnull : '\x00' ∉ source)
      (hparse : parseModule characters source = .ok m)
      (hname : moduleOfPath v.file v.base = .ok name)
      (hcheck : Rule.checkModule m source v.file.text name settings .standard = .error e) :
      Ends v characters tree settings (.failed (e.kindName ++ ": " ++ e.message))
  | checked {source m name ds} (hreads : v.Reads tree source) (hnull : '\x00' ∉ source)
      (hparse : parseModule characters source = .ok m)
      (hname : moduleOfPath v.file v.base = .ok name)
      (hcheck : Rule.checkModule m source v.file.text name settings .standard = .ok ds) :
      Ends v characters tree settings (.checked ds)

variable {v : FileVisit} {characters : CharacterNames} {tree : Tree} {settings : Settings}

private theorem outcome_of_read (hread : tree.read? v.file = some read) :
    v.outcome characters tree settings = checkRead characters read v.file.text
      ((moduleOfPath v.file v.base).toOption.getD v.file.stem) settings := by
  rw [outcome, hread, Option.getD_some]

private theorem outcome_of_undecodable {content : List UInt8} {fault : Text.DecodeFault}
    (hread : tree.read? v.file = some (.ok content))
    (hdecode : Text.decode content = .error fault) :
    v.outcome characters tree settings = .skipped ("unreadable: " ++ fault.message) := by
  rw [outcome_of_read hread, checkRead, hdecode]

variable {source : List Char}

private theorem outcome_of_reads (hreads : v.Reads tree source) :
    v.outcome characters tree settings = checkSource characters source v.file.text
      ((moduleOfPath v.file v.base).toOption.getD v.file.stem) settings := by
  obtain ⟨content, chars, hread, hdecode, rfl⟩ := hreads
  rw [outcome_of_read hread, checkRead, hdecode]

/-- A text with a null character fails. -/
theorem outcome_of_null (hreads : v.Reads tree source) (hnull : '\x00' ∈ source) :
    v.outcome characters tree settings = .failed ("ValueError: " ++ nullSourceMessage) := by
  have hread : readModule characters source = .error .nullCharacter := if_pos (by simpa using hnull)
  rw [outcome_of_reads hreads, checkSource, hread]

/-- The outcome for a text without null characters is that of parsing and checking it. -/
theorem outcome_of_parsed (hreads : v.Reads tree source) (hnull : '\x00' ∉ source)
    (hname : moduleOfPath v.file v.base = .ok name) :
    v.outcome characters tree settings =
      match parseModule characters source with
      | .error fault => .skipped ("syntax error: line " ++ toString fault.line)
      | .ok m =>
        match Rule.checkModule m source v.file.text name settings .standard with
        | .error e => .failed (e.kindName ++ ": " ++ e.message)
        | .ok ds => .checked ds := by
  have hread : readModule characters source =
      (parseModule characters source).mapError .malformed := if_neg (by simpa using hnull)
  rw [outcome_of_reads hreads, checkSource, hread, hname]
  cases parseModule characters source <;> rfl

/-- A visit to a file that is there and has a name ends, and in one way only. -/
theorem ends_iff (hread : tree.read? v.file = some read)
    (hname : moduleOfPath v.file v.base = .ok name) :
    v.Ends characters tree settings o ↔ o = v.outcome characters tree settings := by
  constructor
  · intro h
    cases h with
    | unreadable hread => rw [outcome_of_read hread, checkRead]
    | undecodable hread hdecode => exact (outcome_of_undecodable hread hdecode).symm
    | nullCharacter hreads hnull => exact (outcome_of_null hreads hnull).symm
    | malformed hreads hnull hparse => rw [outcome_of_parsed hreads hnull hname, hparse]
    | failed hreads hnull hparse hname hcheck | checked hreads hnull hparse hname hcheck =>
      rw [outcome_of_parsed hreads hnull hname, hparse]
      dsimp only
      rw [hcheck]
  · rintro rfl
    cases read with
    | error fault =>
      rw [outcome_of_read hread, checkRead]
      exact .unreadable hread
    | ok content =>
      cases hdecode : Text.decode content with
      | error fault =>
        rw [outcome_of_undecodable hread hdecode]
        exact .undecodable hread hdecode
      | ok chars =>
        have hreads : v.Reads tree (Text.unifyNewlines chars) :=
          ⟨content, chars, hread, hdecode, rfl⟩
        by_cases hnull : '\x00' ∈ Text.unifyNewlines chars
        · rw [outcome_of_null hreads hnull]
          exact .nullCharacter hreads hnull
        · rw [outcome_of_parsed hreads hnull hname]
          cases hparse : parseModule characters (Text.unifyNewlines chars) with
          | error fault => exact .malformed hreads hnull hparse
          | ok m =>
            dsimp only
            cases hcheck : Rule.checkModule m (Text.unifyNewlines chars) v.file.text name settings
                .standard with
            | error e => exact .failed hreads hnull hparse hname hcheck
            | ok ds => exact .checked hreads hnull hparse hname hcheck

end FileVisit

variable {cwd : Path} {paths : List Path} {v : FileVisit}

private theorem mem_visits {tree : Tree} :
    v ∈ visits tree cwd paths ↔ ∃ path ∈ paths, v.file ∈ discover tree [Path.resolve cwd path] ∧
      v.base = baseOf tree (Path.resolve cwd path) := by
  obtain ⟨file, base⟩ := v
  simp only [visits, rootVisits, List.mem_flatMap, List.mem_map, FileVisit.mk.injEq]
  constructor
  · rintro ⟨path, hpath, file, hfile, rfl, rfl⟩
    exact ⟨path, hpath, hfile, rfl⟩
  · rintro ⟨path, hpath, hfile, rfl⟩
    exact ⟨path, hpath, file, hfile, rfl, rfl⟩

/-- A path strictly below a directory names a module. -/
theorem exists_moduleOfPath {p base : Path} {rest : List String} (hanchor : p.anchor = base.anchor)
    (hparts : p.parts = base.parts ++ rest) (hne : rest ≠ []) (hrest : ∀ name ∈ rest, name ≠ "") :
    ∃ name, moduleOfPath p base = .ok name := by
  have hrel : p.relativeTo? base = some { anchor := "", parts := rest } := by
    simp [Path.relativeTo?, hanchor, hparts]
  have hname : (Path.name { anchor := "", parts := rest }).isEmpty = false := by
    have hlast := hrest _ (List.getLast_mem hne)
    rw [Path.name, List.getLastD_eq_getLast?, List.getLast?_eq_some_getLast hne]
    simpa using hlast
  rw [moduleOfPath, hrel, Option.getD_some, hname]
  exact ⟨_, rfl⟩

/-- A scan of a file system visits files that are there, and each has a module name. -/
theorem FileSystem.exists_of_mem_visits {fs : FileSystem} (hv : v ∈ visits fs.tree cwd paths) :
    fs.HasFile v.file ∧ ∃ name, moduleOfPath v.file v.base = .ok name := by
  obtain ⟨file, base⟩ := v
  obtain ⟨path, -, hfile, rfl⟩ := mem_visits.mp hv
  have hhas := FileSystem.hasFile_of_mem_discover hfile
  refine ⟨hhas, ?_⟩
  have hroot := Path.parent_not_mem_resolve cwd path
  simp only [mem_discover, List.mem_singleton, exists_eq_left] at hfile
  obtain ⟨rest, read, hfile, hbelow, hrest⟩ := FileSystem.exists_of_mem_filesOf hroot hfile
  have hnames : ∀ name ∈ file.parts, name ≠ "" := fun name hname => (hhas.names name hname).ne_empty
  by_cases hisFile : fs.tree.isFile (Path.resolve cwd path) = true
  · -- The root is the file itself, whose module is named from the directory that it stands in.
    have hself : file = Path.resolve cwd path := by rw [hfile, hrest.mpr hisFile, List.append_nil]
    have hne : file.parts ≠ [] := by
      intro hnil
      rw [hnil] at hbelow
      cases hbelow
    have hsplit : file.parts = file.parts.dropLast ++ [file.parts.getLast hne] :=
      (List.dropLast_append_getLast hne).symm
    rw [baseOf, if_pos hisFile, ← hself]
    refine exists_moduleOfPath rfl hsplit (List.cons_ne_nil _ _) ?_
    intro name hname
    rw [List.mem_singleton.mp hname]
    exact hnames _ (List.getLast_mem hne)
  · have hne : rest ≠ [] := by
      intro hnil
      exact hisFile (hrest.mp hnil)
    rw [baseOf, if_neg hisFile]
    apply exists_moduleOfPath _ _ hne
    · intro name hname
      apply hnames name
      rw [hfile]
      exact List.mem_append_right _ hname
    · rw [hfile]
    · rw [hfile]

variable {file : String} {i : FileIssue}

namespace FileOutcome

/-- Every outcome is accounted for once. -/
theorem accounted (o : FileOutcome) (file : String) :
    (o.skips file).length + (o.failures file).length + (if o.isChecked then 1 else 0) = 1 := by
  cases o <;> rfl

private theorem file_of_mem_skips (h : i ∈ o.skips file) : i.file = file := by
  cases o <;> simp_all [skips]

private theorem file_of_mem_failures (h : i ∈ o.failures file) : i.file = file := by
  cases o <;> simp_all [failures]

end FileOutcome

variable {m : Module} {source : List Char} {filename moduleName : String} {settings : Settings}
  {library : Typing.Library} {ds : List Diagnostic}

/-- A module that is checked is analysed, under the name of its file. -/
theorem Rule.exists_of_checkModule_ok
    (h : checkModule m source filename moduleName settings library = .ok ds) :
    ∃ a, Analysis.ofModule m source filename moduleName settings library = .ok a ∧
      a.filename = filename ∧ ds = a.check m := by
  cases ha : Analysis.ofModule m source filename moduleName settings library with
  | error e =>
    rw [checkModule, ha] at h
    cases h
  | ok a =>
    rw [checkModule_of_ok ha] at h
    obtain ⟨info, -, rfl⟩ := Analysis.eq_of_ofModule ha
    exact ⟨_, rfl, rfl, (Except.ok.inj h).symm⟩

variable {d : Diagnostic}

/-- The diagnostics of a module name its file. -/
theorem Rule.file_of_mem_checkModule
    (h : checkModule m source filename moduleName settings library = .ok ds) (hd : d ∈ ds) :
    d.file = filename := by
  obtain ⟨a, -, hfile, rfl⟩ := exists_of_checkModule_ok h
  rw [Analysis.check_eq_reported, List.mem_mergeSort] at hd
  obtain ⟨c, -, rfl⟩ := List.mem_map.mp hd
  exact hfile

/-- The diagnostics of a file name it. -/
theorem file_of_mem_checkRead {characters : CharacterNames}
    (h : d ∈ (checkRead characters read file name settings).diagnostics) : d.file = file := by
  unfold checkRead at h
  split at h
  · cases h
  · split at h
    · cases h
    · unfold checkSource at h
      split at h
      · cases h
      · cases h
      · split at h
        · cases h
        · next ds hcheck => exact Rule.file_of_mem_checkModule hcheck h

/-- What a report says on the files of some names. -/
def Report.about (r : Report) (named : String → Bool) : Report :=
  { r with
    diagnostics := r.diagnostics.filter fun d => named d.file
    skipped := r.skipped.filter fun i => named i.file
    errors := r.errors.filter fun i => named i.file }

/-- Where all that an element contributes is kept or dropped together, whole elements are. -/
private theorem filter_flatMap_eq {α β : Type} {l : List α} {f : α → List β} {p : β → Bool}
    {q : α → Bool} (h : ∀ a ∈ l, ∀ b ∈ f a, p b = q a) :
    (l.flatMap f).filter p = (l.filter q).flatMap f := by
  induction l with
  | nil => rfl
  | cons a l ih =>
    rw [List.forall_mem_cons] at h
    rw [List.flatMap_cons, List.filter_append, ih h.2]
    cases hq : q a with
    | true =>
      rw [List.filter_cons_of_pos hq, List.flatMap_cons, List.filter_eq_self.mpr]
      intro b hb
      rw [h.1 b hb, hq]
    | false =>
      rw [List.filter_cons_of_neg (by simp [hq]), List.filter_eq_nil_iff.mpr, List.nil_append]
      intro b hb
      simp [h.1 b hb, hq]

/-- What a report says on some files is what it would say if only these were visited. -/
theorem scan_about (characters : CharacterNames) (tree : Tree) (cwd : Path) (paths : List Path)
    (settings : Settings) (createdAt : String) (named : String → Bool) :
    (scan characters tree cwd paths settings createdAt).about named =
      { createdAt
        filesScanned := (visits tree cwd paths).length
        diagnostics := (((visits tree cwd paths).filter fun v => named v.file.text).flatMap fun v =>
          (v.outcome characters tree settings).diagnostics).mergeSort Diagnostic.le
        skipped := ((visits tree cwd paths).filter fun v => named v.file.text).flatMap fun v =>
          (v.outcome characters tree settings).skips v.file.text
        errors := ((visits tree cwd paths).filter fun v => named v.file.text).flatMap fun v =>
          (v.outcome characters tree settings).failures v.file.text } := by
  have hle := Diagnostic.le_iff
  rw [scan_eq, Report.about, filter_mergeSort (trans_of_key hle) (total_of_key hle)]
  congr 1
  · congr 1
    apply filter_flatMap_eq
    intro v _ d hd
    rw [file_of_mem_checkRead hd]
  · apply filter_flatMap_eq
    intro v _ i hi
    rw [FileOutcome.file_of_mem_skips hi]
  · apply filter_flatMap_eq
    intro v _ i hi
    rw [FileOutcome.file_of_mem_failures hi]

/-- Every visit is checked or has an entry. -/
theorem length_accounted (visited : List FileVisit) (outcome : FileVisit → FileOutcome) :
    (visited.flatMap fun v => (outcome v).skips v.file.text).length +
        (visited.flatMap fun v => (outcome v).failures v.file.text).length +
        (visited.countP fun v => (outcome v).isChecked) = visited.length := by
  induction visited with
  | nil => rfl
  | cons v visited ih =>
    have hv := (outcome v).accounted v.file.text
    rw [List.flatMap_cons, List.flatMap_cons, List.length_append, List.length_append,
      List.countP_cons, List.length_cons]
    omega

/-- Every visit of a scan ends in exactly one way, and the report collects how the visits end: the
checked files with all their diagnostics, the others with one entry and no diagnostic. So checked,
skipped and failed files add up to the files scanned. What the report says on some files stays the
same whatever the other files hold. -/
theorem visits_end_apart (characters : CharacterNames) (fs : FileSystem) (cwd : Path)
    (paths : List Path) (settings : Settings) (createdAt : String) :
    ∃ outcome : FileVisit → FileOutcome,
      (∀ v ∈ visits fs.tree cwd paths, ∀ o, v.Ends characters fs.tree settings o ↔ o = outcome v) ∧
      (scan characters fs.tree cwd paths settings createdAt).Collects (visits fs.tree cwd paths)
        outcome ∧
      (scan characters fs.tree cwd paths settings createdAt).filesScanned =
        (scan characters fs.tree cwd paths settings createdAt).skipped.length +
          (scan characters fs.tree cwd paths settings createdAt).errors.length +
          ((visits fs.tree cwd paths).countP fun v => (outcome v).isChecked) ∧
      ∀ (fs' : FileSystem) (named : String → Bool),
        visits fs'.tree cwd paths = visits fs.tree cwd paths →
        (∀ v ∈ visits fs.tree cwd paths, named v.file.text = true →
          fs'.tree.read? v.file = fs.tree.read? v.file) →
        (scan characters fs'.tree cwd paths settings createdAt).about named =
          (scan characters fs.tree cwd paths settings createdAt).about named := by
  have hcollects := scan_collects characters fs.tree settings cwd paths createdAt
  refine ⟨fun v => v.outcome characters fs.tree settings, ?_, hcollects, ?_, ?_⟩
  · intro v hv o
    obtain ⟨hfile, name, hname⟩ := FileSystem.exists_of_mem_visits hv
    obtain ⟨read, hread⟩ := hfile.read
    exact FileVisit.ends_iff hread hname
  · have hlength := length_accounted (visits fs.tree cwd paths) fun v =>
      v.outcome characters fs.tree settings
    rw [hcollects.counted, hcollects.skipped, hcollects.errors]
    dsimp only
    omega
  · intro fs' named hvisits hread
    have hsame : ∀ v ∈ (visits fs.tree cwd paths).filter fun v => named v.file.text,
        v.outcome characters fs'.tree settings = v.outcome characters fs.tree settings := by
      intro v hv
      obtain ⟨hvisit, hnamed⟩ := List.mem_filter.mp hv
      rw [FileVisit.outcome, FileVisit.outcome, hread v hvisit hnamed]
    have hpart {β : Type} (part : FileVisit → FileOutcome → List β) :
        (((visits fs.tree cwd paths).filter fun v => named v.file.text).flatMap fun v =>
            part v (v.outcome characters fs'.tree settings)) =
          ((visits fs.tree cwd paths).filter fun v => named v.file.text).flatMap fun v =>
            part v (v.outcome characters fs.tree settings) := by
      apply List.flatMap_congr
      intro v hv
      rw [hsame v hv]
    rw [scan_about, scan_about, hvisits]
    congr 1
    · exact congrArg (List.mergeSort · Diagnostic.le) (hpart fun _ => FileOutcome.diagnostics)
    · exact hpart fun v o => o.skips v.file.text
    · exact hpart fun v o => o.failures v.file.text

namespace BrokenNeighbour

/-- A directory with a file that holds a name, a file that is read like this, and a file that is no
text. -/
def system (read : FileRead) : FileSystem where
  entries := [("a.py", .file (.ok [120, 10])), ("b.py", .file read), ("c.py", .file (.ok [0x80]))]
  wellFormed := by
    refine .dir (by simp) ?_ (by simp [Tree.WellFormed.file])
    simp only [List.forall_mem_cons]
    decide

/-- A file in the middle that may not be read, one that is no module, and one that is. -/
def denied : FileSystem :=
  system (.error ⟨.denied, "[Errno 13] Permission denied: '/b.py'", 2⟩)

@[inherit_doc denied]
def malformed : FileSystem := system (.ok [40])

@[inherit_doc denied]
def sound : FileSystem := system (.ok [121, 10])

def top : Path := ⟨"/", []⟩

def files : List Path := [⟨"", ["a.py"]⟩, ⟨"", ["b.py"]⟩, ⟨"", ["c.py"]⟩]

/-- Whether the file in the middle can be read and parsed or not, all three are visited and the
other two are told of in the same way. -/
theorem neighbours_told_alike :
    (∀ broken ∈ [denied, malformed],
      visits broken.tree top files = visits sound.tree top files ∧
        (scan default broken.tree top files {} "").about (· != "/b.py") =
          (scan default sound.tree top files {} "").about (· != "/b.py") ∧
        (scan default broken.tree top files {} "").skipped.map FileIssue.file =
          ["/b.py", "/c.py"]) ∧
      (scan default denied.tree top files {} "").skipped.head? =
        some ⟨"/b.py", "unreadable: [Errno 13] Permission denied: '/b.py'"⟩ ∧
      (scan default sound.tree top files {} "").skipped.map FileIssue.file = ["/c.py"] := by
  have hvisits : ∀ broken ∈ [denied, malformed],
      visits broken.tree top files = visits sound.tree top files := by
    decide +kernel
  have hread : ∀ broken ∈ [denied, malformed], ∀ v ∈ visits sound.tree top files,
      (v.file.text != "/b.py") = true → broken.tree.read? v.file = sound.tree.read? v.file := by
    decide +kernel
  have hskipped : ∀ broken ∈ [denied, malformed],
      (scan default broken.tree top files {} "").skipped.map FileIssue.file =
        ["/b.py", "/c.py"] := by
    decide +kernel
  obtain ⟨_, -, -, -, hapart⟩ := visits_end_apart default sound top files {} ""
  refine ⟨?_, by decide +kernel, by decide +kernel⟩
  intro broken hbroken
  exact ⟨hvisits broken hbroken,
    hapart broken (· != "/b.py") (hvisits broken hbroken) (hread broken hbroken),
    hskipped broken hbroken⟩

end BrokenNeighbour

end ContextLint
