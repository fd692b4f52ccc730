import ContextLint.Files.Tree
import ContextLint.Settings.Validate
import ContextLint.Text.Lines
import ContextLint.Toml.Document
import ContextLint.Yaml.Construct

/-!
# Settings files

Settings come from a section of a project file in TOML, or from a YAML file of their own. A search
goes upwards from a path and takes the first YAML file, or the first project file that has the
section. Dashes in the names of settings count as underscores. How the two kinds of documents are
read is left to the caller.
-/

namespace ContextLint

open Data Files

/-- How the documents in settings files are read. -/
structure SettingsReaders where
  /-- The entries of a TOML document; nothing if it is malformed. -/
  toml : List Char → Option (List (Value × Value))
  /-- The value of a YAML document. -/
  yaml : List Char → Except Yaml.Fault Value

/-- The readers of this library. -/
def SettingsReaders.standard : SettingsReaders := ⟨Toml.parse, Yaml.parse⟩

/-- Why settings cannot be loaded. The last five are failures that a caller does not expect. -/
inductive LoadError where
  | notFound (path : Path)
  /-- The file is malformed. -/
  | unparsable (path : Path)
  /-- The section of a project file is no table. -/
  | sectionNotTable (path : Path)
  /-- A YAML file holds something other than a mapping. -/
  | notMapping (path : Path)
  /-- The section of a YAML file is no mapping. -/
  | sectionNotMapping (path : Path)
  | invalid (path : Path) (issues : List SettingIssue)
  | unreadable (fault : ReadFault)
  | undecodable (fault : Text.DecodeFault)
  /-- The table of tools is a value of another kind. -/
  | toolsNotTable (kind : String)
  /-- The name of a setting is a value that is no text. -/
  | nameNotText (name : Value)
  /-- A scalar is no value of its type. -/
  | badScalar (kind : Yaml.FaultKind) (message : String)
  deriving Inhabited

/-- Name of the section. -/
def sectionName : String := "logctx"

/-- Name of a project file. -/
def projectFileName : String := "pyproject.toml"

/-- Names of settings files, the preferred one first. -/
def settingsFileNames : List String := [".logctx.yml", ".logctx.yaml"]

namespace LoadError

/-- Kind and text of the error for a name that is no text. -/
def nameError : Value → String × String
  | .moment _ => ("TypeError", "'str' object cannot be interpreted as an integer")
  | .bytes _ => ("TypeError", "a bytes-like object is required, not 'str'")
  | v => ("AttributeError", "'" ++ v.kindName ++ "' object has no attribute 'replace'")

/-- Name of the kind of error. -/
def kindName : LoadError → String
  | unreadable fault => fault.kind.name
  | undecodable _ => "UnicodeDecodeError"
  | toolsNotTable _ => "AttributeError"
  | nameNotText v => (nameError v).1
  | badScalar kind _ => kind.name
  | _ => "ConfigError"

/-- A caller expects the error and reports it. -/
def isExpected : LoadError → Bool
  | unreadable _ | undecodable _ | toolsNotTable _ | nameNotText _ | badScalar .. => false
  | _ => true

/-- One issue as a line. -/
def issueText (i : SettingIssue) : String := i.setting ++ " - " ++ i.fault.message

/-- The error as text. -/
def message : LoadError → String
  | notFound path => "config file not found: " ++ path.text
  | unparsable path => "cannot parse " ++ path.text ++ ": malformed document"
  | sectionNotTable path => "[tool." ++ sectionName ++ "] in " ++ path.text ++ " must be a table"
  | notMapping path => path.text ++ " must contain a mapping"
  | sectionNotMapping path => "'" ++ sectionName ++ "' in " ++ path.text ++ " must be a mapping"
  | invalid path issues =>
    "invalid configuration in " ++ path.text ++ ": " ++ "; ".intercalate (issues.map issueText)
  | unreadable fault => fault.message
  | undecodable fault => fault.message
  | toolsNotTable kind => "'" ++ kind ++ "' object has no attribute 'get'"
  | nameNotText v => (nameError v).2
  | badScalar _ message => message

end LoadError

/-- The text of a file. -/
def textOfFile (read : FileRead) : Except LoadError (List Char) :=
  read.mapError .unreadable >>= fun content => (Text.decode content).mapError .undecodable

variable (readers : SettingsReaders)

/-- The section of a project file, if it has one. -/
def projectSection (path : Path) (read : FileRead) :
    Except LoadError (Option (List (Value × Value))) := do
  match readers.toml (← textOfFile read) with
  | none => throw (.unparsable path)
  | some entries =>
    match (Value.find? "tool" entries).getD (.map []) with
    | .map tools =>
      match Value.find? sectionName tools with
      | none => return none
      | some (.map entries) => return some entries
      | some _ => throw (.sectionNotTable path)
    | v => throw (.toolsNotTable v.kindName)

/-- The section of a YAML file, or all of it if it has no such section; nothing if it is empty. -/
def yamlSection (path : Path) (read : FileRead) :
    Except LoadError (Option (List (Value × Value))) := do
  match readers.yaml (Text.unifyNewlines (← textOfFile read)) with
  | .error .malformed => throw (.unparsable path)
  | .error (.value kind message) => throw (.badScalar kind message)
  | .ok .null => return none
  | .ok (.map entries) =>
    match Value.find? sectionName entries with
    | none => return some entries
    | some (.map entries) => return some entries
    | some _ => throw (.sectionNotMapping path)
  | .ok _ => throw (.notMapping path)

/-- The name of a setting with underscores for dashes. -/
def settingName (name : String) : String :=
  String.ofList (name.toList.map fun c => if c = '-' then '_' else c)

/-- The text of a key; a broken one is no setting's name. -/
def keyText? : Value → Option String
  | .str name => some name
  | .brokenText points => some (Text.lossy points)
  | _ => none

/-- Named values of a section, the last of one name in the place of the first. -/
def namedValues : List (Value × Value) → List (String × Value) →
    Except LoadError (List (String × Value))
  | [], found => .ok found
  | (key, v) :: rest, found =>
    match keyText? key with
    | some name => namedValues rest (Value.insertEntry (settingName name) v found)
    | none => .error (.nameNotText key)

/-- Load settings from a file of the tree. -/
def loadFile (tree : Tree) (path : Path) : Except LoadError Settings := do
  match tree.read? path with
  | none => throw (.notFound path)
  | some read =>
    match ← (if path.suffix == ".toml" then projectSection readers path read
        else yamlSection readers path read) with
    | none => return {}
    | some entries =>
      match Settings.ofValues (← namedValues entries []) with
      | .ok s => return s
      | .error issues => throw (.invalid path issues)

/-- Load settings from a file if there is one. -/
def loadSettings (tree : Tree) : Option Path → Except LoadError Settings
  | none => .ok {}
  | some path => loadFile readers tree path

/-- The settings file of a directory, if it has one. -/
def settingsFileIn (tree : Tree) (dir : Path) : Except LoadError (Option Path) := do
  match (settingsFileNames.map dir.child).find? tree.isFile with
  | some path => return some path
  | none =>
    let project := dir.child projectFileName
    match tree.read? project with
    | none => return none
    | some read => return (← projectSection readers project read).map fun _ => project

/-- The first settings file among directories. -/
def firstSettingsFile (tree : Tree) : List Path → Except LoadError (Option Path)
  | [] => .ok none
  | dir :: rest => do
    match ← settingsFileIn readers tree dir with
    | some path => return some path
    | none => firstSettingsFile tree rest

/-- The settings file that applies to an absolute path: the first one upwards from it. -/
def findSettings (tree : Tree) (start : Path) : Except LoadError (Option Path) :=
  firstSettingsFile readers tree (if tree.isDir start then start else start.parent).upward

end ContextLint
