import ContextLint.Cli.Args
import ContextLint.Report.Format
import ContextLint.Scan
import ContextLint.Settings.Load

/-!
# The command

The command scans the given paths with the settings that apply to the first of them, or those of a
given file, and prints the report or writes it to a file. It ends with code 3 if something was
found, 1 if the settings or the output file cannot be used, and 2 if the arguments make no sense.
-/

namespace ContextLint.Cli

open Files Report

/-- Version of the command. -/
def version : String := "0.1.0"

/-- Name of the command. -/
def commandName : String := "main"

/-- A failure that is not reported as a message. -/
structure Failure where
  kind : String
  message : String
  deriving DecidableEq, Repr, Inhabited

/-- What the command does. -/
structure Outcome where
  exitCode : Nat
  /-- What it prints. -/
  stdout : String := ""
  /-- Lines that it prints as messages. -/
  stderr : List String := []
  /-- The file that it writes. -/
  written : Option (Path × String) := none
  /-- The failure that ends it. -/
  failure : Option Failure := none
  deriving Inhabited

/-- The arguments make no sense. -/
def usageError : Outcome where
  exitCode := 2

/-- A checked request. -/
structure Request where
  /-- The paths, absolute. -/
  paths : List Path
  format : Format
  /-- The settings file, absolute. -/
  config : Option Path
  /-- The output file, absolute. -/
  output : Option Path
  deriving Inhabited

/-- Summary of the options. -/
def helpText : String :=
  "Usage: " ++ commandName ++ " [OPTIONS] PATHS...\n\n" ++
    "  Report zerolog events finished without .ctx(ctx) in Python sources.\n\n" ++
    "Options:\n" ++
    "  -f, --format [json|md|text]  Output format (default: text).\n" ++
    "  -c, --config FILE            Config file (pyproject.toml or .logctx.yml).\n" ++
    "                               Searched upward from the first path by default.\n" ++
    "  -o, --output PATH            Output file path. Defaults to stdout.\n" ++
    "  -v, --verbose                Verbose logging.\n" ++
    "  --version                    Show the version and exit.\n" ++
    "  --help                       Show this message and exit.\n"

/-- Reading the file is not permitted. -/
def isDenied (tree : Tree) (path : Path) : Bool :=
  match tree.read? path with
  | some (.error fault) => fault.kind == .denied
  | _ => false

/-- Check the arguments against the file tree: all paths must exist, the settings file must not be a
directory, and all files that are named must be permitted to read. -/
def request? (tree : Tree) (cwd : Path) (a : Args) : Option Request := do
  let format ← Format.ofName? (a.format.getD Format.text.name)
  let locate (s : String) : Path := Path.resolve cwd (Path.ofString s)
  let paths := a.paths.map locate
  let config := a.config.map locate
  let output := a.output.map locate
  if paths.isEmpty || paths.any (fun p => (tree.find? p).isNone) || config.any tree.isDir ||
      (paths ++ config.toList ++ output.toList).any (isDenied tree) then none
  else some { paths, format, config, output }

/-- Settings of a request: those of the given file, or those that apply to the first path. -/
def Request.settings (r : Request) (tree : Tree) : Except LoadError Settings :=
  match r.config with
  | some path => loadFile .standard tree path
  | none => (findSettings .standard tree (r.paths.headD {})).bind (loadSettings .standard tree)

/-- Why a file cannot be written. -/
def writeFailure? (tree : Tree) (path : Path) : Option Failure :=
  if tree.isDir path then some ⟨"IsADirectoryError", path.text⟩
  else if path.upward.any fun p => p ≠ path && tree.isFile p then
    some ⟨"NotADirectoryError", path.text⟩
  else if tree.isDir path.parent then none
  else some ⟨"FileNotFoundError", path.text⟩

/-- Hand out the text of a report. A file is emptied before the text turns out not to be writable.
-/
def deliver (tree : Tree) (output : Option Path) (points : List Nat) (exitCode : Nat) : Outcome :=
  let failure := (Text.surrogates? points).map fun f => ⟨"UnicodeEncodeError", f.message⟩
  let text := Text.lossy points
  match output with
  | none =>
    if failure.isSome then { exitCode := 1, failure }
    else { exitCode, stdout := if text.isEmpty then "" else text ++ "\n" }
  | some path =>
    match writeFailure? tree path with
    | some failure => { exitCode := 1, failure := some failure }
    | none =>
      if failure.isSome then { exitCode := 1, failure, written := some (path, "") }
      else
        { exitCode, stderr := ["Report written to " ++ path.text],
          written := some (path, text ++ "\n") }

/-- The names of characters that the command knows. It has no table of them and takes every name for
that of the replacement character. -/
def characterNames : Source.CharacterNames := fun name =>
  if name.all fun c => c.isAlphanum || c == ' ' || c == '-' then some 0xFFFD else none

/-- Carry out a request. -/
def Request.run (r : Request) (characters : Source.CharacterNames) (tree : Tree) (cwd : Path)
    (time : String) : Outcome :=
  match r.settings tree with
  | .error e =>
    if e.isExpected then { exitCode := 1, stderr := ["Error: " ++ e.message] }
    else { exitCode := 1, failure := some ⟨e.kindName, e.message⟩ }
  | .ok settings =>
    let report := scan characters tree cwd r.paths settings time
    match r.format.render report with
    | .error e => { exitCode := 1, failure := some ⟨"ValueError", e.message⟩ }
    | .ok points => deliver tree r.output points (if report.passed then 0 else 3)

/-- Run the command in a directory of the file tree. -/
def run (characters : Source.CharacterNames) (tree : Tree) (cwd : Path) (args : List String)
    (time : String) : Outcome :=
  match parseArgs args with
  | none => usageError
  | some a =>
    match a.stop with
    | some .help => { exitCode := 0, stdout := helpText }
    | some _ => { exitCode := 0, stdout := commandName ++ ", version " ++ version ++ "\n" }
    | none =>
      match request? tree cwd a with
      | none => usageError
      | some r => r.run characters tree cwd time

end ContextLint.Cli
