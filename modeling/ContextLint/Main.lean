import ContextLint.Cli.Run
import Std.Time.Format

/-!
# The program

The program reads the part of the file system that a run can look at, runs the command on it, and
prints or writes what comes out. That part holds everything below the given paths, the settings
files in the directories around them, and the two files that options name.
-/

namespace ContextLint.Cli

open Files

/-- The path is that of a directory. -/
def isDirectory (path : String) : IO Bool := do ((← IO.currentDir) / path).isDir

/-- Why reading a file of a size failed. -/
def readFault (path : String) (size : Nat) : IO.Error → ReadFault
  | .permissionDenied _ code details =>
    ⟨.denied, "[Errno " ++ toString code ++ "] " ++ details ++ ": '" ++ path ++ "'", size⟩
  | e => ⟨.other, toString e, size⟩

/-- Read a file; nothing if there is none. -/
def readFile? (path : String) : IO (Option Tree) := do
  match ← ((← IO.currentDir) / path).metadata.toBaseIO with
  | .error _ => return none
  | .ok info =>
    let read ← (IO.FS.readBinFile path).toBaseIO
    return some (.file (match read with
      | .ok content => .ok content.toList
      | .error e => .error (readFault path info.byteSize.toNat e)))

/-- Read a file or a directory with all that is in it; ignored directories stay empty. -/
partial def readTree? (path : String) : IO (Option Tree) := do
  if ← isDirectory path then
    let mut entries := []
    for e in ← ((← IO.currentDir) / path).readDir do
      if isIgnored e.fileName && (← e.path.isDir) then
        entries := (e.fileName, .dir []) :: entries
      else if let some t ← readTree? (path ++ "/" ++ e.fileName) then
        entries := (e.fileName, t) :: entries
    return some (.dir entries)
  else readFile? path

/-- Add what was found at a path, if nothing stands there yet. -/
def addFound (tree : Tree) (path : Path) : Option Tree → Tree
  | some t => if (tree.find? path).isSome then tree else Tree.insert t path.parts tree
  | none => tree

/-- Add a path without looking into directories. -/
def addShallow (tree : Tree) (path : Path) : IO Tree := do
  if ← isDirectory path.text then return addFound tree path (some (.dir []))
  else return addFound tree path (← readFile? path.text)

/-- Read the part of the file system that a run with these arguments can look at. -/
def readWorld (cwd : Path) (a : Args) : IO Tree := do
  let locate (s : String) : Path := Path.resolve cwd (Path.ofString s)
  let paths := a.paths.map locate
  let mut tree := Tree.dir []
  for path in paths do
    tree := addFound tree path (← readTree? path.text)
  for dir in paths.flatMap Path.upward do
    for name in projectFileName :: settingsFileNames do
      tree ← addShallow tree (dir.child name)
  for path in (a.config.toList ++ a.output.toList).map locate do
    tree ← addShallow tree path.parent
    tree ← addShallow tree path
  return tree

/-- Print and write what a run gives. -/
def perform (o : Outcome) : IO UInt32 := do
  IO.print o.stdout
  if let some (path, text) := o.written then IO.FS.writeFile path.text text
  for line in o.stderr do IO.eprintln line
  if let some f := o.failure then IO.eprintln (f.kind ++ ": " ++ f.message)
  if o.exitCode = usageError.exitCode then IO.eprint helpText
  return o.exitCode.toUInt32

/-- The present time in universal time. -/
def timeText : IO String := do
  let now := Std.Time.DateTime.ofTimestamp (← Std.Time.Timestamp.now) Std.Time.TimeZone.ZoneRules.UTC
  return now.format "uuuu-MM-dd'T'HH:mm:ss.SSSSSSxxx"

end ContextLint.Cli

open ContextLint in
/-- Run the command with the given arguments. -/
def main (args : List String) : IO UInt32 := do
  let cwd := Files.Path.ofString (← IO.currentDir).toString
  let tree ← Cli.readWorld cwd ((Cli.parseArgs args).getD {})
  Cli.perform (Cli.run Cli.characterNames tree cwd args (← Cli.timeText))
