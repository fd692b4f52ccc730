import ContextLint.Files.Tree

/-!
# Finding source files

A path that names a file stands for that file, whatever its name. A directory stands for the Python
files below it that are not too large and not inside an ignored directory, in the order of their
names level by level. No file is listed twice.
-/

namespace ContextLint.Files

/-- Names of directories that are passed over. -/
def ignoredNames : List String :=
  [".git", ".hg", "__pycache__", "node_modules", "venv", ".venv", "env", ".tox", ".mypy_cache",
   ".pytest_cache", ".ruff_cache", "dist", "build", ".eggs", ".nox", ".ipynb_checkpoints"]

/-- The directory is passed over. -/
def isIgnored (name : String) : Bool :=
  ignoredNames.contains name || name.endsWith ".egg-info"

/-- The largest size of a file found in a directory, in bytes. -/
def maxFileSize : Nat := 2 * 1024 * 1024

/-- The name is that of a Python file. -/
def isPythonName (name : String) : Bool := name.endsWith ".py"

/-- Results of entries in the order of the entries' names. -/
def byName (results : List (String × List (List String))) : List (List String) :=
  (results.mergeSort fun a b => a.1 ≤ b.1).flatMap Prod.snd

mutual

/-- The Python files below a directory, each as the names that lead to it. -/
def filesBelow : Tree → List (List String)
  | .file _ => []
  | .dir entries => byName (entryFiles entries)

/-- The Python files of entries, by the entries' names. -/
def entryFiles : List (String × Tree) → List (String × List (List String))
  | [] => []
  | (name, .file read) :: rest =>
    (name, if isPythonName name && read.size ≤ maxFileSize then [[name]] else []) ::
      entryFiles rest
  | (name, .dir entries) :: rest =>
    (name, if isIgnored name then [] else (filesBelow (.dir entries)).map (name :: ·)) ::
      entryFiles rest

end

/-- The files that one path stands for. -/
def filesOf (t : Tree) (root : Path) : List Path :=
  match t.find? root with
  | some (.file _) => [root]
  | some (.dir entries) =>
    (filesBelow (.dir entries)).map fun parts => { root with parts := root.parts ++ parts }
  | none => []

/-- Add the files that are not listed yet. -/
def addNew (found : List Path) : List Path → List Path
  | [] => found
  | p :: rest => addNew (if found.contains p then found else found ++ [p]) rest

/-- The files that several paths stand for. -/
def discover (t : Tree) (paths : List Path) : List Path :=
  paths.foldl (fun found root => addNew found (filesOf t root)) []

end ContextLint.Files
