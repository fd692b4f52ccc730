import ContextLint.Files.Path

/-!
# File trees

A file tree holds files and directories with named entries. Of a file it holds the content, or why
it cannot be read.
-/

namespace ContextLint.Files

/-- Kinds of errors of the operating system. -/
inductive ReadFaultKind where
  | denied
  | other
  deriving DecidableEq, Repr, Inhabited

/-- Name of the kind of error. -/
def ReadFaultKind.name : ReadFaultKind → String
  | denied => "PermissionError"
  | other => "OSError"

/-- Why a file cannot be read. -/
structure ReadFault where
  kind : ReadFaultKind
  message : String
  /-- Size of the file in bytes, which is known all the same. -/
  size : Nat
  deriving DecidableEq, Repr, Inhabited

/-- What comes of reading a file. -/
abbrev FileRead := Except ReadFault (List UInt8)

/-- Size of a file in bytes. -/
def FileRead.size : FileRead → Nat
  | .ok content => content.length
  | .error fault => fault.size

/-- A file or directory. -/
inductive Tree where
  | file (read : FileRead)
  | dir (entries : List (String × Tree))

instance : Inhabited Tree := ⟨.dir []⟩

namespace Tree

/-- What a name stands for in a directory. -/
def named? (name : String) : Tree → Option Tree
  | file _ => none
  | dir entries => entries.lookup name

/-- Follow names downwards; a double dot goes back to the directory before. -/
def follow (above : List Tree) (here : Tree) : List String → Option Tree
  | [] => some here
  | name :: rest =>
    match here with
    | file _ => none
    | dir entries =>
      if name = ".." then
        match above with
        | [] => follow [] here rest
        | up :: above => follow above up rest
      else
        match entries.lookup name with
        | some next => follow (here :: above) next rest
        | none => none

/-- What a path stands for in the tree of the whole file system. -/
def find? (t : Tree) (p : Path) : Option Tree := follow [] t p.parts

/-- Read the file of a path. -/
def read? (t : Tree) (p : Path) : Option FileRead :=
  match t.find? p with
  | some (file read) => some read
  | _ => none

/-- The path is that of a file. -/
def isFile (t : Tree) (p : Path) : Bool := (t.read? p).isSome

/-- The path is that of a directory. -/
def isDir (t : Tree) (p : Path) : Bool :=
  match t.find? p with
  | some (dir _) => true
  | _ => false

/-- Replace or add an entry. -/
def setEntry (name : String) (value : Tree) : List (String × Tree) → List (String × Tree)
  | [] => [(name, value)]
  | (n, t) :: rest => if n = name then (n, value) :: rest else (n, t) :: setEntry name value rest

/-- Put a file or directory at the end of a list of names, with the directories on the way. -/
def insert (value : Tree) : List String → Tree → Tree
  | [], _ => value
  | name :: rest, t =>
    let entries := match t with
      | dir entries => entries
      | file _ => []
    dir (setEntry name (insert value rest ((entries.lookup name).getD (dir []))) entries)

end Tree

end ContextLint.Files
