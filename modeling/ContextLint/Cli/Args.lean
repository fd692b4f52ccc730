/-!
# Command line arguments

Options may stand anywhere among the paths, up to a double dash. A value follows its option as the
next argument, behind an equals sign after a long name, or directly after a short one. Short options
without a value may be run together. Of several values for one option the last counts.
-/

namespace ContextLint.Cli

/-- The options. -/
inductive Opt where
  | format
  | config
  | output
  | verbose
  | version
  | help
  deriving DecidableEq, Repr, Inhabited

/-- The option takes a value. -/
def Opt.takesValue : Opt → Bool
  | format | config | output => true
  | verbose | version | help => false

/-- Long names of options. -/
def longNames : List (String × Opt) :=
  [("--format", .format), ("--config", .config), ("--output", .output), ("--verbose", .verbose),
   ("--version", .version), ("--help", .help)]

/-- Short names of options. -/
def shortNames : List (Char × Opt) :=
  [('f', .format), ('c', .config), ('o', .output), ('v', .verbose)]

/-- What the arguments say. -/
structure Args where
  /-- The paths, the last first. -/
  paths : List String := []
  format : Option String := none
  /-- The settings file. -/
  config : Option String := none
  /-- The file for the report. -/
  output : Option String := none
  verbose : Bool := false
  /-- The first option that prints something and stops. -/
  stop : Option Opt := none
  deriving DecidableEq, Repr, Inhabited

namespace Args

/-- Set an option with a value. -/
def setValue (a : Args) (value : String) : Opt → Args
  | .format => { a with format := some value }
  | .config => { a with config := some value }
  | .output => { a with output := some value }
  | _ => a

/-- Set an option without a value. -/
def setFlag (a : Args) : Opt → Args
  | .verbose => { a with verbose := true }
  | .version => { a with stop := a.stop.or (some .version) }
  | .help => { a with stop := a.stop.or (some .help) }
  | _ => a

/-- Add a path. -/
def addPath (a : Args) (path : String) : Args := { a with paths := path :: a.paths }

/-- An option whose value may be the next argument; says whether that argument was taken. -/
def setNext (a : Args) (o : Opt) : Option String → Option (Args × Bool)
  | some value => some (a.setValue value o, true)
  | none => none

/-- Read a long option; says whether the next argument was taken. -/
def long (a : Args) (name : String) (value next : Option String) : Option (Args × Bool) :=
  match longNames.lookup name with
  | none => none
  | some o =>
    if o.takesValue then
      match value with
      | some v => some (a.setValue v o, false)
      | none => a.setNext o next
    else if value.isSome then none
    else some (a.setFlag o, false)

/-- Read short options that are run together; says whether the next argument was taken. -/
def short (a : Args) (next : Option String) : List Char → Option (Args × Bool)
  | [] => some (a, false)
  | c :: rest =>
    match shortNames.lookup c with
    | none => none
    | some o =>
      if o.takesValue then
        if rest.isEmpty then a.setNext o next
        else some (a.setValue (String.ofList rest) o, false)
      else short (a.setFlag o) next rest

/-- Read an option; says whether the next argument was taken. -/
def option (a : Args) (arg : List Char) (next : Option String) : Option (Args × Bool) :=
  match arg with
  | '-' :: '-' :: _ =>
    let name := arg.takeWhile (· ≠ '=')
    let value := if arg.contains '=' then some (String.ofList (arg.drop (name.length + 1))) else none
    a.long (String.ofList name) value next
  | _ => a.short next (arg.drop 1)

/-- The argument is an option. -/
def isOption (arg : List Char) : Bool :=
  match arg with
  | '-' :: _ :: _ => true
  | _ => false

/-- Read arguments; `skip` says that the first was taken as a value. -/
def read (a : Args) (skip : Bool) : List String → Option Args
  | [] => some a
  | arg :: rest =>
    if skip then read a false rest
    else if arg = "--" then some (rest.foldl addPath a)
    else if isOption arg.toList then
      match a.option arg.toList rest.head? with
      | some (a, taken) => read a taken rest
      | none => none
    else read (a.addPath arg) false rest

end Args

/-- What the arguments say; nothing if they are not understood. -/
def parseArgs (args : List String) : Option Args :=
  (Args.read {} false args).map fun a => { a with paths := a.paths.reverse }

end ContextLint.Cli
