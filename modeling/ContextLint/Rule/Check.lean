import ContextLint.Comment.Index
import ContextLint.Report.Basic
import ContextLint.Rule.Visit

/-!
# The rule

A call is reported if it emits an event, no context was injected in the chain it ends, the chain
starts from no name that carries one, and no directive on its lines names the rule.
-/

namespace ContextLint.Rule

open Source Fluent Typing Report

/-- What the rule knows of a module. -/
structure Analysis where
  settings : Settings
  /-- Types of the module. -/
  info : TypeInfo
  /-- Comments of the source text. -/
  comments : List Comment
  /-- Lines of the source text for display. -/
  lines : Array (List Char)
  /-- Name of the file. -/
  filename : String
  deriving Inhabited

/-- The longest excerpt shown. -/
def excerptLimit : Int := 160

namespace Analysis

/-- Collect what the rule needs to know. -/
def ofModule (m : Module) (source : List Char) (filename moduleName : String) (settings : Settings)
    (library : Library) : Except AnnotationError Analysis := do
  return {
    settings
    info := ← TypeInfo.ofModule m moduleName library
    comments := Comment.ofSource source
    lines := (Text.splitLines source).toArray
    filename }

variable (a : Analysis)

/-- What counts as a context. -/
def capability : Capability where
  typeName := a.settings.capabilityType
  methods := a.settings.capabilityMethods
  table := a.info.table

/-- The questions that can be asked about chains. -/
def inquiry : Inquiry where
  info := a.info
  capability := a.capability
  method := a.settings.injectionMethod
  builderType := a.settings.builderType
  producerType := a.settings.producerConfigType

/-- Lines on which a directive applies to a call: its first, the one before and that of its method.
-/
def directiveLines (func call : Expr) : List Int :=
  [(call.span.line : Int) - 1, call.span.line, func.span.endLine]

/-- A directive applies to the call. -/
def isSuppressed (func call : Expr) : Bool :=
  Comment.suppressedOn a.comments a.settings.suppressionKeyword.toList a.settings.ruleId.toList
    (directiveLines func call)

/-- The diagnostic on a call of the method. -/
def diagnostic (call : Expr) (method : String) : Diagnostic where
  file := a.filename
  line := call.span.line
  column := call.span.col + 1
  rule := a.settings.ruleId
  method := method
  message := a.settings.messageFor method
  snippet := Text.excerpt a.lines call.span.line excerptLimit

section

variable {m : Type → Type} [Monad m] (query : ChainQuery m)

/-- Judge a call: add a diagnostic if it emits an event without a context. -/
def judge (call : Expr) (t : Tracker) (found : List Diagnostic) : m (List Diagnostic) :=
  match call with
  | .call _ (.attr site receiver method) _ _ =>
    if a.info.hasType receiver a.settings.builderType && a.settings.terminalMethods.contains method
    then do
      if ← query.carries .builder receiver then return found
      else if t.covers a.settings receiver then return found
      else if a.isSuppressed (.attr site receiver method) call then return found
      else return a.diagnostic call method :: found
    else return found
  | _ => return found

/-- The visitor that applies the rule. -/
def visitor : Visitor m (List Diagnostic) where
  bind := Tracker.bind query a.info a.settings
  judge := a.judge query

/-- Diagnostics in the order in which the calls are visited. -/
def findings (module : Module) : m (List Diagnostic) := do
  return (← (a.visitor query).visitModule module []).reverse

end

/-- Diagnostics of a module by place. -/
def check (module : Module) : List Diagnostic :=
  (Id.run ((a.findings a.inquiry.remembering module).run {})).1.mergeSort Diagnostic.placeLe

end Analysis

/-- Apply the rule to a module. -/
def checkModule (m : Module) (source : List Char) (filename moduleName : String)
    (settings : Settings) (library : Library) : Except AnnotationError (List Diagnostic) := do
  return (← Analysis.ofModule m source filename moduleName settings library).check m

end ContextLint.Rule
