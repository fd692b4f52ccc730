import ContextLint.Text.Points

/-!
# Settings

The vocabulary that the rule checks against: which types are events, configurations and contexts,
and which methods emit, inject, start and finish. Sets of names are kept sorted and without
repetition. The two texts that only messages show are given by their code points, so that they may
hold half characters.
-/

namespace ContextLint

/-- What the rule looks for and how it reports. -/
structure Settings where
  /-- Name of the rule in reports and directives. -/
  ruleId : String := "logctx"
  /-- What the message speaks of. -/
  subject : List Nat := Text.points "zerolog"
  /-- Why the rule exists, as the message gives it. -/
  rationale : List Nat := Text.points "context should be included for proper log correlation"
  /-- Type of the event under construction. -/
  builderType : String := "zerolog.Event"
  /-- Type of the logger configuration under construction. -/
  producerConfigType : String := "zerolog.Context"
  /-- Methods that emit an event. -/
  terminalMethods : List String := ["msg", "msg_func", "msgf", "send"]
  /-- The method that adds the context. -/
  injectionMethod : String := "ctx"
  /-- Methods that start an event. -/
  producingMethods : List String :=
    ["debug", "err", "error", "fatal", "info", "log", "panic", "print", "trace", "warn"]
  /-- The method that turns a configuration into a logger. -/
  finalizingMethod : String := "logger"
  /-- Type of the context. -/
  capabilityType : String := "context.Context"
  /-- Methods that make any type count as a context. -/
  capabilityMethods : List String := ["deadline", "done", "err", "value"]
  /-- Word that starts a directive. -/
  suppressionKeyword : String := "nolint"
  /-- Code under which the style checker lists the rule. -/
  flake8Code : String := "LCX001"
  deriving DecidableEq, Repr, Inhabited

/-- Text of a report on a call of the given method. -/
def Settings.messageFor (s : Settings) (method : String) : List Nat :=
  s.subject ++
    Text.points (" event missing ." ++ s.injectionMethod ++ "(ctx) before " ++ method ++ "() - ") ++
    s.rationale

end ContextLint
