import ContextLint.NameMap
import ContextLint.Typing.TypeRef

/-!
# Classes and libraries

A class is known by its bases, its methods and the types of its attributes and method results. A
library lists modules, classes, functions and globals by qualified name; the analysed code imports
them, the analyser never does. The standard library describes a fluent logging interface and the
context it should carry.
-/

namespace ContextLint.Typing

/-- What is known of a class. -/
structure ClassInfo where
  /-- The qualified name. -/
  qualname : String
  /-- Qualified names of the bases, in order. -/
  bases : List String := []
  methods : List String := []
  /-- Declared result types of methods. -/
  returns : NameMap TypeRef := []
  /-- Declared types of attributes. -/
  attributes : NameMap TypeRef := []
  deriving Repr, Inhabited

/-- Known modules, classes, functions and globals, by qualified name. -/
structure Library where
  modules : List String := []
  classes : NameMap ClassInfo := []
  /-- Functions with their result types, where known. -/
  functions : NameMap (Option TypeRef) := []
  /-- Variables of modules. -/
  globals : NameMap TypeRef := []
  deriving Inhabited

namespace Library

/-- The event under construction. -/
def eventType : String := "zerolog.Event"

/-- The logger, which starts events. -/
def loggerType : String := "zerolog.Logger"

/-- The logger configuration under construction. -/
def loggerContextType : String := "zerolog.Context"

/-- The context that events should carry. -/
def contextType : String := "context.Context"

/-- The console writer. -/
def consoleWriterType : String := "zerolog.ConsoleWriter"

/-- Event methods that add a field and return the event. -/
def eventFieldMethods : List String :=
  ["ctx", "str", "strs", "int", "int64", "float", "bool", "err", "errs", "timestamp", "time",
   "dur", "any", "interface", "fields", "dict", "caller", "stack", "bytes", "hex", "ip_addr",
   "func", "discard"]

/-- Event methods that emit the event. -/
def eventTerminalMethods : List String := ["msg", "msgf", "msg_func", "send"]

/-- Logger methods that start an event. -/
def levelMethods : List String :=
  ["trace", "debug", "info", "warn", "error", "fatal", "panic", "log", "print", "err"]

/-- Logger methods that return a logger. -/
def loggerSelfMethods : List String := ["level", "output", "sample", "hook"]

/-- Configuration methods that add a field and return the configuration. -/
def contextFieldMethods : List String :=
  ["ctx", "str", "strs", "int", "float", "bool", "err", "timestamp", "caller", "fields", "dict",
   "any", "interface", "stack"]

/-- Methods of the context. -/
def contextMethods : List String := ["deadline", "done", "err", "value"]

/-- The methods all return an instance of the owner. -/
def chained (owner : String) (names : List String) : NameMap TypeRef :=
  names.map fun n => (n, instanceOf owner)

/-- The event class. -/
def event : ClassInfo where
  qualname := eventType
  methods := eventFieldMethods ++ eventTerminalMethods ++ ["enabled"]
  returns := chained eventType eventFieldMethods ++ [("enabled", builtin "bool")]

/-- The logger class. -/
def logger : ClassInfo where
  qualname := loggerType
  methods := levelMethods ++ loggerSelfMethods ++ ["with_", "printf", "get_level"]
  returns := chained eventType levelMethods ++ chained loggerType loggerSelfMethods ++
    [("with_", instanceOf loggerContextType)]

/-- The logger configuration class. -/
def loggerContext : ClassInfo where
  qualname := loggerContextType
  methods := contextFieldMethods ++ ["logger"]
  returns := chained loggerContextType contextFieldMethods ++ [("logger", instanceOf loggerType)]

/-- The console writer class. -/
def consoleWriter : ClassInfo where
  qualname := consoleWriterType
  methods := ["write"]

/-- The context class. -/
def context : ClassInfo where
  qualname := contextType
  methods := contextMethods

/-- The library that is known unless another is given. -/
def standard : Library where
  modules := ["zerolog", "zerolog.log", "context"]
  classes := [event, logger, loggerContext, consoleWriter, context].map fun c => (c.qualname, c)
  functions :=
    [("zerolog.new", some (instanceOf loggerType)),
     ("zerolog.nop", some (instanceOf loggerType)),
     ("zerolog.new_console_writer", some (instanceOf consoleWriterType)),
     ("zerolog.log.with_", some (instanceOf loggerContextType)),
     ("zerolog.log.level", some (instanceOf loggerType)),
     ("zerolog.log.output", some (instanceOf loggerType)),
     ("zerolog.log.sample", some (instanceOf loggerType)),
     ("zerolog.log.printf", none),
     ("context.background", some (instanceOf contextType)),
     ("context.todo", some (instanceOf contextType)),
     ("context.with_value", some (instanceOf contextType)),
     ("context.without_cancel", some (instanceOf contextType))] ++
    levelMethods.map fun level => ("zerolog.log." ++ level, some (instanceOf eventType))
  globals := [("zerolog.log.logger", instanceOf loggerType)]

/-- The library names the module. -/
def isModule (l : Library) (qualname : String) : Bool := l.modules.contains qualname

/-- Add the entries of another library, which override those of the same name. -/
def extend (l other : Library) : Library where
  modules := l.modules ++ other.modules
  classes := l.classes.update other.classes
  functions := l.functions.update other.functions
  globals := l.globals.update other.globals

end Library

end ContextLint.Typing
