import Btf.Text

/-!
# The muted log

While an object is being torn down nothing is logged: every function of the logging facility may
then be called and does nothing, and every other name in it has no value.

* `Muted`, `Muted.get?`: what the muted log has under a name.
-/

namespace Btf

/-- What the muted log has under a name. -/
inductive Muted
  | function
  | value
  deriving DecidableEq, Repr

namespace Muted

def functions : List String :=
  ["BufferingFormatter", "FileHandler", "Filter", "Filterer", "Formatter", "GenericAlias",
    "Handler", "LogRecord", "Logger", "LoggerAdapter", "Manager", "NullHandler", "PercentStyle",
    "PlaceHolder", "RootLogger", "StrFormatStyle", "StreamHandler", "StringTemplateStyle",
    "Template", "_StderrHandler", "_acquireLock", "_addHandlerRef",
    "_after_at_fork_child_reinit_locks", "_checkLevel", "_is_internal_frame", "_logRecordFactory",
    "_loggerClass", "_register_at_fork_reinit_lock", "_releaseLock", "_removeHandlerRef",
    "_showwarning", "addLevelName", "basicConfig", "captureWarnings", "critical", "currentframe",
    "debug", "disable", "error", "exception", "fatal", "getLevelName", "getLevelNamesMapping",
    "getLogRecordFactory", "getLogger", "getLoggerClass", "info", "log", "makeLogRecord",
    "setLogRecordFactory", "setLoggerClass", "shutdown", "warn", "warning"]

/-- The other names of the logging facility. -/
def values : List String :=
  ["BASIC_FORMAT", "CRITICAL", "DEBUG", "ERROR", "FATAL", "INFO", "NOTSET", "WARN", "WARNING",
    "_STYLES", "_at_fork_reinit_lock_weakset", "_defaultFormatter", "_defaultLastResort",
    "_handlerList", "_handlers", "_levelToName", "_lock", "_nameToLevel", "_srcfile", "_startTime",
    "_str_formatter", "_warnings_showwarning", "atexit", "collections", "config", "handlers", "io",
    "lastResort", "logMultiprocessing", "logProcesses", "logThreads", "os", "raiseExceptions", "re",
    "root", "sys", "threading", "time", "traceback", "warnings", "weakref"]

/-- What the muted log has under a name. -/
def get? (name : Text) : Option Muted :=
  match name.toString? with
  | none => none
  | some s =>
    if functions.contains s then some function
    else if values.contains s then some value
    else none

/-- A name that is not there, in words. -/
def missing (name : Text) : Text := "module 'logging' has no attribute '" ++ name ++ "'"

end Muted

end Btf
