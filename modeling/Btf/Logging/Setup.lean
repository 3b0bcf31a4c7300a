import Btf.Logging.Reference
import Btf.Source.File
import Btf.Text.Decoding

/-!
# Setting up logging

Logging is set up with a level, or from a file that says more. Handlers that were there before are
removed, and what has been set up by the time something fails stays.

* `LogLevel.ofValue`: the number of a level;
* `LogHandler`, `LogState`: what is set up;
* `LogFault`: why setting up fails;
* `LogState.ofLevel`, `LogState.ofSections`, `LogState.setup`: **logging set up**.
-/

namespace Btf

/-- Why setting up logging fails. -/
inductive LogFault
  | unknownLevel (name : Text)
  | noLevel (v : Value)
  | noFile
  | missing (name : Text)
  | noRoot
  | handlerKind (line : Nat)
  | reference (fault : ReferenceFault)
  | file (fault : SectionsFault)
  | undecodable
  deriving Repr

def LogFault.message : LogFault → Text
  | unknownLevel name => "Unknown level: " ++ name.quoted
  | noLevel v => "Level not an integer or a valid string: " ++ v.written
  | noFile => []
  | missing name => name.quoted
  | noRoot => "list.remove(x): x not in list"
  | handlerKind line => "invalid syntax (<string>, line " ++ Text.decimal line ++ ")"
  | reference fault => fault.message
  | file _ => []
  | undecodable => []

namespace LogLevel

def names : List (String × Int) :=
  [("CRITICAL", 50), ("FATAL", 50), ("ERROR", 40), ("WARN", 30), ("WARNING", 30), ("INFO", 20),
    ("DEBUG", 10), ("NOTSET", 0)]

def info : Int := 20

/-- The level that is set before anything is set up. -/
def warning : Int := 30

def ofName (name : Text) : Except LogFault Int :=
  match name.toString?.bind fun s => names.lookup s with
  | some n => .ok n
  | none => .error (.unknownLevel name)

/-- The number of a level, given by number or by name. -/
def ofValue (v : Value) : Except LogFault Int :=
  match v, v.whole? with
  | .str name, _ => ofName name
  | _, some n => .ok n
  | v, none => .error (.noLevel v)

end LogLevel

/-- A handler: what kind it is, from which level on it writes, and how. -/
structure LogHandler where
  kind : Text := "StreamHandler"
  level : Int := 0
  format : Option Text
  deriving DecidableEq, Repr

/-- The level and the handlers of the root of all logs. -/
structure LogState where
  level : Int := LogLevel.warning
  handlers : List LogHandler := []
  deriving DecidableEq, Repr

namespace LogState

/-- How a line of the log is written if only a level is given. -/
def lineFormat : Text := "[%(asctime)s][%(name)s] %(levelname)s  %(message)s"

/-- How a line of the log is written if a formatter does not say. -/
def plainFormat : Text := "%(message)s"

/-- Set up one handler and a level; the handler stays if the level is unknown. -/
def ofLevel (level : Value) : Except LogFault Unit × LogState :=
  let s : LogState := { handlers := [{ format := some lineFormat }] }
  match LogLevel.ofValue level with
  | .ok n => (.ok (), { s with level := n })
  | .error fault => (.error fault, s)

def namesIn (t : Text) : List Text :=
  if t.isEmpty then [] else (t.splitOn (charPoint ',')).map Text.trimmed

def optional (s : Sections) (name option : Text) : Except LogFault (Option Text) :=
  (s.get? name option).mapError .reference

/-- The value of an option that has to be there. -/
def required (s : Sections) (name option : Text) : Except LogFault Text := do
  if !s.has name then throw (.missing name)
  else
    match ← optional s name option with
    | some v => return v
    | none => throw (.missing option)

/-- The format of a formatter; nothing is put into it. -/
def formatOf (s : Sections) (name : Text) : Except LogFault Text :=
  if !s.has name then .error (.missing name)
  else
    match s.raw? name "format" with
    | none | some [] => .ok plainFormat
    | some format => .ok format

def formatters (s : Sections) : Except LogFault (List (Text × Text)) := do
  let names := namesIn (← required s "formatters" "keys")
  names.mapM fun n => do return (n, ← formatOf s ("formatter_" ++ n))

/-- The level that a section states, or another one. -/
def levelIn (s : Sections) (name : Text) (otherwise : Int) : Except LogFault Int := do
  match ← optional s name "level" with
  | some l => LogLevel.ofName l
  | none => return otherwise

/-- The kind of a handler is written in one line; otherwise the number of the first line after it
that is not empty is told. -/
def checkKind (kind : Text) : Except LogFault Unit :=
  match (kind.splitOn (charPoint '\n')).tail with
  | [] => .ok ()
  | rest => .error (.handlerKind ((rest.takeWhile List.isEmpty).length + 2))

def handler (s : Sections) (formats : List (Text × Text)) (n : Text) :
    Except LogFault LogHandler := do
  let name := "handler_" ++ n
  let kind ← required s name "class"
  let formatter := (← optional s name "formatter").getD []
  checkKind kind
  let level ← levelIn s name 0
  match formatter with
  | [] => return { kind, level, format := none }
  | f => match formats.lookup f with
    | some format => return { kind, level, format := some format }
    | none => throw (.missing f)

/-- The handlers that sections describe, by name; the root has to be among the logs. -/
def describedHandlers (s : Sections) : Except LogFault (List (Text × LogHandler)) := do
  let formats ← formatters s
  let handlers ← (namesIn (← required s "handlers" "keys")).mapM fun n => do
    return (n, ← handler s formats n)
  let logs := ((← required s "loggers" "keys").splitOn (charPoint ',')).map Text.trimmed
  if logs.contains "root" then return handlers else throw .noRoot

/-- Attach the handlers of the names in a list, up to the first name that has none. -/
def attach (handlers : List (Text × LogHandler)) :
    List Text → LogState → Except LogFault Unit × LogState
  | [], s => (.ok (), s)
  | n :: names, s => match handlers.lookup n with
    | some h => attach handlers names { s with handlers := s.handlers ++ [h] }
    | none => (.error (.missing n), s)

/-- The level and the handlers that sections state for the root. -/
def ofSections (s : Sections) : Except LogFault Unit × LogState :=
  let root : Text := "logger_root"
  let start : LogState := { level := LogLevel.info }
  let read : Except LogFault (List (Text × LogHandler) × Int) := do
    let handlers ← describedHandlers s
    if s.has root then return (handlers, ← levelIn s root LogLevel.info)
    else throw (.missing root)
  match read with
  | .error fault => (.error fault, start)
  | .ok (handlers, level) =>
    match required s root "handlers" with
    | .error fault => (.error fault, { start with level })
    | .ok names => attach handlers (namesIn names) { start with level }

/-- The name of the file that is used if none is given. -/
def defaultPath : Text := "logging.conf"

/-- A file for the root and for the logs of this library. -/
def defaultFile : String :=
  "[loggers]\nkeys=root,btfdecode\n\n[handlers]\nkeys=consoleHandler\n\n[formatters]\n" ++
    "keys=simpleFormatter\n\n[logger_root]\nlevel=INFO\nhandlers=consoleHandler\n\n" ++
    "[logger_btfdecode]\nqualname=btfdecode\nlevel=INFO\nhandlers=consoleHandler\npropagate=0\n\n" ++
    "[handler_consoleHandler]\nclass=StreamHandler\nlevel=DEBUG\nformatter=simpleFormatter\n" ++
    "args=(sys.stderr,)\n\n[formatter_simpleFormatter]\n" ++
    "format=[%(asctime)s][%(name)s] %(levelname)s  %(message)s\ndatefmt=\n"

/-- Set up logging from the text of a file. -/
def ofText (t : Text) : Except LogFault Unit × LogState :=
  match Sections.parse t with
  | .error fault => (.error (.file fault), { level := LogLevel.info })
  | .ok sections => ofSections sections

/-- **Set up logging** with a level or, if that is null, from a file in a directory. -/
def setup (folder : Folder) (level : Value) (path : Text) : Except LogFault Unit × LogState :=
  match level with
  | .null =>
    match folder.find path with
    | .error _ => (.error .noFile, { level := LogLevel.info })
    | .ok bytes =>
      match Text.decode "utf-8" "strict" bytes.toList with
      | .ok t => ofText t
      | .error _ => (.error .undecodable, { level := LogLevel.info })
  | level => ofLevel level

end LogState

end Btf
