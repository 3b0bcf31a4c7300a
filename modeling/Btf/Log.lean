import Btf.Component
import Btf.Decode.Layout
import Btf.Value.Written

/-!
# The log

Opening a file, setting up a configuration and decoding leave messages in a log. What happens is
said by events; a line of the log is what an event looks like.

* `Event`, `Event.line`: what is logged and its line;
* `Logged`: a computation that may fail and logs what it does either way;
* `Logged.note`, `Logged.lift`, `Logged.mapError`: how such computations are made;
* **`Logged.run_bind`**: the log of two computations is that of the first followed by that of the
  second.
-/

namespace Btf

/-- A noteworthy step. -/
inductive Event
  | layerAdded (config layer : Text) (entries : List (Value × Value))
  | unmappable (path reason : Text)
  | opened (path : Text) (size : Nat) (mapped : Bool)
  | layoutFound (layout : Layout)
  | decoded (count : Nat)
  deriving Repr

namespace Event

def headerFields (h : Header) : List (String × Int) :=
  [("magic", h.magic), ("version", h.version), ("flags", h.flags), ("hdr_len", h.headerSize),
    ("type_off", h.typeOffset), ("type_len", h.typeSize), ("str_off", h.stringOffset),
    ("str_len", h.stringSize)]

def headerText (h : Header) : Text :=
  "BTFHeader(" ++
    Text.joined ", " ((headerFields h).map fun (name, n) => name ++ "=" ++ Text.decimal n) ++ ")"

def logger : Event → Text
  | layerAdded config _ _ => "btfdecode.conf." ++ config
  | unmappable _ _ | opened _ _ _ => Component.logger "FileReader" []
  | layoutFound _ | decoded _ => Component.logger "BTF" []

def message : Event → Text
  | layerAdded _ layer entries =>
    "Setting source \"" ++ layer ++ "\": " ++ (Value.map entries).written
  | unmappable path reason =>
    "Could not map " ++ path ++ ", reading it instead: " ++ reason
  | opened path size mapped =>
    "Opened " ++ path ++ " (" ++ Text.decimal size ++ " bytes, mmap=" ++ (Value.bool mapped).written
      ++ ")"
  | layoutFound layout =>
    "BTF blob is " ++ (layout.order.name : Text) ++ " endian, header: " ++ headerText layout.header
  | decoded count => "Decoded " ++ Text.decimal count ++ " BTF types"

def line (e : Event) : Text := "DEBUG " ++ e.logger ++ ": " ++ e.message

end Event

/-- A computation that may fail and logs what it does either way. -/
abbrev Logged (ε α : Type) := ExceptT ε (StateM (List Event)) α

namespace Logged

variable {ε ε' α β : Type}

/-- The outcome of a computation and the log so far with its events at the end. -/
def run (m : Logged ε α) (log : List Event) : Except ε α × List Event := m log

/-- The outcome of a computation and its events. -/
def result (m : Logged ε α) : Except ε α × List Event := m.run []

/-- The outcome of a computation. -/
def outcome (m : Logged ε α) : Except ε α := m.result.1

/-- Log an event. -/
def note (e : Event) : Logged ε Unit := fun log => (.ok (), log ++ [e])

/-- A computation that logs nothing. -/
def lift (r : Except ε α) : Logged ε α := fun log => (r, log)

/-- A computation whose failures are seen as `f` says. -/
def mapError (f : ε → ε') (m : Logged ε α) : Logged ε' α := fun log =>
  match m.run log with
  | (.ok a, log) => (.ok a, log)
  | (.error e, log) => (.error (f e), log)

/-- **The second of two computations logs after the first.** -/
theorem run_bind (m : Logged ε α) (f : α → Logged ε β) (log : List Event) :
    (m >>= f).run log = match m.run log with
      | (.ok a, log) => (f a).run log
      | (.error e, log) => (.error e, log) := by
  show (match m log with
      | (r, log) => (ExceptT.bindCont f r) log) = _
  unfold run
  rcases m log with ⟨r | r, log⟩ <;> rfl

end Logged

end Btf
