import Btf.Config.Fault
import Btf.Hint.Standard
import Btf.Text.Decoding
import Btf.Text.Paragraph

/-!
# Schemas of configurations

A schema names the keys that a configuration may have and says which values they take.

* `isKeyName`: what keys can be called;
* `Validator`: what a value has to be besides having the right type;
* `Key`, `Key.make`, `Key.validate`: a key and the values it takes;
* `Schema`, `Schema.make`, `Schema.lookup`, `Schema.validate`: the keys of a configuration;
* `Schema.helpText`: a schema explained.

Where two keys have one name, the later one counts, at the place of the earlier one.
-/

namespace Btf

/-- Letters, digits and hyphens. -/
def CodePoint.isKeyPoint (c : CodePoint) : Bool :=
  let n := c.val
  (97 ≤ n && n ≤ 122) || (65 ≤ n && n ≤ 90) || (48 ≤ n && n ≤ 57) || n == 45

/-- A key is called by a word, after which one line break may stand. -/
def isKeyName (name : Text) : Bool :=
  let word := if name.getLast? = some (charPoint '\n') then name.dropLast else name
  !word.isEmpty && word.all CodePoint.isKeyPoint

/-- What a value has to be besides having the right type: one at which the validator does not fail. -/
abbrev Validator := Value → Except Failure Unit

/-- The class that a fault in a name is told apart by. -/
def CodecFault.sort : CodecFault → FailureSort
  | nulInName | surrogates .. | undefinedCodec => .value
  | unknownCodec _ | notText _ | unknownHandler _ => .lookup
  | encodingOnly => .type
  | within _ fault => fault.sort

/-- A fault in a name as the failure of its lookup. -/
def CodecFault.failure (fault : CodecFault) : Failure where
  name := fault.category
  sort := fault.sort
  message := fault.message

/-- How messages speak of the type of an argument. -/
def Value.argumentLabel : Value → Text
  | null => "None"
  | timestamp t => (timestamp t).typeLabel
  | v => v.typeName

namespace Validator

/-- A value has to be a text that can be looked up by a function. -/
def ofLookup {α : Type} (function : String) (lookup : Text → Except CodecFault α) : Validator
  | .str name => do
    let _ ← (lookup name).mapError CodecFault.failure
  | v => .error (.ofType ((function : Text) ++ "() argument must be str, not " ++ v.argumentLabel))

/-- A value has to be the name of a codec. -/
def codec : Validator := ofLookup "lookup" Codec.lookup

/-- A value has to be the name of an error handler. -/
def handler : Validator := ofLookup "lookup_error" Handler.lookup

end Validator

/-- The failures by which a validator says that a value is invalid. -/
def Failure.isInvalid (failure : Failure) : Bool :=
  failure.sort == .value || failure.sort == .lookup

/-- A key, with the types its value may have, the checker that knows them, and what a value of these
types has to be besides, if anything. -/
structure Key where
  name : Text
  help : Text
  types : List Hint
  validator? : Option Validator := none
  checker : TypeChecker := .standard

instance : Repr Key := ⟨fun k => reprPrec (k.name, k.help, k.types)⟩

namespace Key

/-- A key that is called by a key name. -/
def make (k : Key) : Except ConfigFault Key :=
  if isKeyName k.name then .ok k else .error (.keyName k.name)

/-- How messages speak of a key of the schema with the given name. -/
def labelIn (schema : Text) (k : Key) : KeyLabel := ⟨schema ++ "/" ++ k.name, k.help⟩

/-- A value has one of the types of a key of the schema with the given name. -/
def validateType (schema : Text) (k : Key) (v : Value) : Except ConfigFault Unit :=
  (k.checker.checkType v (.anyOf .tuple k.types)).mapError fun failure =>
    if failure.sort = .type then .wrongType (k.labelIn schema) k.types v failure.message
    else .passed failure

/-- A value may be given to a key of the schema with the given name. -/
def validate (schema : Text) (k : Key) (v : Value) : Except ConfigFault Unit := do
  k.validateType schema v
  match k.validator? with
  | some validator => (validator v).mapError fun failure =>
    if failure.isInvalid then .rejected (k.labelIn schema) v failure.message else .passed failure
  | none => return ()

def helpWidth : Nat := 60

def helpText (k : Key) : Text :=
  "|- " ++ k.name ++ " (" ++ Text.joined " or " (k.types.map (Hint.label false)) ++ "): " ++
    Text.joined "\n" (k.help.fill (helpWidth - 1))

end Key

/-- The keys of a configuration. -/
structure Schema where
  name : Text
  help : Text
  keys : List Key
  deriving Repr

namespace Schema

/-- A schema that is itself called by a key name. -/
def make (name help : Text) (keys : List Key) : Except ConfigFault Schema := do
  let keys ← keys.mapM Key.make
  if isKeyName name then return { name, help, keys } else throw (.keyName name)

def find? (s : Schema) (name : Text) : Option Key := s.keys.reverse.find? fun k => k.name == name

/-- The names of the keys, each once, in their order. -/
def keyNames (s : Schema) : List Text :=
  s.keys.foldl (fun names k => if names.contains k.name then names else names ++ [k.name]) []

/-- The names of the keys in the order of their code points. -/
def allowed (s : Schema) : List Text := s.keyNames.mergeSort fun a b => !b.precedes a

/-- The key of a name, which has to be text; nothing without a hash is even looked up. -/
def lookup (s : Schema) (name : Value) : Except ConfigFault Key :=
  let refused := .error (.notAllowed s.name name s.allowed)
  match name with
  | .str t => match s.find? t with
    | some k => .ok k
    | none => refused
  | name => match name.digest? with
    | .ok _ => refused
    | .error u => .error (.unhashable u)

/-- A value may be given to the key of a name. -/
def validateKey (s : Schema) (name v : Value) : Except ConfigFault Unit := do
  (← s.lookup name).validate s.name v

/-- Entries have keys of the schema and values that these take. -/
def validateEntries (s : Schema) : List (Value × Value) → Except ConfigFault Unit
  | [] => .ok ()
  | (k, v) :: es => do
    s.validateKey k v
    validateEntries s es

/-- The entries of a value that is a mapping and may be used as a configuration. -/
def validate (s : Schema) (v : Value) : Except ConfigFault (List (Value × Value)) :=
  match v.entries? with
  | some es => (s.validateEntries es).map fun _ => es
  | none => .error (.notMapping s.name)

/-- **A schema explained.** -/
def helpText (s : Schema) : Text :=
  s.name ++ ": " ++ s.help ++ "\n" ++ Text.joined "\n" (s.keys.map Key.helpText)

end Schema

end Btf
