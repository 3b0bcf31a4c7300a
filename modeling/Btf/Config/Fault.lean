import Btf.Hint.Checker

/-!
# Why a configuration is refused

* `KeyLabel`: how messages speak of a key;
* `ConfigFault`, `ConfigFault.message`: what is wrong with a configuration or with a question to it.
-/

namespace Btf

/-- How messages speak of a key: by its full name, and with its help. -/
structure KeyLabel where
  name : Text
  help : Text
  deriving DecidableEq, Repr

/-- What is wrong with a configuration or with a question to it; a failure of a checker or of a validator
that says nothing of the value is `passed` on. -/
inductive ConfigFault
  | keyName (name : Text)
  | notAllowed (schema : Text) (key : Value) (allowed : List Text)
  | unhashable (key : Value.Unhashable)
  | noLayer (key : Text)
  | notInLayer (key layer : Text)
  | notMapping (schema : Text)
  | noEntries (value : Value)
  | wrongType (key : KeyLabel) (types : List Hint) (value : Value) (why : Text)
  | rejected (key : KeyLabel) (value : Value) (why : Text)
  | passed (failure : Failure)
  | notList (value : Value)
  | notDocument (value : Value)
  | noTopLevel (schema : Text)
  deriving Repr

namespace ConfigFault

def keyPattern : Text := "^[a-zA-Z0-9-]+$"

def message : ConfigFault → Text
  | keyName name => "Invalid key name \"" ++ name ++ "\". Key names must match: " ++ keyPattern
  | notAllowed schema key allowed =>
    "Key \"" ++ schema ++ "/" ++ key.shown ++ "\" is not allowed. Allowed keys are: " ++
      Text.joined ", " allowed
  | unhashable key => key.message
  | noLayer key => "Could not find any source for key \"" ++ key ++ "\""
  | notInLayer key layer =>
    "Key \"" ++ key ++ "\" is not available from source \"" ++ layer ++ "\""
  | notMapping schema => "Configuration of " ++ schema ++ " must be a Mapping"
  | noEntries v => "'" ++ (v.typeName : Text) ++ "' object has no attribute 'items'"
  | wrongType key types v why =>
    "Key \"" ++ key.name ++ "\" is an instance of " ++ v.typeLabel ++
      ", but should be instance of " ++ Text.joined " or " (types.map (Hint.label true)) ++ ": " ++
      why ++ ". Help: " ++ key.help
  | rejected key v why =>
    "Key \"" ++ key.name ++ "\" has an invalid value " ++ v.written ++ ": " ++ why ++ ". Help: " ++
      key.help
  | passed failure => failure.message
  | notList v => "'" ++ (v.typeName : Text) ++ "' object has no attribute 'append'"
  | notDocument v =>
    "Top-level object is expected to be a mapping but got: " ++ (v.typeName : Text)
  | noTopLevel schema => "Could not find top-level key \"" ++ schema ++ "\""

end ConfigFault

end Btf
