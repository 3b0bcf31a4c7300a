import Btf.Text

/-!
# Components

The parts of the decoder by the names under which messages, logs and help texts speak of them. A
component is filed under an area; a name that is filed nowhere stands for itself.

* `Component.area?`: the area of a component;
* `Component.qualified`: the name of a component with its area;
* `Component.logger`, `Component.logger?`: the name of the log of a component.
-/

namespace Btf.Component

def areas : List (String × List String) :=
  [("btfdecode.btf",
      ["BTF", "BTFError", "BTFErrorCode", "BTFHeader", "BTFIntEncoding", "BTFKind", "BTFTypeHeader",
        "FileRange", "BTFType", "BTFInt", "BTFPtr", "BTFConst", "BTFVolatile", "BTFArray",
        "BTFTypedef", "BTFMember", "BTFStruct", "BTFUnion", "BTFEnumerator", "BTFEnum",
        "BTFForwardDecl", "BTFFunc", "BTFParam", "BTFFuncProto"]),
    ("btfdecode.conf",
      ["BTFParserConf", "ConfigKeyError", "KeyDesc", "KeyDescBase", "SimpleConf", "TopLevelKeyDesc",
        "TopLevelKeyError"]),
    ("btfdecode.reader",
      ["FileReader", "FileReaderError", "FileReaderErrorCode", "ReadOperation"]),
    ("btfdecode.utils", ["Loggable"])]

def loggable : List String := ["BTF", "BTFParserConf", "FileReader", "Loggable", "SimpleConf"]

def area? (name : String) : Option String :=
  (areas.find? fun a => a.2.contains name).map Prod.fst

def qualified (name : String) : String :=
  match area? name with
  | some area => area ++ "." ++ name
  | none => name

/-- The name of the log of a component, or of a part of it. -/
def logger (name : String) (part : Text) : Text :=
  let whole : Text := qualified name
  if part.isEmpty then whole else whole ++ "." ++ part

/-- The name of the log of a component that writes to one. -/
def logger? (name : String) (part : Text) : Option Text :=
  if loggable.contains name then some (logger name part) else none

/-- A component that writes to no log, in words. -/
def withoutLogger (name : String) : Text :=
  "type object '" ++ (name : Text) ++ "' has no attribute 'get_logger'"

end Btf.Component
