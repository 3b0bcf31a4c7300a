import Btf.Component
import Btf.TypeInfo
import Btf.Value.Written

/-!
# Records

The read-only view of decoded types and their parts: a record has the fields of its class, what can
be computed from them, and facts about its class. A field is set once, when the record is made; only
the identifier is set later, and only once. Some classes let a further attribute be set, also once.

* `Record`, `Record.make`: records, and **a record made from arguments**;
* `Record.ofValue`, `Record.value`: records as values;
* `Record.get`: **an attribute**;
* `Record.set`: **setting an attribute**, which is refused if it can be read already;
* `Record.delete`: deleting, which is always refused.
-/

namespace Btf

/-- A record: the identifier is null where there is none, and `extras` are further attributes. -/
structure Record where
  cls : RecordClass
  id : Value := .null
  fields : List Value
  extras : List (Text × Value) := []
  deriving Repr

/-- What an attribute can be: a value, a kind, an encoding of integers, a list of names, or a part
of how records work, of which only the type is known. -/
inductive Attribute
  | value (v : Value)
  | kind (k : Kind)
  | encoding (e : IntEncoding)
  | names (ns : List String)
  | working (type : String)
  deriving Repr

/-- Why a record cannot be made, or an attribute cannot be read or set. -/
inductive RecordFault
  | unexpected (cls : RecordClass) (argument : String)
  | repeated (cls : RecordClass) (argument : String)
  | missing (cls : RecordClass) (arguments : List String)
  | noElements (v : Value)
  | readOnly (cls : RecordClass) (attr : Text)
  | noAttribute (cls : RecordClass) (attr : Text)
  | operand (operator : String) (v : Value)
  deriving Repr

namespace RecordClass

/-- Classes that let a further attribute be set. -/
def isOpen : RecordClass → Bool
  | type .ptr | type .const | type .volatile | type .struct | type .union => true
  | _ => false

/-- The arguments from which records of a class are made, in their order. -/
def parameters : RecordClass → List String
  | type .struct | type .union => ["name", "size", "members", "kind_flag"]
  | c => c.keyFields

/-- An argument that need not be given, since it has a default. -/
def isOptional (field : String) : Bool :=
  ["is_signed", "is_char", "is_bool", "kind_flag", "variadic"].contains field

/-- A field that keeps the elements of what is given. -/
def isSequence (field : String) : Bool := ["members", "enumerators", "params"].contains field

/-- The name of what makes the records of a class; some classes share it. -/
def maker (c : RecordClass) : Text :=
  let owner := match c with
    | type .ptr | type .const | type .volatile => "_BTFRefType"
    | type .struct | type .union => "_BTFStructUnion"
    | c => c.name
  (owner : Text) ++ ".__init__()"

/-- The lines that are written about a class, as they are indented there; most classes have none. -/
def documentation : RecordClass → List String
  | member =>
    ["", "    Member of a :class:`BTFStruct` or :class:`BTFUnion`.", "",
      "    :ivar offset: Raw 32-bit offset field, as found in the blob.",
      "    :ivar kind_flag: ``kind_flag`` of the parent struct/union.", "",
      "    The unit of :attr:`offset` is not interpreted by the decoder. The kernel",
      "    documentation describes it as a bit offset, with the bitfield size packed",
      "    in the top 8 bits when ``kind_flag`` is set: :attr:`bit_offset` and",
      "    :attr:`bitfield_size` implement that reading for consumers that rely on it.", "    "]
  | type .funcProto =>
    ["", "    Function prototype.", "",
      "    :ivar typ: Type ID of the return type.",
      "    :ivar params: Parameters, without the trailing ``...`` sentinel.",
      "    :ivar variadic: ``True`` if the prototype ends with ``...``.", "    "]
  | _ => []

end RecordClass

/-- Names one after the other between quotes, with a word before the last one. -/
def namesInWords : List String → Text
  | [] => []
  | [a] => Text.quoted a
  | [a, b] => Text.quoted a ++ " and " ++ Text.quoted b
  | [a, b, c] => Text.quoted a ++ ", " ++ Text.quoted b ++ ", and " ++ Text.quoted c
  | a :: rest => Text.quoted a ++ ", " ++ namesInWords rest

def RecordFault.message : RecordFault → Text
  | unexpected cls a => cls.maker ++ " got an unexpected keyword argument '" ++ (a : Text) ++ "'"
  | repeated cls a => cls.maker ++ " got multiple values for argument '" ++ (a : Text) ++ "'"
  | missing cls as =>
    let plural : Text := if as.length = 1 then " argument: " else " arguments: "
    cls.maker ++ " missing " ++ Text.decimal as.length ++ " required positional" ++ plural ++
      namesInWords as
  | noElements v => "'" ++ (v.typeName : Text) ++ "' object is not iterable"
  | readOnly cls attr => (cls.name : Text) ++ "." ++ attr ++ " is read-only"
  | noAttribute cls attr => "'" ++ (cls.name : Text) ++ "' object has no attribute '" ++ attr ++ "'"
  | operand operator v =>
    "unsupported operand type(s) for " ++ (operator : Text) ++ ": '" ++ (v.typeName : Text) ++
      "' and 'int'"

namespace Record

/-- The value of a record, of which further attributes are no part. -/
def value (r : Record) : Value := .record r.cls r.id r.fields

def ofValue : Value → Option Record
  | .record cls id fields => some { cls, id, fields }
  | _ => none

/-! ## Making records -/

/-- The argument under which the record itself is known while it is made. -/
def ownArgument : String := "self"

/-- An argument that records of the class do not take, as a fault. -/
def refuse (cls : RecordClass) (argument : String) : Option RecordFault :=
  if argument == ownArgument then some (.repeated cls argument)
  else if cls.parameters.contains argument then none
  else some (.unexpected cls argument)

/-- A field as a record keeps it. -/
def kept (field : String) (v : Value) : Except RecordFault Value :=
  if RecordClass.isSequence field then
    match v.elements? with
    | some vs => .ok (.tuple vs)
    | none => .error (.noElements v)
  else .ok v

/-- The required arguments that are not given. -/
def missing (cls : RecordClass) (arguments : List (String × Value)) : List String :=
  cls.parameters.filter fun p => !RecordClass.isOptional p && (arguments.lookup p).isNone

/-- **A record made from arguments**; one that is not given has its default, which is false. -/
def make (cls : RecordClass) (arguments : List (String × Value)) : Except RecordFault Record := do
  match arguments.findSome? fun a => refuse cls a.1 with
  | some fault => throw fault
  | none =>
    match missing cls arguments with
    | [] =>
      let fields ← cls.keyFields.mapM fun f => kept f ((arguments.lookup f).getD (.bool false))
      return { cls, fields }
    | absent => throw (.missing cls absent)

def field? (r : Record) (name : String) : Option Value := (r.cls.keyFields.zip r.fields).lookup name

/-- The value of a field, null if there is no such field. -/
def field (r : Record) (name : String) : Value := (r.field? name).getD .null

/-- A field as a whole number that is an operand of `operator`. -/
def whole (r : Record) (operator name : String) : Except RecordFault Int :=
  match (r.field name).whole? with
  | some n => .ok n
  | none => .error (.operand operator (r.field name))

/-! ## What can be computed from fields -/

/-- What the values of an integer type stand for: the first of its flags that is set. -/
def encoding (r : Record) : IntEncoding :=
  if (r.field "is_signed").isTrue then .signed
  else if (r.field "is_char").isTrue then .char
  else if (r.field "is_bool").isTrue then .bool
  else .none

/-- An integer type does not have all bits of its size. -/
def isBitfield (r : Record) : Except RecordFault Bool :=
  match (r.field "size").times? 8 with
  | some bits => .ok (!(r.field "bits").equal bits)
  | none => .error (.operand "*" (r.field "size"))

def bitOffset (r : Record) : Except RecordFault Value :=
  if (r.field "kind_flag").isTrue then (r.whole "&" "offset").map fun n => .int (n % 0x1000000)
  else .ok (r.field "offset")

/-- The size of a bit field in bits, zero for a member that is none. -/
def bitfieldSize (r : Record) : Except RecordFault Value :=
  if (r.field "kind_flag").isTrue then (r.whole ">>" "offset").map fun n => .int (n / 0x1000000)
  else .ok (.int 0)

/-- The names of what is computed from fields in some class. -/
def derived : List String := ["encoding", "is_bitfield", "bit_offset", "bitfield_size"]

/-- The attributes that are computed from the fields of a class. -/
def computed : RecordClass → List String
  | .type .int => ["encoding", "is_bitfield"]
  | .member => ["bit_offset", "bitfield_size"]
  | _ => []

/-- A computed attribute. -/
def compute (r : Record) (name : String) : Except RecordFault Attribute :=
  match name with
  | "encoding" => .ok (.encoding r.encoding)
  | "is_bitfield" => r.isBitfield.map fun b => .value (.bool b)
  | "bit_offset" => r.bitOffset.map .value
  | _ => r.bitfieldSize.map .value

/-! ## Attributes -/

/-- How records work, by the names under which every record has it, with the types. -/
def workings : List (String × String) :=
  let methods :=
    ["_astuple", "__init__", "__setattr__", "__delattr__", "__eq__", "__hash__", "__repr__"]
  let wrapped :=
    ["__ge__", "__gt__", "__le__", "__lt__", "__ne__", "__str__", "__getattribute__"]
  let builtin :=
    ["__dir__", "__format__", "__reduce__", "__reduce_ex__", "__sizeof__", "__getstate__",
      "__init_subclass__", "__subclasshook__", "__new__"]
  methods.map (·, "method") ++ wrapped.map (·, "method-wrapper") ++
    builtin.map (·, "builtin_function_or_method") ++ [("__class__", "_BTFRecordMeta")]

def classFact? (c : RecordClass) (name : String) : Option Attribute :=
  match c, name with
  | .type k, "kind" | .type k, "KIND" => some (.kind k)
  | c, "_FIELDS" => some (.names c.fields)
  | c, "_KEY_FIELDS" | c, "__slots__" => some (.names c.keyFields)
  | c, "_NON_KEY_FIELDS" => some (.names (if c.hasId then ["id"] else []))
  | c, "__module__" => (Component.area? c.name).map fun area => .value area
  | c, "__doc__" =>
    match c.documentation with
    | [] => some (.value .null)
    | lines => some (.value (.str (Text.joined "\n" (lines.map Text.ofString))))
  | _, name => (workings.lookup name).map .working

/-- What the records of an open class tell about their further attributes. -/
def openFact? (r : Record) (name : String) : Option Attribute :=
  match r.cls.isOpen, name with
  | true, "__dict__" => some (.value (.map (r.extras.map fun e => (.str e.1, e.2))))
  | true, "__weakref__" => some (.value .null)
  | _, _ => none

/-- An attribute that every record of the class has. -/
def own? (r : Record) (name : String) : Option (Except RecordFault Attribute) :=
  if r.cls.hasId && name == "id" then some (.ok (.value r.id))
  else
    match r.field? name with
    | some v => some (.ok (.value v))
    | none =>
      if (computed r.cls).contains name then some (r.compute name)
      else (classFact? r.cls name <|> r.openFact? name).map .ok

/-- **An attribute.** -/
def get (r : Record) (attr : Text) : Except RecordFault Attribute :=
  match attr.toString?.bind r.own? with
  | some a => a
  | none =>
    match r.extras.lookup attr with
    | some v => .ok (.value v)
    | none => .error (.noAttribute r.cls attr)

/-- The attribute is the identifier and has not been set yet. -/
def awaits (r : Record) (attr : Text) : Bool :=
  r.cls.hasId && attr == Text.ofString "id" && (match r.id with
    | .null => true
    | _ => false)

/-- **Set an attribute.** One that can be read is refused, except for an identifier that has not
been set. -/
def set (r : Record) (attr : Text) (v : Value) : Except RecordFault Record :=
  match r.get attr with
  | .ok _ => if r.awaits attr then .ok { r with id := v } else .error (.readOnly r.cls attr)
  | .error (.noAttribute cls attr) =>
    if r.cls.isOpen then .ok { r with extras := r.extras ++ [(attr, v)] }
    else .error (.noAttribute cls attr)
  | .error fault => .error fault

def delete (r : Record) (attr : Text) : Except RecordFault Record := .error (.readOnly r.cls attr)

/-! ## Collections of records -/

/-- The records at two indices are equal: a record is equal to itself, whatever its fields are. -/
def same (rs : List Record) (i j : Nat) : Bool :=
  i == j || match rs[i]?, rs[j]? with
    | some r, some q => r.value.equal q.value
    | _, _ => false

/-- The records at two indices have the same hash; a field without a hash is an error. -/
def sameHash (rs : List Record) (i j : Nat) : Except Value.Unhashable Bool := do
  match rs[i]?, rs[j]? with
  | some r, some q =>
    let a ← r.value.digest?
    let b ← q.value.digest?
    return i == j || a.equal b
  | _, _ => return false

/-- The number of different records; a field without a hash is an error. -/
def distinct (rs : List Record) : Except Value.Unhashable Nat := do
  let _ ← rs.mapM fun r => r.value.digest?
  return (rs.foldl (fun kept r => if kept.any r.value.equal then kept else kept ++ [r.value])
    []).length

def firstIndex (rs : List Record) (i : Nat) : Option Nat :=
  rs[i]?.map fun r => ((rs.take i).findIdx? fun q => q.value.equal r.value).getD i

end Record

end Btf
