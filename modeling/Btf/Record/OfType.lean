import Btf.Record

/-!
# Decoded types as records

* `Member.toValue`, `Enumerator.toValue`, `Param.toValue`: the parts of types;
* `TypeInfo.fields`: the fields of a type, in the order of its class;
* `TypeEntry.record`: **an entry as a record** with its identifier;
* `TypeInfo.length_fields`: there are as many fields as the class has.
-/

namespace Btf

def nameValue : Option Text → Value
  | some t => .str t
  | none => .null

def natValue (n : Nat) : Value := .int n

def Member.toValue (m : Member) : Value :=
  .record .member .null [nameValue m.name, natValue m.type, natValue m.offset, .bool m.kindFlag]

def Enumerator.toValue (e : Enumerator) : Value :=
  .record .enumerator .null [.str e.name, .int e.value]

def Param.toValue (p : Param) : Value := .record .param .null [nameValue p.name, natValue p.type]

namespace TypeInfo

def fields : TypeInfo → List Value
  | int name size bits bitOffset encoding =>
    [nameValue name, natValue size, natValue bits, natValue bitOffset,
      .bool (encoding == .signed), .bool (encoding == .char), .bool (encoding == .bool)]
  | ref _ target => [natValue target]
  | array element index count => [natValue element, natValue index, natValue count]
  | typedef name target => [.str name, natValue target]
  | composite _ name size kindFlag members =>
    [nameValue name, natValue size, .bool kindFlag, .tuple (members.map Member.toValue)]
  | enum name size enumerators =>
    [nameValue name, natValue size, .tuple (enumerators.map Enumerator.toValue)]
  | fwd name isUnion => [.str name, .bool isUnion]
  | func name signature => [.str name, natValue signature]
  | funcProto result params variadic =>
    [natValue result, .tuple (params.map Param.toValue), .bool variadic]

/-- There are as many fields as the class has. -/
theorem length_fields (t : TypeInfo) :
    t.fields.length = (RecordClass.type t.kind).keyFields.length := by
  cases t with
  | ref k => cases k <;> rfl
  | composite k => cases k <;> rfl
  | _ => rfl

end TypeInfo

/-- **An entry as a record** with its identifier. -/
def TypeEntry.record (t : TypeEntry) : Record where
  cls := .type t.info.kind
  id := natValue t.id
  fields := t.info.fields

end Btf
