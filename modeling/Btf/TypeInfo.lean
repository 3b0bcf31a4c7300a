import Btf.Text
import Btf.Kind

/-!
# Decoded types

What the entries of a type section say. Types refer to one another by identifiers; the first entry
has identifier one, and zero is `void`.

* `IntEncoding`, `RefKind`, `CompositeKind`, `Member`, `Enumerator`, `Param`: the parts of types;
* `TypeInfo`, `TypeInfo.kind`: what an entry says;
* `TypeEntry`: an entry with its identifier.
-/

namespace Btf

/-- What the values of an integer type stand for. -/
inductive IntEncoding
  | none
  | signed
  | char
  | bool
  deriving DecidableEq, Repr

namespace IntEncoding

def name : IntEncoding → String
  | none => "NONE"
  | signed => "SIGNED"
  | char => "CHAR"
  | bool => "BOOL"

/-- The encoding of a field of bits, of which at most one of the last three is set. -/
def ofBits? (bits : Nat) : Option IntEncoding :=
  match bits % 8 with
  | 0 => some none
  | 1 => some signed
  | 2 => some char
  | 4 => some bool
  | _ => Option.none

end IntEncoding

/-- The kinds of types that only refer to another type. -/
inductive RefKind
  | ptr
  | const
  | volatile
  deriving DecidableEq, Repr

/-- A kind of reference as a kind of entry. -/
def RefKind.kind : RefKind → Kind
  | ptr => .ptr
  | const => .const
  | volatile => .volatile

/-- The kinds of types with members. -/
inductive CompositeKind
  | struct
  | union
  deriving DecidableEq, Repr

/-- A kind of type with members as a kind of entry. -/
def CompositeKind.kind : CompositeKind → Kind
  | struct => .struct
  | union => .union

/-- A member of a struct or union. With `kindFlag` its offset holds the size of a bit field in its
upper eight bits. -/
structure Member where
  name : Option Text
  type : Nat
  offset : Nat
  kindFlag : Bool
  deriving DecidableEq, Repr

namespace Member

def bitOffset (m : Member) : Nat := if m.kindFlag then m.offset % 0x1000000 else m.offset

/-- The size of a bit field in bits, zero for a member that is none. -/
def bitfieldSize (m : Member) : Nat := if m.kindFlag then m.offset / 0x1000000 else 0

end Member

/-- A named constant. -/
structure Enumerator where
  name : Text
  value : Int
  deriving DecidableEq, Repr

/-- A parameter of a function. -/
structure Param where
  name : Option Text
  type : Nat
  deriving DecidableEq, Repr

/-- What an entry of the type section says. -/
inductive TypeInfo
  | int (name : Option Text) (size bits bitOffset : Nat) (encoding : IntEncoding)
  | ref (kind : RefKind) (target : Nat)
  | array (element index count : Nat)
  | typedef (name : Text) (target : Nat)
  | composite (kind : CompositeKind) (name : Option Text) (size : Nat) (kindFlag : Bool)
    (members : List Member)
  | enum (name : Option Text) (size : Nat) (enumerators : List Enumerator)
  | fwd (name : Text) (isUnion : Bool)
  | func (name : Text) (signature : Nat)
  | funcProto (result : Nat) (params : List Param) (variadic : Bool)
  deriving DecidableEq, Repr

/-- The kind of entry that says this. -/
def TypeInfo.kind : TypeInfo → Kind
  | int .. => .int
  | ref k _ => k.kind
  | array .. => .array
  | typedef .. => .typedef
  | composite k .. => k.kind
  | enum .. => .enum
  | fwd .. => .fwd
  | func .. => .func
  | funcProto .. => .funcProto

/-- An entry of the type section with its identifier. -/
structure TypeEntry where
  id : Nat
  info : TypeInfo
  deriving DecidableEq, Repr

end Btf
