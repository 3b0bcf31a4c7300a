import Btf.Kind

/-!
# Headers

A blob begins with a header that says where its sections are, and every entry of the type section
begins with a header of its own.

* `Header`, `Header.typeStart`, `Header.typeEnd`, `Header.stringAddress`: the layout of a blob;
* `TypeHeader`, `TypeHeader.kind?`, `TypeHeader.payloadSize`: the head of an entry.

All sums are of unbounded integers.
-/

namespace Btf

/-- The header of a blob. Sections are placed relative to its end, at `headerSize`. -/
structure Header where
  magic : Int
  version : Int
  flags : Int
  headerSize : Int
  typeOffset : Int
  typeSize : Int
  stringOffset : Int
  stringSize : Int
  deriving DecidableEq, Repr

namespace Header

def typeStart (h : Header) : Int := h.headerSize + h.typeOffset

def typeEnd (h : Header) : Int := h.typeStart + h.typeSize

def stringStart (h : Header) : Int := h.headerSize + h.stringOffset

/-- Where the string with the given offset in the string section starts. -/
def stringAddress (h : Header) (nameOffset : Int) : Int := h.stringStart + nameOffset

end Header

/-- The head of an entry: `sizeOrType` is the size of the type in bytes or the identifier of
another type, and `vlen` counts members, enumerators or parameters. -/
structure TypeHeader where
  nameOffset : Nat
  vlen : Nat
  kind : Nat
  kindFlag : Bool
  sizeOrType : Nat
  deriving DecidableEq, Repr

namespace TypeHeader

def size : Nat := 12

/-- The head of an entry with the three words `nameOffset`, `info` and `sizeOrType`. -/
def ofWords (nameOffset info sizeOrType : Nat) : TypeHeader where
  nameOffset
  vlen := info % 0x10000
  kind := info / 0x1000000 % 0x20
  kindFlag := info / 0x80000000 % 2 == 1
  sizeOrType

def kind? (h : TypeHeader) : Option Kind := Kind.ofNumber? h.kind

/-- The bytes of an entry after its head; those of a kind that is not decoded are not counted. -/
def payloadSize (h : TypeHeader) : Nat :=
  match h.kind? with
  | some k => k.payloadSize h.vlen
  | none => 0

end TypeHeader

end Btf
