import Btf.Decode.Layout
import Btf.Decode.Name

/-!
# Entries of the type section

An entry is a head and a payload that depends on its kind. The head is checked before names and
payload are read, and what follows from the payload after it has been read.

* `Entry`: the head of an entry, where it starts, and the names it may refer to;
* `Entry.int`, …, `Entry.funcProto`: the entries of each kind;
* `Entry.info`: what an entry of any kind says;
* **`Entry.consumes_info`**: an entry consumes its head's `payloadSize` and nothing else.
-/

namespace Btf

/-- The head of an entry, where it starts, and the names it may refer to. -/
structure Entry where
  names : Names
  offset : Nat
  head : TypeHeader
  deriving DecidableEq, Repr

namespace Entry

variable {α : Type}

/-- Give up on an entry. -/
def refuse (e : Entry) (what : Violation) : Read Fault α := throw (.invalid e.offset e.head what)

/-- Give up on an entry unless `p` holds. -/
def require (e : Entry) (p : Prop) [Decidable p] (what : Violation) : Read Fault Unit :=
  if p then pure () else e.refuse what

def u32 : Read Fault Nat := Read.u32.mapError .source

def name? (e : Entry) : Read Fault (Option Text) := e.names.get? e.head.nameOffset

/-! ## The kinds -/

def intSizes : List Nat := [1, 2, 4, 8, 16]

def enumSizes : List Nat := [1, 2, 4, 8]

/-- An integer type whose payload `word` packs flags, the offset in bits and the number of bits. -/
def intOf (e : Entry) (name : Option Text) (word : Nat) : Read Fault TypeInfo :=
  let size := e.head.sizeOrType
  let flags := word / 0x1000000 % 0x10
  let bitOffset := word / 0x10000 % 0x100
  let bits := word % 0x100
  match IntEncoding.ofBits? flags with
  | none => e.refuse (.intEncoding flags)
  | some encoding => do
    e.require (bits ≤ 128 ∧ bits ≤ size * 8) (.intWidth bits size)
    e.require (bitOffset + bits ≤ size * 8) (.intPlace bits bitOffset size)
    return .int name size bits bitOffset encoding

def int (e : Entry) : Read Fault TypeInfo := do
  let size := e.head.sizeOrType
  e.require (e.head.kindFlag = false ∧ e.head.vlen = 0) .intFields
  e.require (size ∈ intSizes) (.intSize size)
  let name ← e.name?
  e.intOf name (← u32)

/-- A type that only refers to another one. -/
def ref (e : Entry) (kind : RefKind) : Read Fault TypeInfo := do
  e.require (e.head.nameOffset = 0 ∧ e.head.kindFlag = false ∧ e.head.vlen = 0) (.refFields kind)
  return .ref kind e.head.sizeOrType

/-- An array type: the payload holds the types of elements and indices and the number of elements. -/
def array (e : Entry) : Read Fault TypeInfo := do
  e.require (e.head.nameOffset = 0 ∧ e.head.kindFlag = false ∧ e.head.vlen = 0 ∧
    e.head.sizeOrType = 0) .arrayFields
  let element ← u32
  let index ← u32
  let count ← u32
  return .array element index count

/-- The head is that of a named entry without payload. -/
def IsNamed (e : Entry) : Prop :=
  e.head.nameOffset ≠ 0 ∧ e.head.kindFlag = false ∧ e.head.vlen = 0

instance (e : Entry) : Decidable e.IsNamed := inferInstanceAs (Decidable (_ ∧ _))

/-- Another name for a type. -/
def typedef (e : Entry) : Read Fault TypeInfo := do
  e.require e.IsNamed .typedefFields
  return .typedef (← e.names.get e.head.nameOffset) e.head.sizeOrType

def func (e : Entry) : Read Fault TypeInfo := do
  e.require e.IsNamed .funcFields
  return .func (← e.names.get e.head.nameOffset) e.head.sizeOrType

/-- A struct or union that is only declared. -/
def fwd (e : Entry) : Read Fault TypeInfo := do
  e.require (e.head.nameOffset ≠ 0 ∧ e.head.vlen = 0 ∧ e.head.sizeOrType = 0) .fwdFields
  return .fwd (← e.names.get e.head.nameOffset) e.head.kindFlag

/-- A word as a signed number of 32 bits. -/
def signed (word : Nat) : Int := (word : Int).bmod 0x100000000

def enumerator (e : Entry) : Read Fault Enumerator := do
  let nameOffset ← u32
  e.require (nameOffset ≠ 0) .enumAnonymous
  let name ← e.names.get nameOffset
  return { name, value := signed (← u32) }

/-- An enumeration type. One without constants is only declared and is refused. -/
def enum (e : Entry) : Read Fault TypeInfo := do
  let size := e.head.sizeOrType
  e.require (e.head.kindFlag = false) .enumFields
  e.require (e.head.vlen ≠ 0) .enumEmpty
  e.require (size ∈ enumSizes) (.enumSize size)
  let name ← e.name?
  return .enum name size (← e.enumerator.times e.head.vlen)

def param (e : Entry) : Read Fault Param := do
  let name ← e.names.get? (← u32)
  return { name, type := ← u32 }

/-- The last parameter of a function that takes any further ones: it has neither name nor type. -/
def ellipsis : Param := ⟨none, 0⟩

/-- A function type with the parameters as written, the last of which may stand for any further
ones. -/
def funcProtoOf (result : Nat) (params : List Param) : TypeInfo :=
  if params.getLast? = some ellipsis then .funcProto result params.dropLast true
  else .funcProto result params false

def funcProto (e : Entry) : Read Fault TypeInfo := do
  e.require (e.head.nameOffset = 0 ∧ e.head.kindFlag = false) .funcProtoFields
  return funcProtoOf e.head.sizeOrType (← e.param.times e.head.vlen)

def member (e : Entry) : Read Fault Member := do
  let name ← e.names.get? (← u32)
  let type ← u32
  let offset ← u32
  return { name, type, offset, kindFlag := e.head.kindFlag }

/-- A struct or union; no head is refused. -/
def composite (e : Entry) (kind : CompositeKind) : Read Fault TypeInfo := do
  let name ← e.name?
  let members ← e.member.times e.head.vlen
  return .composite kind name e.head.sizeOrType e.head.kindFlag members

/-- What an entry of the given kind says. -/
def infoOf (e : Entry) : Kind → Read Fault TypeInfo
  | .int => e.int
  | .ptr => e.ref .ptr
  | .const => e.ref .const
  | .volatile => e.ref .volatile
  | .array => e.array
  | .typedef => e.typedef
  | .enum => e.enum
  | .funcProto => e.funcProto
  | .struct => e.composite .struct
  | .union => e.composite .union
  | .fwd => e.fwd
  | .func => e.func

/-- **What an entry says.** -/
def info (e : Entry) : Read Fault TypeInfo :=
  match e.head.kind? with
  | some k => e.infoOf k
  | none => e.refuse (.unsupportedKind e.head.kind)

/-! ## How much an entry consumes -/

open Read (Consumes)

theorem consumes_refuse (e : Entry) (n : Nat) (what : Violation) :
    Consumes n (e.refuse what : Read Fault α) := .throw n _

theorem consumes_require (e : Entry) (p : Prop) [Decidable p] (what : Violation) :
    Consumes 0 (e.require p what) := .ite p (fun _ => .pure ()) fun _ => e.consumes_refuse 0 what

theorem consumes_u32 : Consumes 4 u32 := (Read.consumes_word 4).mapError _

theorem consumes_name? (e : Entry) : Consumes 0 e.name? := e.names.consumes_get? _

theorem consumes_intOf (e : Entry) (name : Option Text) (word : Nat) :
    Consumes 0 (e.intOf name word) := by
  unfold intOf
  dsimp only
  split
  · exact e.consumes_refuse 0 _
  · exact (e.consumes_require _ _).skip fun _ => (e.consumes_require _ _).skip fun _ => .pure _

theorem consumes_int (e : Entry) : Consumes 4 e.int :=
  (e.consumes_require _ _).skip fun _ => (e.consumes_require _ _).skip fun _ =>
    e.consumes_name?.skip fun _ => consumes_u32.bind fun _ => e.consumes_intOf _ _

theorem consumes_ref (e : Entry) (kind : RefKind) : Consumes 0 (e.ref kind) :=
  (e.consumes_require _ _).skip fun _ => .pure _

theorem consumes_array (e : Entry) : Consumes 12 e.array :=
  (e.consumes_require _ _).skip fun _ => consumes_u32.bind fun _ => consumes_u32.bind fun _ =>
    consumes_u32.bind fun _ => .pure _

theorem consumes_typedef (e : Entry) : Consumes 0 e.typedef :=
  (e.consumes_require _ _).skip fun _ => (e.names.consumes_get _).skip fun _ => .pure _

theorem consumes_func (e : Entry) : Consumes 0 e.func :=
  (e.consumes_require _ _).skip fun _ => (e.names.consumes_get _).skip fun _ => .pure _

theorem consumes_fwd (e : Entry) : Consumes 0 e.fwd :=
  (e.consumes_require _ _).skip fun _ => (e.names.consumes_get _).skip fun _ => .pure _

theorem consumes_enumerator (e : Entry) : Consumes 8 e.enumerator :=
  consumes_u32.bind fun _ => (e.consumes_require _ _).skip fun _ =>
    (e.names.consumes_get _).skip fun _ => consumes_u32.bind fun _ => .pure _

theorem consumes_enum (e : Entry) : Consumes (8 * e.head.vlen) e.enum :=
  (e.consumes_require _ _).skip fun _ => (e.consumes_require _ _).skip fun _ =>
    (e.consumes_require _ _).skip fun _ => e.consumes_name?.skip fun _ =>
      (e.consumes_enumerator.times _).bind fun _ => .pure _

theorem consumes_param (e : Entry) : Consumes 8 e.param :=
  consumes_u32.bind fun _ => (e.names.consumes_get? _).skip fun _ => consumes_u32.bind fun _ =>
    .pure _

theorem consumes_funcProto (e : Entry) : Consumes (8 * e.head.vlen) e.funcProto :=
  (e.consumes_require _ _).skip fun _ => (e.consumes_param.times _).bind fun _ => .pure _

theorem consumes_member (e : Entry) : Consumes 12 e.member :=
  consumes_u32.bind fun _ => (e.names.consumes_get? _).skip fun _ => consumes_u32.bind fun _ =>
    consumes_u32.bind fun _ => .pure _

theorem consumes_composite (e : Entry) (kind : CompositeKind) :
    Consumes (12 * e.head.vlen) (e.composite kind) :=
  e.consumes_name?.skip fun _ => (e.consumes_member.times _).bind fun _ => .pure _

theorem consumes_infoOf (e : Entry) (k : Kind) :
    Consumes (k.payloadSize e.head.vlen) (e.infoOf k) := by
  cases k with
  | int => exact e.consumes_int
  | ptr => exact e.consumes_ref _
  | const => exact e.consumes_ref _
  | volatile => exact e.consumes_ref _
  | array => exact e.consumes_array
  | typedef => exact e.consumes_typedef
  | enum => exact e.consumes_enum
  | funcProto => exact e.consumes_funcProto
  | struct => exact e.consumes_composite _
  | union => exact e.consumes_composite _
  | fwd => exact e.consumes_fwd
  | func => exact e.consumes_func

/-- **An entry consumes its payload and nothing else.** -/
theorem consumes_info (e : Entry) : Consumes e.head.payloadSize e.info := by
  unfold info TypeHeader.payloadSize
  cases e.head.kind? with
  | some k => exact e.consumes_infoOf k
  | none => exact e.consumes_refuse 0 _

end Entry

end Btf
