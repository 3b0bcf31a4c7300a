/-!
# Kinds

An entry of a type table states its kind by a number. The format defines twenty kinds; the twelve
that describe types of C are decoded.

* `Kind`, `Kind.number`, `Kind.ofNumber?`: the decoded kinds and their numbers;
* `Kind.formatName?`, `Kind.nameOf`: the name of any kind of the format;
* `Kind.payloadSize`: how many bytes follow the header of an entry.
-/

namespace Btf

/-- The kinds that are decoded. -/
inductive Kind
  | int
  | ptr
  | array
  | struct
  | union
  | enum
  | fwd
  | typedef
  | volatile
  | const
  | func
  | funcProto
  deriving DecidableEq, Repr

/-- The number of no kind of the format. -/
structure UnknownKind where
  number : Int
  deriving DecidableEq, Repr

/-- Such a number in words. -/
def UnknownKind.message (k : UnknownKind) : String := toString k.number ++ " is not a valid BTFKind"

namespace Kind

/-- The kinds that are decoded, in ascending order. -/
def all : List Kind :=
  [int, ptr, array, struct, union, enum, fwd, typedef, volatile, const, func, funcProto]

def number : Kind → Nat
  | int => 1
  | ptr => 2
  | array => 3
  | struct => 4
  | union => 5
  | enum => 6
  | fwd => 7
  | typedef => 8
  | volatile => 9
  | const => 10
  | func => 12
  | funcProto => 13

def ofNumber? : Nat → Option Kind
  | 1 => some int
  | 2 => some ptr
  | 3 => some array
  | 4 => some struct
  | 5 => some union
  | 6 => some enum
  | 7 => some fwd
  | 8 => some typedef
  | 9 => some volatile
  | 10 => some const
  | 12 => some func
  | 13 => some funcProto
  | _ => none

/-- The names of the kinds of the format, in the order of their numbers. -/
def formatNames : List String :=
  ["UNKN", "INT", "PTR", "ARRAY", "STRUCT", "UNION", "ENUM", "FWD", "TYPEDEF", "VOLATILE", "CONST",
    "RESTRICT", "FUNC", "FUNC_PROTO", "VAR", "DATASEC", "FLOAT", "DECL_TAG", "TYPE_TAG", "ENUM64"]

def formatName? (n : Nat) : Option String := formatNames[n]?

/-- The name of the kind of a number, which may be any whole number. -/
def nameOf (n : Int) : Except UnknownKind String :=
  match if n < 0 then none else formatName? n.toNat with
  | some name => .ok name
  | none => .error ⟨n⟩

def isDecoded (n : Int) : Bool := decide (0 ≤ n) && (ofNumber? n.toNat).isSome

def name (k : Kind) : String := (formatName? k.number).getD ""

/-- The bytes after the header of an entry with `vlen` members, enumerators or parameters. -/
def payloadSize : Kind → (vlen : Nat) → Nat
  | int, _ => 4
  | array, _ => 12
  | struct, vlen | union, vlen => 12 * vlen
  | enum, vlen | funcProto, vlen => 8 * vlen
  | _, _ => 0

theorem ofNumber?_number (k : Kind) : ofNumber? k.number = some k := by cases k <;> rfl

theorem number_of_ofNumber? {n : Nat} {k : Kind} (h : ofNumber? n = some k) : k.number = n := by
  unfold ofNumber? at h
  split at h <;> first | cases h; rfl | cases h

end Kind

end Btf
