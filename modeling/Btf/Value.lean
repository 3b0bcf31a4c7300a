import Btf.Decimal.Binary64
import Btf.Kind
import Btf.Timestamp

/-!
# Values

What options hold and what fields of records hold: a dynamic value, as a settings file gives it.

* `RecordClass`: the classes of records and their fields;
* `Value`, `Value.typeName`, `Value.isTrue`;
* `Value.entries?`, `Value.elements?`, `Value.times?`: what a value can be taken apart into, and its
  multiples;
* `Value.equal`: equality, in which whole numbers, truth values and floating-point numbers are one
  kind of number and the identifier of a record does not count;
* `Value.digest?`: what the hash of a value is made of;
* `Value.mapOf`: a mapping from pairs, where a later pair replaces the value of an earlier key.
-/

namespace Btf

/-- The classes of records: a type of each kind, and the parts of types. The bases that some of these
share are left out: nothing is ever decoded into a record of a base alone. -/
inductive RecordClass
  | type (k : Kind)
  | member
  | enumerator
  | param
  deriving DecidableEq, Repr

namespace RecordClass

def name : RecordClass → String
  | type .int => "BTFInt"
  | type .ptr => "BTFPtr"
  | type .array => "BTFArray"
  | type .struct => "BTFStruct"
  | type .union => "BTFUnion"
  | type .enum => "BTFEnum"
  | type .fwd => "BTFForwardDecl"
  | type .typedef => "BTFTypedef"
  | type .volatile => "BTFVolatile"
  | type .const => "BTFConst"
  | type .func => "BTFFunc"
  | type .funcProto => "BTFFuncProto"
  | member => "BTFMember"
  | enumerator => "BTFEnumerator"
  | param => "BTFParam"

/-- The fields of a class other than the identifier. -/
def keyFields : RecordClass → List String
  | type .int => ["name", "size", "bits", "bit_offset", "is_signed", "is_char", "is_bool"]
  | type .ptr | type .volatile | type .const => ["typ"]
  | type .array => ["typ", "index_typ", "nelems"]
  | type .struct | type .union => ["name", "size", "kind_flag", "members"]
  | type .enum => ["name", "size", "enumerators"]
  | type .fwd => ["name", "is_union"]
  | type .typedef | type .func => ["name", "typ"]
  | type .funcProto => ["typ", "params", "variadic"]
  | member => ["name", "typ", "offset", "kind_flag"]
  | enumerator => ["name", "value"]
  | param => ["name", "typ"]

/-- Types carry an identifier; parts of types do not. -/
def hasId : RecordClass → Bool
  | type _ => true
  | _ => false

/-- All fields of a class, the identifier first. -/
def fields (c : RecordClass) : List String :=
  if c.hasId then "id" :: c.keyFields else c.keyFields

def all : List RecordClass := Kind.all.map type ++ [member, enumerator, param]

def ofName? (s : String) : Option RecordClass := all.find? fun c => c.name == s

end RecordClass

/-- A dynamic value. A set has its elements in the order in which it gives them, and an ordered map is a
mapping that tells the order of its entries. A record has an identifier, null where there is none, and a
value for each other field of its class. -/
inductive Value
  | null
  | bool (b : Bool)
  | int (n : Int)
  | float (x : Binary64)
  | str (t : Text)
  | bytes (bs : List UInt8)
  | list (vs : List Value)
  | tuple (vs : List Value)
  | set (vs : List Value)
  | map (entries : List (Value × Value))
  | orderedMap (entries : List (Value × Value))
  | timestamp (t : Timestamp)
  | record (cls : RecordClass) (id : Value) (fields : List Value)
  deriving Repr, Inhabited

namespace Value

instance : Coe String Value := ⟨fun s => .str s⟩

def typeName : Value → String
  | null => "NoneType"
  | bool _ => "bool"
  | int _ => "int"
  | float _ => "float"
  | str _ => "str"
  | bytes _ => "bytes"
  | list _ => "list"
  | tuple _ => "tuple"
  | set _ => "set"
  | map _ => "dict"
  | orderedMap _ => "ordereddict"
  | timestamp t => t.typeName
  | record c _ _ => c.name

/-- Zero, the empty and null count as false. -/
def isTrue : Value → Bool
  | null => false
  | bool b => b
  | int n => n != 0
  | float (.finite _ m _) => m != 0
  | float _ => true
  | str t => !t.isEmpty
  | bytes bs => !bs.isEmpty
  | list vs | tuple vs | set vs => !vs.isEmpty
  | map es | orderedMap es => !es.isEmpty
  | timestamp _ => true
  | record _ _ _ => true

/-! ## Parts and multiples -/

/-- The entries of a mapping. -/
def entries? : Value → Option (List (Value × Value))
  | map es | orderedMap es => some es
  | _ => none

/-- The elements of a value that has some: those of a mapping are its keys. -/
def elements? : Value → Option (List Value)
  | list vs | tuple vs | set vs => some vs
  | str t => some (t.map fun c => .str [c])
  | bytes bs => some (bs.map fun b => .int b.toNat)
  | map es | orderedMap es => some (es.map Prod.fst)
  | _ => none

/-- A number `n` times, for a positive `n`, or a sequence after itself `n` times. -/
def times? (n : Nat) : Value → Option Value
  | bool b => some (.int (b.toNat * n))
  | int k => some (.int (k * n))
  | float x => some (.float (x.times n))
  | str t => some (.str (List.replicate n t).flatten)
  | bytes bs => some (.bytes (List.replicate n bs).flatten)
  | list vs => some (.list (List.replicate n vs).flatten)
  | tuple vs => some (.tuple (List.replicate n vs).flatten)
  | _ => none

/-! ## Equality -/

/-- The whole number that a truth value or a whole number is. -/
def whole? : Value → Option Int
  | bool b => some b.toNat
  | int n => some n
  | _ => none

/-- The two numbers are the same: a floating-point number is never equal to one that is none. -/
def floatIs (x y : Binary64) : Bool :=
  match x, y with
  | .finite a m q, .finite b n r => (m == 0 && n == 0) || (a == b && m == n && q == r)
  | .infinite a, .infinite b => a == b
  | _, _ => false

/-- The floating-point number is the whole number `n`. -/
def floatIsWhole (x : Binary64) (n : Int) : Bool :=
  match x with
  | .finite a m q =>
    let signed : Int := if a then -m else m
    signed * (1 <<< q.toNat : Nat) == n * (1 <<< (-q).toNat : Nat)
  | _ => false

/-- Two values that are neither collections nor records are equal. -/
def scalarEqual : Value → Value → Bool
  | null, null => true
  | str s, str t => s == t
  | bytes s, bytes t => s == t
  | timestamp s, timestamp t => s == t
  | float x, float y => floatIs x y
  | float x, w => match w.whole? with
    | some n => floatIsWhole x n
    | none => false
  | v, float y => match v.whole? with
    | some m => floatIsWhole y m
    | none => false
  | v, w => match v.whole?, w.whole? with
    | some m, some n => m == n
    | _, _ => false

mutual

/-- **Equality of values.** -/
def equal : Value → Value → Bool
  | list vs, w => match w with
    | list ws => equalAll vs ws
    | _ => false
  | tuple vs, w => match w with
    | tuple ws => equalAll vs ws
    | _ => false
  | set vs, w => match w with
    | set ws => vs.length == ws.length && equalSome vs ws
    | _ => false
  | map es, w => match w with
    | map fs | orderedMap fs => es.length == fs.length && equalEntries es fs
    | _ => false
  | orderedMap es, w => match w with
    | map fs => es.length == fs.length && equalEntries es fs
    | orderedMap fs => equalInOrder es fs
    | _ => false
  | record c _ vs, w => match w with
    | record d _ ws => c == d && equalAll vs ws
    | _ => false
  | v, w => scalarEqual v w
termination_by structural v => v

/-- The lists have the same length and equal elements. -/
def equalAll : List Value → List Value → Bool
  | [], ws => ws.isEmpty
  | v :: vs, ws => match ws with
    | w :: ws => equal v w && equalAll vs ws
    | [] => false
termination_by structural vs => vs

/-- Every element of the first set has an equal one in the second. -/
def equalSome : List Value → List Value → Bool
  | [], _ => true
  | v :: vs, ws => ws.any (fun w => equal v w) && equalSome vs ws
termination_by structural vs => vs

/-- Every entry of the first mapping has an equal one in the second. -/
def equalEntries : List (Value × Value) → List (Value × Value) → Bool
  | [], _ => true
  | (k, v) :: es, fs => (fs.any fun f => equal k f.1 && equal v f.2) && equalEntries es fs
termination_by structural es => es

/-- The mappings have equal entries in the same order. -/
def equalInOrder : List (Value × Value) → List (Value × Value) → Bool
  | [], fs => fs.isEmpty
  | (k, v) :: es, fs => match fs with
    | f :: fs => equal k f.1 && equal v f.2 && equalInOrder es fs
    | [] => false
termination_by structural es => es

end

/-! ## Mappings -/

/-- Put an entry into a mapping; a key that is there already keeps its place. -/
def insertEntry (key value : Value) : List (Value × Value) → List (Value × Value)
  | [] => [(key, value)]
  | (k, v) :: es => if equal k key then (k, value) :: es else (k, v) :: insertEntry key value es

/-- The mapping of a list of pairs. -/
def mapOf (pairs : List (Value × Value)) : Value :=
  .map (pairs.foldl (fun es p => insertEntry p.1 p.2 es) [])

def lookupEntry (key : Value) : List (Value × Value) → Option Value
  | [] => none
  | (k, v) :: es => if equal k key then some v else lookupEntry key es

/-! ## Hashes -/

/-- A type whose values have no hash. -/
structure Unhashable where
  type : String
  deriving DecidableEq, Repr

/-- Such a type in words. -/
def Unhashable.message (u : Unhashable) : Text := "unhashable type: '" ++ (u.type : Text) ++ "'"

/-- The modulus of the hashes of numbers, a prime. -/
def hashModulus : Nat := (1 <<< 61) - 1

/-- A hash with the given sign; `-1` is not used. -/
def signedHash (negative : Bool) (h : Nat) : Int :=
  let s : Int := if negative then -h else h
  if s = -1 then -2 else s

def wholeHash (n : Int) : Int := signedHash (decide (n < 0)) (n.natAbs % hashModulus)

/-- The hash of a floating-point number: that of the whole number it is, if it is one. -/
def floatHash : Binary64 → Option Int
  | .finite a m q => some (signedHash a ((m <<< (q % 61).toNat) % hashModulus))
  | .infinite a => some (if a then -314159 else 314159)
  | .nan => none

/-- The code points of a text as bytes, the lowest byte of each first; the widest of them says how
many bytes each of them takes. -/
def textBytes (t : Text) : List UInt8 :=
  let byte (c : CodePoint) (i : Nat) : UInt8 := (c.val >>> (8 * i)).toUInt8
  if t.all fun c => decide (c.val < 0x100) then t.map fun c => byte c 0
  else if t.all fun c => decide (c.val < 0x10000) then t.flatMap fun c => [byte c 0, byte c 1]
  else t.flatMap fun c => [byte c 0, byte c 1, byte c 2, byte c 3]

mutual

/-- **What the hash of a value is made of**; lists, sets and mappings have no hash. Equal values have
equal hashes, so numbers are reduced; a text has the hash of its bytes. -/
def digest? : Value → Except Unhashable Value
  | null => .ok .null
  | bool b => .ok (.int (wholeHash b.toNat))
  | int n => .ok (.int (wholeHash n))
  | float x => .ok (match floatHash x with
    | some h => .int h
    | none => .float .nan)
  | str t => .ok (if t.isEmpty then .int 0 else .bytes (textBytes t))
  | bytes bs => .ok (if bs.isEmpty then .int 0 else .bytes bs)
  | timestamp t => .ok (.timestamp t)
  | tuple vs => (digestAll? vs).map .tuple
  | record c _ vs => (digestAll? vs).map (.record c .null)
  | list vs => .error ⟨(list vs).typeName⟩
  | set vs => .error ⟨(set vs).typeName⟩
  | map es => .error ⟨(map es).typeName⟩
  | orderedMap es => .error ⟨(orderedMap es).typeName⟩

def digestAll? : List Value → Except Unhashable (List Value)
  | [] => .ok []
  | v :: vs => do return (← digest? v) :: (← digestAll? vs)

end

end Value

end Btf
