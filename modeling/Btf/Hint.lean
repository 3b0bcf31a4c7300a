import Btf.Value.Written

/-!
# Type hints

What type a value may have. Hints are built with functions that keep them in a normal form: unions
are flat, have at least two alternatives and none of them twice.

* `Hint`, `Hint.alike`: hints, and when two of them say the same;
* `Hint.unionOf`, `Hint.list`, `Hint.dict`, `Hint.tuple`, `Hint.oneOf`: how hints are built;
* `Hint.union?`, `Hint.optional?`: unions, which not all hints have;
* `Hint.name`: a hint in full;
* `Hint.label`: the outermost type of a hint.
-/

namespace Btf

/-- A type of values. On its own `null` means the value null, and inside another hint its type. -/
inductive Hint
  | any
  | null
  | nullType
  | int
  | str
  | bool
  | float
  | bytes
  | anyList
  | anyDict
  | listOf (element : Hint)
  | dictOf (key value : Hint)
  | tupleOf (elements : List Hint)
  | union (alternatives : List Hint)
  | literal (values : List Value)
  deriving Repr, Inhabited

namespace Hint

def atomName? : Hint → Option String
  | any => some "Any"
  | null => some "None"
  | nullType => some "NoneType"
  | int => some "int"
  | str => some "str"
  | bool => some "bool"
  | float => some "float"
  | bytes => some "bytes"
  | anyList => some "list"
  | anyDict => some "dict"
  | _ => none

/-! ## Hints that say the same -/

/-- Two literal values are the same: they are equal and have one type. -/
def sameLiteral (v w : Value) : Bool := v.equal w && v.typeName == w.typeName

/-- Every literal of the first list is in the second. -/
def literalsIn (vs ws : List Value) : Bool := vs.all fun v => ws.any (sameLiteral v)

mutual

/-- Two hints say the same; the order of alternatives does not count. -/
def alike : Hint → Hint → Bool
  | listOf a, h => match h with
    | listOf b => alike a b
    | _ => false
  | dictOf a b, h => match h with
    | dictOf c d => alike a c && alike b d
    | _ => false
  | tupleOf as, h => match h with
    | tupleOf bs => alikeEach as bs
    | _ => false
  | union as, h => match h with
    | union bs => as.length == bs.length && alikeSome as bs
    | _ => false
  | literal vs, h => match h with
    | literal ws => literalsIn vs ws && literalsIn ws vs
    | _ => false
  | a, b => a.atomName?.isSome && a.atomName? == b.atomName?

/-- The lists have the same length and hints at the same places say the same. -/
def alikeEach : List Hint → List Hint → Bool
  | [], bs => bs.isEmpty
  | a :: as, bs => match bs with
    | b :: bs => alike a b && alikeEach as bs
    | [] => false

/-- Every hint of the first list says the same as some hint of the second. -/
def alikeSome : List Hint → List Hint → Bool
  | [], _ => true
  | a :: as, bs => bs.any (fun b => alike a b) && alikeSome as bs

end

/-! ## Building hints -/

def inner : Hint → Hint
  | null => nullType
  | h => h

def alternatives : Hint → List Hint
  | union hs => hs
  | h => [h]

/-- The first of all hints that say the same. -/
def distinct (hs : List Hint) : List Hint :=
  hs.foldl (fun kept h => if kept.any (alike h) then kept else kept ++ [h]) []

/-- A value of one of some types. -/
def unionOf (hs : List Hint) : Hint :=
  match distinct ((hs.map inner).flatMap alternatives) with
  | [h] => h
  | hs => union hs

mutual

/-- The first value without a hash among the literals of a hint. -/
def unhashable? : Hint → Option Value.Unhashable
  | listOf a => unhashable? a
  | dictOf a b => match unhashable? a with
    | some u => some u
    | none => unhashable? b
  | tupleOf as => firstUnhashable? as
  | union as => firstUnhashable? as
  | literal vs => vs.findSome? fun v => match v.digest? with
    | .ok _ => none
    | .error u => some u
  | _ => none

/-- The first value without a hash among the literals of some hints. -/
def firstUnhashable? : List Hint → Option Value.Unhashable
  | [] => none
  | a :: as => match unhashable? a with
    | some u => some u
    | none => firstUnhashable? as

end

/-- Why some hints have no union: there are none, or a literal among them has no hash. -/
inductive UnionFault
  | empty
  | unhashable (u : Value.Unhashable)
  deriving Repr

def UnionFault.message : UnionFault → Text
  | empty => "Cannot take a Union of no types."
  | unhashable u => u.message

/-- A value of one of some types, if these have a union. -/
def union? (hs : List Hint) : Except UnionFault Hint :=
  match hs, firstUnhashable? hs with
  | [], _ => .error .empty
  | _, some u => .error (.unhashable u)
  | hs, none => .ok (unionOf hs)

/-- Null or a value of a type, if this may stand in a union. -/
def optional? (h : Hint) : Except UnionFault Hint := union? [h, nullType]

def list (element : Hint) : Hint := listOf element.inner

/-- A mapping with keys and values of given types. -/
def dict (key value : Hint) : Hint := dictOf key.inner value.inner

/-- A tuple with elements of given types. -/
def tuple (elements : List Hint) : Hint := tupleOf (elements.map inner)

/-- One of some values. -/
def oneOf (values : List Value) : Hint :=
  literal (values.foldl (fun kept v => if kept.any (sameLiteral v) then kept else kept ++ [v]) [])

/-! ## Names -/

/-- The outermost type of a hint, and whether it is one that holds for all programs. -/
def head : Hint → String × Bool
  | listOf _ => ("List", false)
  | dictOf _ _ => ("Dict", false)
  | tupleOf _ => ("Tuple", false)
  | union [a, b] => (if alike nullType a || alike nullType b then "Optional" else "Union", false)
  | union _ => ("Union", false)
  | literal _ => ("Literal", false)
  | any => ("Any", false)
  | h => (h.atomName?.getD "", true)

/-- The outermost type of a hint, in full or in short. -/
def label (full : Bool) (h : Hint) : Text :=
  let (name, plain) := h.head
  if full && !plain then "typing." ++ (name : Text) else name

def applied (name : String) (parameters : List Text) : Text :=
  if parameters.isEmpty then name
  else (name : Text) ++ "[" ++ Text.joined ", " parameters ++ "]"

mutual

def name (h : Hint) : Text :=
  match h with
  | listOf a => applied h.head.1 [name a]
  | dictOf a b => applied h.head.1 [name a, name b]
  | tupleOf as => applied h.head.1 (names as)
  | union as => applied h.head.1 (names as)
  | literal vs => applied h.head.1 (vs.map Value.written)
  | h => h.head.1

def names : List Hint → List Text
  | [] => []
  | h :: hs => name h :: names hs

end

end Hint

end Btf
