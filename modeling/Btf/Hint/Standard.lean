import Btf.Hint.Checker
import Btf.Value.Written

/-!
# The standard checker

The checker that is used unless another one is given. A value fits a hint or fails at some place inside
of it, and the message of a failure tells the place.

* `Mismatch`, `Mismatch.text`: where and why a value fails;
* `Verdict`, `Hint.verdict`: whether a value fits a hint;
* `TypeChecker.standard`: **the checker with these verdicts**.
-/

namespace Btf

/-- A part of a value. -/
inductive Part
  | item (index : Nat)
  | key (key : Value)
  | valueOf (key : Value)
  deriving Repr

def Part.text : Part → Text
  | item i => "item " ++ Text.decimal i
  | key k => "key " ++ k.written
  | valueOf k => "value of key " ++ k.written

/-- Where and why a value fails. -/
inductive Mismatch
  | notInstance (type : String)
  | notKind (type : String)
  | notNumber
  | notBytes
  | notNull
  | notEmptyTuple
  | wrongSize (expected found : Nat)
  | notLiteral (values : List Value)
  | noAlternative (failures : List (Text × Mismatch))
  | inside (part : Part) (failure : Mismatch)
  deriving Repr

namespace Mismatch

/-- The place of a failure, innermost first. -/
def path : Mismatch → List Text
  | inside part failure => path failure ++ [part.text]
  | _ => []

/-- A place, if any, and what is wrong there. -/
def located (path : List Text) (reason : Text) : Text :=
  if path.isEmpty then reason else Text.joined " of " path ++ " " ++ reason

/-- Every line of a text two columns further to the right. -/
def indented (t : Text) : Text :=
  let newline := charPoint '\n'
  Text.joined [newline] ((t.splitOn newline).map fun line => "  " ++ line)

mutual

/-- What is wrong at the place of a failure. -/
def reason : Mismatch → Text
  | notInstance type => "is not an instance of " ++ (type : Text)
  | notKind type => "is not a " ++ (type : Text)
  | notNumber => "is neither float or int"
  | notBytes => "is not bytes-like"
  | notNull => "is not None"
  | notEmptyTuple => "is not an empty tuple"
  | wrongSize expected found =>
    "has wrong number of elements (expected " ++ Text.decimal expected ++ ", got " ++
      Text.decimal found ++ " instead)"
  | notLiteral values => "is not any of " ++
      Value.bracketed "(" ")" (values.map Value.written)
  | noAlternative failures =>
    "did not match any element in the union:\n" ++ indented (Text.joined "\n" (reasons failures))
  | inside _ failure => reason failure

/-- What is wrong with each alternative. -/
def reasons : List (Text × Mismatch) → List Text
  | [] => []
  | (name, failure) :: rest =>
    (name ++ ": " ++ located failure.path (reason failure)) :: reasons rest

end

/-- A failure of the value that is called `subject`. -/
def text (subject : Text) (m : Mismatch) : Text := located (m.path ++ [subject]) m.reason

end Mismatch

def Value.subject (v : Value) : Text :=
  match v with
  | .null => "None"
  | v => v.typeLabel

/-- A value fits, or fails at some place, or cannot be checked. -/
inductive Verdict
  | fits
  | fails (mismatch : Mismatch)
  | undefined (failure : Failure)
  deriving Repr, Inhabited

namespace Verdict

/-- The verdict on a value from one on a part of it. -/
def inside (part : Part) : Verdict → Verdict
  | fails m => fails (.inside part m)
  | v => v

/-- The verdict `v` and, if that is `fits`, the next one. -/
def andThen (v : Verdict) (next : Unit → Verdict) : Verdict :=
  match v with
  | fits => next ()
  | v => v

/-- Failure with `m` unless `p`. -/
def require (p : Bool) (m : Mismatch) : Verdict := if p then fits else fails m

end Verdict

namespace Hint

/-- Check the elements of a list from index `i` on. -/
def checkItems (check : Value → Verdict) (i : Nat) : List Value → Verdict
  | [] => .fits
  | v :: vs => ((check v).inside (.item i)).andThen fun _ => checkItems check (i + 1) vs

/-- Check the entries of a mapping, the key of each before its value. -/
def checkEntries (key value : Value → Verdict) : List (Value × Value) → Verdict
  | [] => .fits
  | (k, v) :: es => ((key k).inside (.key k)).andThen fun _ =>
    ((value v).inside (.valueOf k)).andThen fun _ => checkEntries key value es

def isLegalLiteral : Value → Bool
  | .null | .bool _ | .int _ | .str _ | .bytes _ => true
  | _ => false

/-- Check that a value is one of some values. -/
def checkLiteral (values : List Value) (v : Value) : Verdict :=
  match values.find? fun w => !isLegalLiteral w with
  | some w => .undefined (.ofType ("Illegal literal value: " ++ w.shown))
  | none => .require (values.any (sameLiteral v)) (.notLiteral values)

mutual

/-- Check a value against a hint. -/
def verdict (strategy : CheckStrategy) : Hint → Value → Verdict
  | any, _ => .fits
  | null, v => match v with
    | .null => .fits
    | _ => .fails .notNull
  | nullType, v => match v with
    | .null => .fits
    | _ => .fails (.notInstance "NoneType")
  | int, v => match v with
    | .int _ | .bool _ => .fits
    | _ => .fails (.notInstance "int")
  | str, v => match v with
    | .str _ => .fits
    | _ => .fails (.notInstance "str")
  | bool, v => match v with
    | .bool _ => .fits
    | _ => .fails (.notInstance "bool")
  | float, v => match v with
    | .float _ | .int _ | .bool _ => .fits
    | _ => .fails .notNumber
  | bytes, v => match v with
    | .bytes _ => .fits
    | _ => .fails .notBytes
  | anyList, v => match v with
    | .list _ => .fits
    | _ => .fails (.notKind "list")
  | anyDict, v => .require v.entries?.isSome (.notKind "dict")
  | listOf element, v => match v with
    | .list vs => checkItems (fun v => verdict strategy element v) 0 (strategy.items vs)
    | _ => .fails (.notKind "list")
  | dictOf key value, v => match v.entries? with
    | some es => checkEntries (fun v => verdict strategy key v) (fun v => verdict strategy value v)
        (strategy.items es)
    | none => .fails (.notKind "dict")
  | tupleOf elements, v => match v with
    | .tuple vs =>
      if elements.isEmpty then .require vs.isEmpty .notEmptyTuple
      else if vs.length = elements.length then verdictEach strategy elements 0 vs
      else .fails (.wrongSize elements.length vs.length)
    | _ => .fails (.notKind "tuple")
  | union as, v => verdictSome strategy as v []
  | literal values, v => checkLiteral values v

/-- Check values, the first of which has index `i`, against the hints at the same places. -/
def verdictEach (strategy : CheckStrategy) : List Hint → Nat → List Value → Verdict
  | [], _, _ => .fits
  | h :: hs, i, vs => match vs with
    | [] => .fits
    | v :: vs => ((verdict strategy h v).inside (.item i)).andThen fun _ =>
      verdictEach strategy hs (i + 1) vs

/-- Check a value against alternatives; `failures` are those of the alternatives before. -/
def verdictSome (strategy : CheckStrategy) : List Hint → Value → List (Text × Mismatch) → Verdict
  | [], _, failures => .fails (.noAlternative failures)
  | h :: hs, v, failures => match verdict strategy h v with
    | .fits => .fits
    | .fails m => verdictSome strategy hs v (failures ++ [(h.name, m)])
    | .undefined failure => .undefined failure

end

end Hint

/-- **The checker with these verdicts.** No hint here names a type that is not known. -/
def TypeChecker.standard : TypeChecker where
  check v h _ strategy := match h.verdict strategy v with
    | .fits => .ok ()
    | .fails m => .error (.mismatch (m.text v.subject))
    | .undefined failure => .error (.other failure)

end Btf
