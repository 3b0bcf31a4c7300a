import Btf.Text.Quoted
import Btf.Value

/-!
# Defects of documents

* `Edition`: the editions of the rules of documents;
* `Defect`: why a text has no value;
* `Defect.message`: such a defect in words, which a text that breaks the rules of documents does
  not have, nor an ordered map in which a key stands twice.
-/

namespace Btf.Yaml

/-- An edition of the rules of documents. A document may name the one that it follows. -/
structure Edition where
  major : Nat := 1
  minor : Nat := 2
  deriving DecidableEq, Repr

namespace Edition

/-- The edition with more spellings of truth values and numbers than the present one. -/
def isOld (e : Edition) : Bool := e == { major := 1, minor := 1 }

/-- Only two editions say what a scalar is taken for. -/
def isKnown (e : Edition) : Bool := e.isOld || e == {}

end Edition

/-- Why a text has no value: it breaks a rule of documents, or something in it has a form without
having a meaning. -/
inductive Defect
  | malformed
  | codePoint (n : Nat)
  | digits (base : Nat) (spelling : Text)
  | tooManyDigits (count : Nat)
  | decimal (spelling : Text)
  | noDigits
  | truthValue (spelling : Text)
  | edition (e : Edition)
  | timestamp (fault : TimestampFault)
  | unhashable (u : Value.Unhashable)
  | repeatedKey
  deriving DecidableEq, Repr

namespace Defect

/-- The most digits with which a whole number is read or written in base ten. -/
def digitLimit : Nat := 4300

/-- The most code points of a spelling in quotes that a message shows. -/
def shownLimit : Nat := 200

/-- The number of a code point does not even fit into a word. -/
def isOverflow : Defect → Bool
  | codePoint n => decide (1 <<< 31 ≤ n)
  | timestamp .shift => true
  | _ => false

def message (d : Defect) : Text :=
  match d with
  | malformed | repeatedKey => []
  | codePoint _ =>
    if d.isOverflow then "Python int too large to convert to C int"
    else "chr() arg not in range(0x110000)"
  | digits base spelling =>
    "invalid literal for int() with base " ++ Text.decimal base ++ ": " ++
      spelling.quoted.take shownLimit
  | tooManyDigits count =>
    "Exceeds the limit (" ++ Text.decimal digitLimit ++
      " digits) for integer string conversion: value has " ++ Text.decimal count ++
      " digits; use sys.set_int_max_str_digits() to increase the limit"
  | decimal spelling => "could not convert string to float: " ++ spelling.quoted
  | noDigits => "string index out of range"
  | truthValue spelling => spelling.quoted
  | edition e => "(" ++ Text.decimal e.major ++ ", " ++ Text.decimal e.minor ++ ")"
  | timestamp fault => fault.message
  | unhashable u => u.message

end Defect

end Btf.Yaml
