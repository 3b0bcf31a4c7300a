import Btf.Text.Base64
import Btf.Yaml.Date
import Btf.Yaml.Defect

/-!
# Scalars

A scalar without quotes is null, a truth value, a number, a date or text, by the way it is spelled;
a tag may tell instead what it is. A spelling may be that of a number and yet stand for none, such as
a sign before an underscore.

* `Form`, `Form.ofTag`: what a node is taken for, and what a tag says of it;
* `isWhole`, `isDecimal`: the spellings of numbers, in which digits may be grouped by underscores;
* `Form.ofSpelling`: **what a scalar is taken for**;
* `wholeNumber`, `decimalNumber`, `scalarValue`: **what it stands for**.
-/

namespace Btf.Yaml

/-! ## Forms -/

/-- What a node is taken for; a merge is a key whose value is put into the mapping around it, and
a lone equals sign is the key of what stands for the whole mapping. -/
inductive Form
  | null
  | bool
  | decimal
  | whole
  | merge
  | timestamp
  | equals
  | text
  | binary
  | sequence
  | pairs
  | orderedMap
  | set
  | mapping
  | unknown
  deriving DecidableEq, Repr, Inhabited

def commonTag : Text := "tag:yaml.org,2002:"

/-- The forms that tags tell, by the ends of the tags. -/
def Form.tags : List (String × Form) :=
  [("null", .null), ("bool", .bool), ("float", .decimal), ("int", .whole), ("merge", .merge),
    ("timestamp", .timestamp), ("value", .equals), ("str", .text), ("binary", .binary),
    ("seq", .sequence), ("pairs", .pairs), ("omap", .orderedMap), ("set", .set), ("map", .mapping)]

def Form.ofTag (tag : Text) : Form :=
  ((tags.find? fun n => commonTag ++ (n.1 : Text) == tag).map Prod.snd).getD .unknown

/-! ## Spellings -/

/-- Digits and the underscores between them. -/
def isGrouped (digit : Char → Bool) (c : Char) : Bool := digit c || c == '_'

/-- Digits of base eight. -/
def isOctal (c : Char) : Bool := decide ('0' ≤ c) && decide (c ≤ '7')

/-- Digits of base two. -/
def isBinary (c : Char) : Bool := c == '0' || c == '1'

/-- Digits of base sixteen. -/
def isHex (c : Char) : Bool :=
  c.isDigit || (decide ('a' ≤ c) && decide (c ≤ 'f')) || (decide ('A' ≤ c) && decide (c ≤ 'F'))

def signed : List Char → Bool × List Char
  | '-' :: cs => (true, cs)
  | '+' :: cs => (false, cs)
  | cs => (false, cs)

/-- One digit at least, which an underscore may stand for. -/
def areGrouped (digit : Char → Bool) (cs : List Char) : Bool :=
  !cs.isEmpty && cs.all (isGrouped digit)

def colonParts : List Char → List (List Char)
  | [] => [[]]
  | c :: cs =>
    match c == ':', colonParts cs with
    | true, parts => [] :: parts
    | false, part :: parts => (c :: part) :: parts
    | false, [] => [[c]]

/-- A digit of base sixty, which is written in base ten. -/
def isSixtieth : List Char → Bool
  | [c] => c.isDigit
  | [b, c] => decide ('0' ≤ b) && decide (b ≤ '5') && c.isDigit
  | _ => false

/-- Digits of base sixty between colons, the first of which is any number that begins with a digit
other than those of `zeros`. -/
def areSixtieths (zeros : List Char) (cs : List Char) : Bool :=
  match colonParts cs with
  | (d :: ds) :: part :: parts =>
    d.isDigit && !zeros.contains d && ds.all (isGrouped Char.isDigit) &&
      (part :: parts).all isSixtieth
  | _ => false

/-- Grouped digits of a base, after the mark of the base unless that is ten. -/
def isUnsignedWhole : List Char → Bool
  | '0' :: 'b' :: cs => areGrouped isBinary cs
  | '0' :: 'o' :: cs => areGrouped isOctal cs
  | '0' :: 'x' :: cs => areGrouped isHex cs
  | cs => areGrouped Char.isDigit cs

/-- Grouped digits of a base in the old edition, in which a zero marks the base eight and there are
numbers of base sixty. -/
def isOldUnsignedWhole : List Char → Bool
  | '0' :: 'b' :: cs => areGrouped isBinary cs
  | '0' :: 'x' :: cs => areGrouped isHex cs
  | cs =>
    areGrouped isOctal cs || (cs.head? ≠ some '0' && cs.head? ≠ some '_' &&
      areGrouped Char.isDigit cs) || areSixtieths ['0'] cs

def isWhole (e : Edition) (cs : List Char) : Bool :=
  let us := (signed cs).2
  cs.head? ≠ some '_' && if e.isOld then isOldUnsignedWhole us else isUnsignedWhole us

/-- An exponent, whose sign may have to be written. -/
def isExponent (mustSign : Bool) : List Char → Bool
  | e :: cs =>
    let rest := match cs with
      | '-' :: ds | '+' :: ds => ds
      | ds => if mustSign then [] else ds
    (e == 'e' || e == 'E') && !rest.isEmpty && rest.all Char.isDigit
  | [] => false

/-- The spellings of unsigned numbers with a point or an exponent. -/
def isUnsignedDecimal (cs : List Char) : Bool :=
  let grouped := isGrouped Char.isDigit
  match cs.takeWhile grouped, cs.dropWhile grouped with
  | [], '.' :: rest =>
    let exponent := rest.dropWhile grouped
    !(rest.takeWhile grouped).isEmpty && (exponent.isEmpty || isExponent true exponent)
  | d :: _, '.' :: rest =>
    let exponent := rest.dropWhile grouped
    d.isDigit && (exponent.isEmpty || isExponent false exponent)
  | d :: _, exponent => d.isDigit && isExponent false exponent
  | [], _ => false

/-- The spellings of numbers that are not finite: what is no number has no sign. -/
def isSpecial (cs : List Char) : Bool :=
  [".inf", ".Inf", ".INF"].contains (String.ofList (signed cs).2) ||
    [".nan", ".NaN", ".NAN"].contains (String.ofList cs)

/-- The spellings of numbers with a point or an exponent; in the old edition the point has no sign
before it, and there are numbers of base sixty with a point. -/
def isDecimal (e : Edition) (cs : List Char) : Bool :=
  let us := (signed cs).2
  if e.isOld then
    let fraction := us.dropWhile (· ≠ '.')
    let atPoint := us.head? == some '.'
    isSpecial cs || (isUnsignedDecimal us && (!atPoint || cs.head? == some '.')) ||
      (!fraction.isEmpty && (fraction.drop 1).all (isGrouped Char.isDigit) &&
        areSixtieths [] (us.takeWhile (· ≠ '.')))
  else isSpecial cs || isUnsignedDecimal us

def truthWords : List (String × Bool) :=
  [("true", true), ("false", false), ("yes", true), ("no", false), ("y", true), ("n", false),
    ("on", true), ("off", false)]

/-- The spellings of truth values: in lower case, in upper case, or with a capital letter. In the
present edition there are only two words. -/
def isTruthValue (e : Edition) (s : String) : Bool :=
  let words := (if e.isOld then truthWords else truthWords.take 2).map Prod.fst
  words.any fun w => s == w || s == w.toUpper || s == w.capitalize

def Form.ofString (e : Edition) (s : String) : Form :=
  let cs := s.toList
  if isTruthValue e s then .bool
  else if isDecimal e cs then .decimal
  else if isWhole e cs then .whole
  else if s == "<<" then .merge
  else if ["", "~", "null", "Null", "NULL"].contains s then .null
  else if isTimestamp cs then .timestamp
  else if s == "=" then .equals
  else .text

/-- **What a scalar without quotes is taken for.** -/
def Form.ofSpelling (e : Edition) (t : Text) : Form :=
  match t.toString? with
  | some s => ofString e s
  | none => .text

/-! ## Numbers -/

def spelling (cs : List Char) : Text := Text.ofString (String.ofList cs)

/-- Characters without space around them. -/
def withoutSpace (cs : List Char) : List Char :=
  ((cs.dropWhile Char.isWhitespace).reverse.dropWhile Char.isWhitespace).reverse

def isDigitOf (base : Nat) (c : Char) : Bool := isHex c && decide (digitValue c < base)

/-- What follows the mark of a base that is not ten. -/
def withoutMark (base : Nat) : List Char → List Char
  | '0' :: c :: ds =>
    let marks := [(2, 'b'), (8, 'o'), (16, 'x')]
    if marks.contains (base, c.toLower) then ds else '0' :: c :: ds
  | ds => ds

/-- The whole number that is written in a base; space may stand around it, and a sign and the mark
of the base before the digits. -/
def inBase (base : Nat) (cs : List Char) : Except Defect Int :=
  let (negative, ds) := signed (withoutSpace cs)
  let ds := withoutMark base ds
  let count := (ds.takeWhile (isDigitOf base)).length
  if base = 10 ∧ Defect.digitLimit < count then .error (.tooManyDigits count)
  else if ds.isEmpty || count ≠ ds.length then .error (.digits base (spelling cs))
  else
    let n : Int := ds.foldl (fun n d => base * n + digitValue d) (0 : Nat)
    .ok (if negative then -n else n)

/-- A whole number as it is written in the old edition only: a zero marks the base eight, and the
digits of base sixty stand between colons. -/
def oldNumber : List Char → Except Defect Int
  | [] => .error .noDigits
  | c :: cs =>
    if c = '0' then inBase 8 (c :: cs)
    else ((colonParts (c :: cs)).mapM (inBase 10)).map fun parts =>
      parts.foldl (fun n part => 60 * n + part) 0

/-- What is left of a spelling when the underscores are left out. -/
def ungrouped (cs : List Char) : List Char := cs.filter (· ≠ '_')

/-- **The whole number that is spelled.** -/
def wholeNumber (e : Edition) (cs : List Char) : Except Defect Int :=
  match ungrouped cs with
  | [] => .error .noDigits
  | us => do
    let (negative, us) := signed us
    let n ← match us with
      | '0' :: 'b' :: ds => inBase 2 ds
      | '0' :: 'x' :: ds => inBase 16 ds
      | '0' :: 'o' :: ds => inBase 8 ds
      | us => if e.isOld then oldNumber us else inBase 10 us
    return if negative then -n else n

/-- The number that is written in base ten with a point or an exponent. -/
def pointNumber (cs : List Char) : Except Defect Binary64 :=
  match Binary64.parse? (String.ofList (withoutSpace cs)) with
  | some x => .ok x
  | none => .error (.decimal (spelling cs))

/-- The number of the digits of base sixty, the last of which comes first. -/
def sixtieths (unit : Nat) (sum : Binary64) : List Binary64 → Binary64
  | [] => sum
  | x :: xs => sixtieths (60 * unit) (sum.plus (x.times unit)) xs

/-- **The number with a point or an exponent that is spelled.** -/
def decimalNumber (e : Edition) (cs : List Char) : Except Defect Binary64 :=
  match (ungrouped cs).map Char.toLower with
  | [] => .error .noDigits
  | us => do
    let (negative, us) := signed us
    let x ← if us = ".inf".toList then pure (.infinite false)
      else if us = ".nan".toList then pure .nan
      else if e.isOld && us.contains ':' then
        pure (sixtieths 1 (.finite false 0 (-1074)) (← (colonParts us).mapM pointNumber).reverse)
      else pointNumber us
    return if negative then x.negated else x

/-! ## Values -/

/-- **What a scalar of a form stands for**; a collection, a merge or an equals sign is none. -/
def scalarValue (e : Edition) (form : Form) (t : Text) : Except Defect Value :=
  let cs := ((t.toString?).map String.toList).getD []
  match form with
  | .null => .ok .null
  | .bool =>
    let word := String.ofList (cs.map Char.toLower)
    match truthWords.lookup word with
    | some b => .ok (.bool b)
    | none => .error (.truthValue (Text.ofString word))
  | .decimal => (decimalNumber e cs).map .float
  | .whole => (wholeNumber e cs).map .int
  | .timestamp =>
    match spelled? cs with
    | some s => ((timestampOf s).map .timestamp).mapError .timestamp
    | none => .error .malformed
  | .binary =>
    match t.all fun c => decide (c.val < 0x80), Base64.decode? t with
    | true, some bytes => .ok (.bytes bytes)
    | _, _ => .error .malformed
  | .text => .ok (.str t)
  | .merge | .equals | .sequence | .pairs | .orderedMap | .set | .mapping | .unknown =>
    .error .malformed

end Btf.Yaml
