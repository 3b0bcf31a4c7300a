import Btf.Text

/-!
# Binary floating-point numbers

The numbers `± m · 2 ^ q` of the 64-bit binary format, with exact arithmetic on `m` and `q` only.

* `Binary64`, `Binary64.ofQuotient`: the number nearest to a quotient, ties to even;
* `Binary64.times`, `Binary64.plus`: multiples and sums;
* `Binary64.parse?`: the number nearest to a decimal;
* `Binary64.shortest`: the decimal with the fewest digits that rounds to a number, and of those the
  nearest;
* `Binary64.text`: that decimal, positional from `10 ^ -4` up to `10 ^ 16`.
-/

namespace Btf

/-- A number of the 64-bit binary format. A finite one is `mantissa · 2 ^ exponent`, with
`mantissa < 2 ^ 53`, and `exponent = -1074` unless `2 ^ 52 ≤ mantissa`. -/
inductive Binary64
  | finite (negative : Bool) (mantissa : Nat) (exponent : Int)
  | infinite (negative : Bool)
  | nan
  deriving DecidableEq, Repr

namespace Binary64

/-- The whole number nearest to `num / den`; a tie goes to the even neighbour. -/
def nearest (num den : Nat) : Nat :=
  let q := num / den
  let r := num % den
  if 2 * r < den then q else if den < 2 * r then q + 1 else q + q % 2

/-- Numerator and denominator of `num / den / 2 ^ e`. -/
def scaled (num den : Nat) (e : Int) : Nat × Nat :=
  (num <<< (-e).toNat, den <<< e.toNat)

/-- The number nearest to `num / den`. -/
def ofQuotient (negative : Bool) (num den : Nat) : Binary64 :=
  if num = 0 then finite negative 0 (-1074)
  else
    let k : Int := num.log2 - den.log2
    let (a, b) := scaled num den k
    let e := max (if a < b then k - 53 else k - 52) (-1074)
    let (a, b) := scaled num den e
    let m := nearest a b
    let (m, e) := if m = 1 <<< 53 then (1 <<< 52, e + 1) else (m, e)
    if 971 < e then infinite negative else finite negative m e

/-- A number `n` times, for a positive `n`. -/
def times (x : Binary64) (n : Nat) : Binary64 :=
  match x with
  | finite negative m q => ofQuotient negative ((m * n) <<< q.toNat) (1 <<< (-q).toNat)
  | x => x

/-- A number with the other sign. -/
def negated : Binary64 → Binary64
  | finite negative m q => finite (!negative) m q
  | infinite negative => infinite (!negative)
  | nan => nan

/-- The sum of two numbers. -/
def plus : Binary64 → Binary64 → Binary64
  | finite a m q, finite b n r =>
    let e := min q r
    let x : Int := (m <<< (q - e).toNat : Nat)
    let y : Int := (n <<< (r - e).toNat : Nat)
    let sum := (if a then -x else x) + (if b then -y else y)
    if sum = 0 then finite (a && b) 0 (-1074)
    else ofQuotient (decide (sum < 0)) (sum.natAbs <<< e.toNat) (1 <<< (-e).toNat)
  | infinite a, infinite b => if a = b then infinite a else nan
  | infinite a, finite .. | finite .., infinite a => infinite a
  | _, _ => nan

def powerOfTen (n : Nat) : Nat := Nat.pow 10 n

/-- The number nearest to `digits · 10 ^ e`, where `digits` has `count` digits. -/
def ofDecimal (negative : Bool) (digits count : Nat) (e : Int) : Binary64 :=
  if digits = 0 then finite negative 0 (-1074)
  else if 400 < count + e then infinite negative
  else if count + e < -400 then finite negative 0 (-1074)
  else ofQuotient negative (digits * powerOfTen e.toNat) (powerOfTen (-e).toNat)

/-! ## Reading -/

/-- The value of a run of decimal digits after `value`. -/
def digitsValue (value : Nat) (ds : List Char) : Nat :=
  ds.foldl (fun v d => 10 * v + (d.toNat - 48)) value

/-- The exponent that ends a decimal: `e`, a sign and digits, or nothing. -/
def exponent? : List Char → Option Int
  | [] => some 0
  | c :: rest =>
    if c = 'e' ∨ c = 'E' then
      let (negative, ds) := match rest with
        | '-' :: ds => (true, ds)
        | '+' :: ds => (false, ds)
        | ds => (false, ds)
      if ds.isEmpty || !ds.all Char.isDigit then none
      else some (if negative then -(digitsValue 0 ds : Int) else digitsValue 0 ds)
    else none

/-- The number of an unsigned decimal. -/
def unsigned? (negative : Bool) (cs : List Char) : Option Binary64 :=
  match String.ofList (cs.map Char.toLower) with
  | "inf" | "infinity" => some (infinite negative)
  | "nan" => some nan
  | _ =>
    let whole := cs.takeWhile Char.isDigit
    let rest := cs.dropWhile Char.isDigit
    let (fraction, rest) := match rest with
      | '.' :: rest => (rest.takeWhile Char.isDigit, rest.dropWhile Char.isDigit)
      | rest => ([], rest)
    if whole.isEmpty && fraction.isEmpty then none
    else (exponent? rest).map fun e =>
      let digits := digitsValue (digitsValue 0 whole) fraction
      ofDecimal negative digits (Nat.toDigits 10 digits).length (e - fraction.length)

/-- The number of a decimal with an optional sign. -/
def parse? (s : String) : Option Binary64 :=
  match s.toList with
  | '-' :: cs => unsigned? true cs
  | '+' :: cs => unsigned? false cs
  | cs => unsigned? false cs

/-! ## The shortest decimal -/

/-- The exponent of the leading decimal digit of `num / den`. -/
def magnitude (num den : Nat) : Int :=
  if den ≤ num then ((Nat.toDigits 10 (num / den)).length : Int) - 1
  else -((Nat.toDigits 10 ((den + num - 1) / num - 1)).length : Int)

/-- Numerator and denominator of `num / den / 10 ^ p`. -/
def overTen (num den : Nat) (p : Int) : Nat × Nat :=
  (num * powerOfTen (-p).toNat, den * powerOfTen p.toNat)

/-- Search the decimals `d · 10 ^ p` from exponent `p` on downwards for one that lies between
`low / den` and `high / den`, with the ends if `closed`; of two next to `value / den` take the
nearer. After `n` more digits the search stops. -/
def search (low value high den : Nat) (closed : Bool) : Nat → Int → Nat × Int
  | 0, p => let (a, b) := overTen value den p; (nearest a b, p)
  | n + 1, p =>
    let (a, b) := overTen value den p
    let within (d : Nat) : Bool :=
      let (l, _) := overTen low den p
      let (h, _) := overTen high den p
      if closed then decide (l ≤ d * b ∧ d * b ≤ h) else decide (l < d * b ∧ d * b < h)
    let d := a / b
    match within d, within (d + 1) with
    | true, true => (nearest a b, p)
    | true, false => (d, p)
    | false, true => (d + 1, p)
    | false, false => search low value high den closed n (p - 1)

/-- Digits and exponent of the shortest decimal that rounds to `m · 2 ^ q`. -/
def shortest (m : Nat) (q : Int) : Nat × Int :=
  let (unit, den) := scaled 1 1 (2 - q)
  let low := if m = 1 <<< 52 ∧ -1074 < q then 4 * m - 1 else 4 * m - 2
  let value := 4 * m * unit
  search (low * unit) value ((4 * m + 2) * unit) den (m % 2 == 0) 16 (magnitude value den)

/-- Drop the zeros at the end of `d`, and raise the exponent for each. -/
def trimmed : Nat → Nat → Int → Nat × Int
  | 0, d, p => (d, p)
  | n + 1, d, p => if d % 10 = 0 ∧ d ≠ 0 then trimmed n (d / 10) (p + 1) else (d, p)

/-- The digits `ds` with the decimal point after the first `point` of them. -/
def positional (ds : String) (point : Int) : String :=
  let n : Int := ds.length
  if point ≤ 0 then "0." ++ String.ofList (List.replicate (-point).toNat '0') ++ ds
  else if n ≤ point then ds ++ String.ofList (List.replicate (point - n).toNat '0') ++ ".0"
  else String.ofList (ds.toList.take point.toNat) ++ "." ++
    String.ofList (ds.toList.drop point.toNat)

/-- The digits `ds` with a point after the first and the exponent `e`, which has two digits at
least. -/
def scientific (ds : String) (e : Int) : String :=
  let fraction := ds.toList.drop 1
  let point := if fraction.isEmpty then "" else "." ++ String.ofList fraction
  let exponent := toString e.natAbs
  String.ofList (ds.toList.take 1) ++ point ++ "e" ++ (if e < 0 then "-" else "+") ++
    (if exponent.length < 2 then "0" else "") ++ exponent

/-- The decimal `d · 10 ^ p`, positional when its leading digit stands between `10 ^ -4` and
`10 ^ 15`. -/
def decimalText (d : Nat) (p : Int) : String :=
  let (d, p) := trimmed 20 d p
  let ds := toString d
  let lead := p + ds.length - 1
  if -4 ≤ lead ∧ lead < 16 then positional ds (lead + 1) else scientific ds lead

def text : Binary64 → String
  | finite negative m q =>
    let body := if m = 0 then "0.0" else
      let (d, p) := shortest m q
      decimalText d p
    (if negative then "-" else "") ++ body
  | infinite negative => if negative then "-inf" else "inf"
  | nan => "nan"

end Binary64

end Btf
