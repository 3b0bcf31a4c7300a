import Btf.Text.Utf8

/-!
# UTF-16

Code units of two bytes in either order; a pair of surrogates is one character.

* `Utf16.unit`: the code unit of two bytes;
* `Utf16.step`: the next character of a byte sequence.
-/

namespace Btf.Utf16

/-- The code unit of two bytes, least significant byte first when `little`. -/
def unit (little : Bool) (a b : UInt8) : Nat :=
  if little then a.toNat + 256 * b.toNat else 256 * a.toNat + b.toNat

/-- The first half of a pair. -/
def isHigh (u : Nat) : Bool := decide (0xD800 ≤ u) && decide (u < 0xDC00)

/-- The second half of a pair. -/
def isLow (u : Nat) : Bool := decide (0xDC00 ≤ u) && decide (u < 0xE000)

/-- The code point of a pair. -/
def pair (high low : Nat) : CodePoint :=
  codePoint (0x10000 + (high - 0xD800) * 0x400 + (low - 0xDC00))

/-- The next character of the bytes `a :: rest`. A high half at the end takes all bytes that are
left with it. -/
def step (little : Bool) (a : UInt8) : List UInt8 → Step
  | [] => .bad .truncated 0
  | b :: rest =>
    let u := unit little a b
    if isHigh u then
      match rest with
      | c :: d :: _ =>
        let v := unit little c d
        if isLow v then .char (pair u v) 3 else .bad .lonelyHigh 1
      | _ => .bad .unexpectedEnd (1 + rest.length)
    else if isLow u then .bad .lonelyLow 1
    else .char (codePoint u) 1

end Btf.Utf16
