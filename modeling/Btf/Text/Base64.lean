import Btf.Text

/-!
# Bytes in base 64

Three bytes are written as four digits of six bits each; an equals sign fills up a group at the end.

* `Base64.digit?`: the value of a digit;
* `Base64.decode?`: **the bytes that are written**, in which all but digits and signs is skipped.
-/

namespace Btf.Base64

/-- The value of a digit: letters, decimal digits, and two signs. -/
def digit? (n : Nat) : Option Nat :=
  if 65 ≤ n ∧ n ≤ 90 then some (n - 65)
  else if 97 ≤ n ∧ n ≤ 122 then some (n - 71)
  else if 48 ≤ n ∧ n ≤ 57 then some (n + 4)
  else if n = 43 then some 62
  else if n = 47 then some 63
  else none

/-- The bytes that are written after `place` digits of a group, of which the bits in `held` have not
become a byte, and after `fill` equals signs. -/
def decodeFrom? (place held fill : Nat) : Text → Option (List UInt8)
  | [] => if place = 0 then some [] else none
  | c :: t =>
    if c.val = 61 then
      if place < 2 then decodeFrom? place held fill t
      else if 4 ≤ place + fill + 1 then some []
      else decodeFrom? place held (fill + 1) t
    else
      match digit? c.val with
      | none => decodeFrom? place held fill t
      | some d =>
        if place = 0 then decodeFrom? 1 d 0 t
        else
          let bits := 64 * held + d
          let left := 6 - 2 * place
          (decodeFrom? ((place + 1) % 4) (bits % (1 <<< left)) 0 t).map
            ((bits >>> left).toUInt8 :: ·)

/-- **The bytes that are written in a text**, which has to end with a group. -/
def decode? (t : Text) : Option (List UInt8) := decodeFrom? 0 0 0 t

end Btf.Base64
