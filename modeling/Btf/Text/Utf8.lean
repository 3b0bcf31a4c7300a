import Btf.Text

/-!
# UTF-8

One character at a time: `Utf8.step` looks at the bytes from a first byte on and finds either the
code point they begin with or the longest run of bytes that begins no character.

* `Step`: a character or a run of bytes that is none, with the number of bytes after the first;
* `Utf8.Lead`, `Utf8.lead`: what the first byte of a sequence says of the rest;
* `Utf8.step`: the next character of a byte sequence;
* `Utf8.encode`: the bytes of a text (surrogates written like any other code point).
-/

namespace Btf

/-- Why bytes stand for no character. -/
inductive BadBytes
  | invalidStart
  | invalidContinuation
  | unexpectedEnd
  | notAscii
  | undefinedByte
  | truncated
  | lonelyHigh
  | lonelyLow
  deriving DecidableEq, Repr

def BadBytes.message : BadBytes → String
  | invalidStart => "invalid start byte"
  | invalidContinuation => "invalid continuation byte"
  | unexpectedEnd => "unexpected end of data"
  | notAscii => "ordinal not in range(128)"
  | undefinedByte => "character maps to <undefined>"
  | truncated => "truncated data"
  | lonelyHigh => "illegal UTF-16 surrogate"
  | lonelyLow => "illegal encoding"

/-- What a decoder finds at a byte: a character or bytes that stand for none. In both cases `more`
counts the bytes that belong to it after the first one. -/
inductive Step
  | char (c : CodePoint) (more : Nat)
  | bad (why : BadBytes) (more : Nat)
  deriving DecidableEq, Repr

namespace Utf8

/-- How a first byte begins a sequence: the number of bytes that follow, the bounds of the first of
them, and the bits of the code point it holds itself. -/
structure Lead where
  follow : Nat
  low : Nat
  high : Nat
  bits : Nat
  deriving DecidableEq, Repr

/-- The sequences of UTF-8 by their first byte: no overlong form, no surrogate, nothing above
`0x10FFFF`. -/
def lead (b : Nat) : Option Lead :=
  if b < 0x80 then some ⟨0, 0, 0, b⟩
  else if b < 0xC2 then none
  else if b < 0xE0 then some ⟨1, 0x80, 0xBF, b - 0xC0⟩
  else if b = 0xE0 then some ⟨2, 0xA0, 0xBF, 0⟩
  else if b = 0xED then some ⟨2, 0x80, 0x9F, 0xD⟩
  else if b < 0xF0 then some ⟨2, 0x80, 0xBF, b - 0xE0⟩
  else if b = 0xF0 then some ⟨3, 0x90, 0xBF, 0⟩
  else if b < 0xF4 then some ⟨3, 0x80, 0xBF, b - 0xF0⟩
  else if b = 0xF4 then some ⟨3, 0x80, 0x8F, 4⟩
  else none

/-- Read the `follow` bytes after the first: the next one lies between `low` and `high`, later ones
between `0x80` and `0xBF`. -/
def follow : (follow low high bits seen : Nat) → List UInt8 → Step
  | 0, _, _, bits, seen, _ => .char (codePoint bits) seen
  | _ + 1, _, _, _, seen, [] => .bad .unexpectedEnd seen
  | n + 1, low, high, bits, seen, b :: rest =>
    if low ≤ b.toNat ∧ b.toNat ≤ high then
      follow n 0x80 0xBF (bits * 64 + b.toNat % 64) (seen + 1) rest
    else .bad .invalidContinuation seen

/-- The next character of the bytes `b :: rest`. -/
def step (b : UInt8) (rest : List UInt8) : Step :=
  match lead b.toNat with
  | none => .bad .invalidStart 0
  | some l => follow l.follow l.low l.high l.bits 0 rest

def encodePoint (c : CodePoint) : List UInt8 :=
  let n := c.val
  if n < 0x80 then [n.toUInt8]
  else if n < 0x800 then [(0xC0 + n / 64).toUInt8, (0x80 + n % 64).toUInt8]
  else if n < 0x10000 then
    [(0xE0 + n / 4096).toUInt8, (0x80 + n / 64 % 64).toUInt8, (0x80 + n % 64).toUInt8]
  else
    [(0xF0 + n / 262144).toUInt8, (0x80 + n / 4096 % 64).toUInt8, (0x80 + n / 64 % 64).toUInt8,
      (0x80 + n % 64).toUInt8]

def encode (t : Text) : List UInt8 := t.flatMap encodePoint

end Utf8

end Btf
