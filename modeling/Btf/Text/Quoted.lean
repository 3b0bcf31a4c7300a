import Btf.Text.Printable

/-!
# Quoted text

Text and byte strings between quotes, as values and messages show them.

* `quoteFor`: a double quote only where it saves escaping single ones;
* `Text.quoted`: a text between quotes;
* `Text.quotedBytes`: a byte string between quotes.
-/

namespace Btf.Text

/-- The quote around `t`: single unless `t` holds a single quote and no double one. -/
def quoteFor (t : List Nat) : Nat := if t.contains 39 && !t.contains 34 then 34 else 39

/-- A backslash, the letter `c` and the number `n` in `width` hexadecimal digits. -/
def numbered (c : String) (width n : Nat) : Text := "\\" ++ (c : Text) ++ hexDigits width n

def escaped (quote : Nat) (c : CodePoint) : Text :=
  let n := c.val
  if n = quote || n = 92 then codePoint 92 :: [c]
  else if n = 9 then "\\t"
  else if n = 10 then "\\n"
  else if n = 13 then "\\r"
  else if c.isPrintable then [c]
  else if n < 0x100 then numbered "x" 2 n
  else if n < 0x10000 then numbered "u" 4 n
  else numbered "U" 8 n

def quoted (t : Text) : Text :=
  let quote := quoteFor (t.map Fin.val)
  codePoint quote :: t.flatMap (escaped quote) ++ [codePoint quote]

/-- A byte that is quoted with `quote`: printable ASCII stands for itself. -/
def escapedByte (quote : Nat) (b : UInt8) : Text :=
  let n := b.toNat
  if n = quote || n = 92 then codePoint 92 :: [codePoint n]
  else if n = 9 then "\\t"
  else if n = 10 then "\\n"
  else if n = 13 then "\\r"
  else if 32 ≤ n && n < 127 then [codePoint n]
  else numbered "x" 2 n

/-- A byte string between quotes, after a `b`. -/
def quotedBytes (bytes : List UInt8) : Text :=
  let quote := quoteFor (bytes.map UInt8.toNat)
  "b" ++ (codePoint quote :: bytes.flatMap (escapedByte quote)) ++ [codePoint quote]

end Btf.Text
