import Btf.Text.Utf16

/-!
# Codecs

The character encodings that names can be in, and the names they go by.

* `Codec`, `Codec.isText`: the known codecs, and whether they decode bytes to text;
* `Codec.normal`: the spelling under which a codec name is looked up;
* `Codec.find?`: the codec of a name;
* `Scheme`, `Codec.plan`: one character at a time, and where in the bytes to begin.
-/

namespace Btf

/-- The known codecs: those by which names are commonly decoded, three that do not decode to text and one
that decodes nothing. There are others, which are not known here. -/
inductive Codec
  | utf8
  | utf8Sig
  | ascii
  | latin1
  | cp1252
  | utf16
  | utf16le
  | utf16be
  | hex
  | rot13
  | base64
  | undefined
  deriving DecidableEq, Repr

/-- Decoding of one character at a time. -/
inductive Scheme
  | utf8
  | ascii
  | latin1
  | cp1252
  | utf16 (little : Bool)
  deriving DecidableEq, Repr

namespace Scheme

/-- The name of a scheme in messages. -/
def label : Scheme → String
  | utf8 => "utf-8"
  | ascii => "ascii"
  | latin1 => "latin-1"
  | cp1252 => "charmap"
  | utf16 true => "utf-16-le"
  | utf16 false => "utf-16-be"

/-- The code points of the bytes `0x80` to `0x9F` in code page 1252, zero for the undefined ones. -/
def cp1252High : List Nat :=
  [0x20AC, 0, 0x201A, 0x192, 0x201E, 0x2026, 0x2020, 0x2021, 0x2C6, 0x2030, 0x160, 0x2039, 0x152,
    0, 0x17D, 0, 0, 0x2018, 0x2019, 0x201C, 0x201D, 0x2022, 0x2013, 0x2014, 0x2DC, 0x2122, 0x161,
    0x203A, 0x153, 0, 0x17E, 0x178]

/-- The character of a byte in code page 1252. -/
def cp1252Step (b : UInt8) : Step :=
  let n := b.toNat
  if 0x80 ≤ n ∧ n < 0xA0 then
    match cp1252High.getD (n - 0x80) 0 with
    | 0 => .bad .undefinedByte 0
    | c => .char (codePoint c) 0
  else .char (codePoint n) 0

/-- The next character of the bytes `b :: rest`. -/
def step : Scheme → UInt8 → List UInt8 → Step
  | utf8, b, rest => Utf8.step b rest
  | ascii, b, _ => if b.toNat < 0x80 then .char (codePoint b.toNat) 0 else .bad .notAscii 0
  | latin1, b, _ => .char (codePoint b.toNat) 0
  | cp1252, b, _ => cp1252Step b
  | utf16 little, b, rest => Utf16.step little b rest

/-- The surrogate written at the bytes `b :: rest`, with the number of bytes after the first. -/
def surrogate? : Scheme → UInt8 → List UInt8 → Option (CodePoint × Nat)
  | utf8, b, c :: d :: _ =>
    if b.toNat = 0xED ∧ 0xA0 ≤ c.toNat ∧ c.toNat ≤ 0xBF ∧ 0x80 ≤ d.toNat ∧ d.toNat ≤ 0xBF then
      some (codePoint (0xD000 + c.toNat % 64 * 64 + d.toNat % 64), 2)
    else none
  | utf16 little, b, c :: _ =>
    let u := Utf16.unit little b c
    if Utf16.isHigh u || Utf16.isLow u then some (codePoint u, 1) else none
  | _, _, _ => none

end Scheme

namespace Codec

/-- Codecs that turn bytes into text. -/
def isText : Codec → Bool
  | hex | rot13 | base64 => false
  | _ => true

/-- Letters, digits and dots count in the name of a codec. -/
def isNameByte (b : UInt8) : Bool :=
  let n := b.toNat
  (48 ≤ n && n ≤ 57) || (65 ≤ n && n ≤ 90) || (97 ≤ n && n ≤ 122) || n == 46

def lowerByte (b : UInt8) : Char :=
  let n := b.toNat
  Char.ofNat (if 65 ≤ n ∧ n ≤ 90 then n + 32 else n)

/-- The normal spelling, given whether a run of other bytes is pending and what stands already. -/
def normalFrom (pending : Bool) (done : List Char) : List UInt8 → List Char
  | [] => done.reverse
  | b :: rest =>
    if isNameByte b then
      normalFrom false (lowerByte b :: if pending && !done.isEmpty then '_' :: done else done) rest
    else normalFrom true done rest

/-- The spelling under which a name is looked up: letters in lower case, and every run of other
characters than letters, digits and dots an underscore, dropped at both ends. -/
def normal (name : Text) : String := String.ofList (normalFrom false [] (Utf8.encode name))

/-- The names of the codecs other than their own. -/
def aliases : List (String × Codec) :=
  [("u8", utf8), ("utf", utf8), ("utf8", utf8), ("utf8_ucs2", utf8), ("utf8_ucs4", utf8),
    ("cp65001", utf8),
    ("646", ascii), ("ansi_x3.4_1968", ascii), ("ansi_x3_4_1968", ascii), ("ansi_x3.4_1986", ascii),
    ("cp367", ascii), ("csascii", ascii), ("ibm367", ascii), ("iso646_us", ascii),
    ("iso_646.irv_1991", ascii), ("iso_ir_6", ascii), ("us", ascii), ("us_ascii", ascii),
    ("8859", latin1), ("cp819", latin1), ("csisolatin1", latin1), ("ibm819", latin1),
    ("iso8859", latin1), ("iso8859_1", latin1), ("iso_8859_1", latin1),
    ("iso_8859_1_1987", latin1), ("iso_ir_100", latin1), ("l1", latin1), ("latin", latin1),
    ("latin1", latin1),
    ("1252", cp1252), ("windows_1252", cp1252),
    ("u16", utf16), ("utf16", utf16), ("unicodelittleunmarked", utf16le), ("utf_16le", utf16le),
    ("unicodebigunmarked", utf16be), ("utf_16be", utf16be),
    ("hex", hex), ("rot13", rot13), ("base64", base64), ("base_64", base64)]

/-- The codecs under their own names. -/
def names : List (String × Codec) :=
  [("utf_8", utf8), ("utf_8_sig", utf8Sig), ("ascii", ascii), ("latin_1", latin1),
    ("cp1252", cp1252), ("utf_16", utf16), ("utf_16_le", utf16le), ("utf_16_be", utf16be),
    ("hex_codec", hex), ("rot_13", rot13), ("base64_codec", base64), ("undefined", undefined)]

/-- The codec of a name among the known ones; the name of any other codec is taken for unknown. A dot may
stand for an underscore in all names but the codecs' own. -/
def find? (name : Text) : Option Codec :=
  let key := normal name
  let undotted := String.ofList (key.toList.map fun c => if c = '.' then '_' else c)
  (aliases.lookup key).or ((aliases.lookup undotted).or (names.lookup key))

/-- Names whose codec decodes without a lookup, so that its faults are reported as they are. -/
def isDirect (name : Text) : Bool :=
  ["utf8", "utf_8", "utf16", "utf_16", "ascii", "us_ascii", "latin1", "latin_1", "iso8859_1",
    "iso_8859_1"].contains (normal name)

/-- How a text codec reads `bytes`: the scheme, the number of bytes to skip at the start, and the
position that the next byte then has in messages. -/
def plan : Codec → List UInt8 → Option (Scheme × Nat × Nat)
  | utf8, _ => some (.utf8, 0, 0)
  | utf8Sig, 0xEF :: 0xBB :: 0xBF :: _ => some (.utf8, 3, 0)
  | utf8Sig, _ => some (.utf8, 0, 0)
  | ascii, _ => some (.ascii, 0, 0)
  | latin1, _ => some (.latin1, 0, 0)
  | cp1252, _ => some (.cp1252, 0, 0)
  | utf16, 0xFF :: 0xFE :: _ => some (.utf16 true, 2, 2)
  | utf16, 0xFE :: 0xFF :: _ => some (.utf16 false, 2, 2)
  | utf16, _ => some (.utf16 true, 0, 0)
  | utf16le, _ => some (.utf16 true, 0, 0)
  | utf16be, _ => some (.utf16 false, 0, 0)
  | _, _ => none

end Codec

end Btf
