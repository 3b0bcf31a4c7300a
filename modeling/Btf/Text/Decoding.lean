import Btf.Text.Codec

/-!
# Decoding of bytes to text

A codec splits bytes into characters and runs that are none; a handler says what becomes of such a
run. `Text.decode` takes both by name, as a configuration gives them.

* `Handler`, `Handler.find?`, `Handler.repair`: the error policies;
* `Undecodable`: the run of bytes at which a strict reading stops;
* `CodecFault`: a codec or handler that cannot be used at all;
* `Text.decode`: the text of a byte string.

Nothing is looked up for the empty string, and a handler only at the first bad run.
-/

namespace Btf

/-- What becomes of bytes that stand for no character. -/
inductive Handler
  | strict
  | replace
  | ignore
  | backslash
  | surrogateEscape
  | surrogatePass
  | characterReference
  | characterName
  deriving DecidableEq, Repr

/-- Bytes that stand for no character: `stop` is the position after the last of them, `first` the
first one. -/
structure Undecodable where
  scheme : Scheme
  start : Nat
  stop : Nat
  first : UInt8
  why : BadBytes
  deriving DecidableEq, Repr

/-- A codec or handler that cannot be used; `surrogates` are those in a name, which stand one after
the other from a position on, and `within name fault` is a fault met while the codec of that name was
decoding. -/
inductive CodecFault
  | nulInName
  | surrogates (position : Nat) (run : Text)
  | unknownCodec (name : Text)
  | notText (name : Text)
  | undefinedCodec
  | unknownHandler (name : Text)
  | encodingOnly
  | within (name : Text) (fault : CodecFault)
  deriving DecidableEq, Repr

/-- Why bytes could not be decoded. -/
inductive DecodeFault
  | undecodable (run : Undecodable)
  | codec (fault : CodecFault)
  deriving DecidableEq, Repr

namespace Handler

def names : List (String × Handler) :=
  [("strict", strict), ("replace", replace), ("ignore", ignore), ("backslashreplace", backslash),
    ("surrogateescape", surrogateEscape), ("surrogatepass", surrogatePass),
    ("xmlcharrefreplace", characterReference), ("namereplace", characterName)]

def find? (name : Text) : Option Handler :=
  name.toString?.bind fun s => names.lookup s

/-- What a handler makes of a bad run: text in its place and the number of bytes after the first
that it stands for. A handler that makes nothing of it leaves the reading to fail. -/
inductive Repair
  | text (t : Text) (more : Nat)
  | refuse
  | unfit
  deriving DecidableEq, Repr

/-- A byte as `\x` and two digits. -/
def escapedByte (b : UInt8) : Text := "\\x" ++ Text.hexDigits 2 b.toNat

/-- Deal with the bad run of `more` bytes after the first in `b :: rest`. -/
def repair (h : Handler) (s : Scheme) (more : Nat) (b : UInt8) (rest : List UInt8) : Repair :=
  match h with
  | strict => .refuse
  | replace => .text [codePoint 0xFFFD] more
  | ignore => .text [] more
  | backslash => .text ((b :: rest.take more).flatMap escapedByte) more
  | surrogateEscape =>
    match (b :: rest.take more).takeWhile (fun b => 0x80 ≤ b.toNat) with
    | [] => .refuse
    | escaped => .text (escaped.map fun b => codePoint (0xDC00 + b.toNat)) (escaped.length - 1)
  | surrogatePass =>
    match s.surrogate? b rest with
    | some (c, more) => .text [c] more
    | none => .refuse
  | characterReference | characterName => .unfit

end Handler

namespace Undecodable

/-- A run of bytes in words. -/
def message (u : Undecodable) : Text :=
  let what := if u.stop = u.start + 1 then
      "byte 0x" ++ Text.hexDigits 2 u.first.toNat ++ " in position " ++ Text.decimal u.start
    else "bytes in position " ++ Text.decimal u.start ++ "-" ++ Text.decimal (u.stop - 1 : Nat)
  "'" ++ (u.scheme.label : Text) ++ "' codec can't decode " ++ what ++ ": " ++
    (u.why.message : Text)

end Undecodable

namespace Text

/-- Decode `bytes` with scheme `s`, where the first of them has position `pos`; `done` is what
stands already, last character first. -/
def decodeFrom (s : Scheme) (handler : Text) (pos : Nat) (done : Text) :
    List UInt8 → Except DecodeFault Text
  | [] => .ok done.reverse
  | b :: rest =>
    match s.step b rest with
    | .char c more => decodeFrom s handler (pos + 1 + more) (c :: done) (rest.drop more)
    | .bad why more =>
      match Handler.find? handler with
      | none => .error (.codec (.unknownHandler handler))
      | some h =>
        match h.repair s more b rest with
        | .text t more => decodeFrom s handler (pos + 1 + more) (t.reverse ++ done) (rest.drop more)
        | .refuse => .error (.undecodable ⟨s, pos, pos + 1 + more, b, why⟩)
        | .unfit => .error (.codec .encodingOnly)
termination_by bytes => bytes.length
decreasing_by all_goals simp only [List.length_drop, List.length_cons]; omega

/-- Decode with a text codec that goes by the name `encoding`. -/
def decodeWith (codec : Codec) (encoding errors : Text) (bytes : List UInt8) :
    Except DecodeFault Text :=
  let outcome := match codec.plan bytes with
    | some (s, skip, pos) => decodeFrom s errors pos [] (bytes.drop skip)
    | none => .error (.codec .undefinedCodec)
  match outcome with
  | .error (.codec fault) =>
    .error (.codec (if Codec.isDirect encoding then fault else .within encoding fault))
  | outcome => outcome

/-- Why a name cannot be the name of anything, if so: surrogates in it are told before code point
zero. -/
def nameFault? (name : Text) : Option CodecFault :=
  match name.dropWhile fun c => !c.isSurrogate with
  | [] => if name.hasNul then some .nulInName else none
  | rest => some (.surrogates (name.length - rest.length) (rest.takeWhile CodePoint.isSurrogate))

/-- **The text of a byte string** in the codec and with the error handler of the given names. -/
def decode (encoding errors : Text) (bytes : List UInt8) : Except DecodeFault Text :=
  match nameFault? encoding <|> nameFault? errors with
  | some fault => .error (.codec fault)
  | none =>
    if bytes.isEmpty then .ok []
    else
      match Codec.find? encoding with
      | none => .error (.codec (.unknownCodec encoding))
      | some codec =>
        if codec.isText then decodeWith codec encoding errors bytes
        else .error (.codec (.notText encoding))

end Text

namespace CodecFault

/-- The part of a name that messages show: its first 400 bytes in UTF-8. -/
def shown (name : Text) : Text :=
  match Text.decodeFrom .utf8 "replace" 0 [] ((Utf8.encode name).take 400) with
  | .ok t => t
  | .error _ => []

/-- The class of a fault, as messages name it. -/
def category : CodecFault → String
  | nulInName => "ValueError"
  | surrogates .. => "UnicodeEncodeError"
  | unknownCodec _ | notText _ | unknownHandler _ => "LookupError"
  | undefinedCodec => "UnicodeError"
  | encodingOnly => "TypeError"
  | within _ fault => fault.category

def message : CodecFault → Text
  | nulInName => "embedded null character"
  | surrogates position run =>
    let what : Text := match run with
      | [c] => "character '\\u" ++ Text.hexDigits 4 c.val ++ "' in position " ++
        Text.decimal position
      | run => "characters in position " ++ Text.decimal position ++ "-" ++
        Text.decimal (position + run.length - 1 : Nat)
    "'utf-8' codec can't encode " ++ what ++ ": surrogates not allowed"
  | unknownCodec name => "unknown encoding: " ++ name
  | notText name =>
    "'" ++ shown name ++ "' is not a text encoding; use codecs.decode() to handle arbitrary codecs"
  | undefinedCodec => "undefined encoding"
  | unknownHandler name => "unknown error handler name '" ++ shown name ++ "'"
  | encodingOnly => "don't know how to handle UnicodeDecodeError in error callback"
  | within name fault =>
    "decoding with '" ++ name ++ "' codec failed (" ++ (fault.category : Text) ++ ": " ++
      fault.message ++ ")"

end CodecFault

/-- Look up a codec among the known ones: the name of any other codec is refused, too. -/
def Codec.lookup (name : Text) : Except CodecFault Codec :=
  match Text.nameFault? name, Codec.find? name with
  | some fault, _ => .error fault
  | none, some c => .ok c
  | none, none => .error (.unknownCodec name)

/-- Look up an error handler. -/
def Handler.lookup (name : Text) : Except CodecFault Handler :=
  match Text.nameFault? name, Handler.find? name with
  | some fault, _ => .error fault
  | none, some h => .ok h
  | none, none => .error (.unknownHandler name)

end Btf
