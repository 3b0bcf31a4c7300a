import Btf.Text

/-!
# Error reports

A failure is reported by a code, the bytes it is about and details in words.

* `SourceCode`, `ErrorCode`: the codes of byte sources and of the decoder;
* `Report`, `Report.text`: a report and its line of text;
* `Report.ofSource`: a report of a byte source as one of the decoder.
-/

namespace Btf

/-- The bytes `offset`, …, `offset + size - 1` of a blob. -/
structure ByteRange where
  offset : Int
  size : Int
  deriving DecidableEq, Repr

/-- The codes with which a byte source fails. -/
inductive SourceCode
  | unknown
  | memoryAllocationFailure
  | fileNotFound
  | ioError
  deriving DecidableEq, Repr

namespace SourceCode

def name : SourceCode → String
  | unknown => "UNKNOWN"
  | memoryAllocationFailure => "MEMORY_ALLOCATION_FAILURE"
  | fileNotFound => "FILE_NOT_FOUND"
  | ioError => "IO_ERROR"

def all : List SourceCode := [unknown, memoryAllocationFailure, fileNotFound, ioError]

def ofName? (s : String) : Option SourceCode := all.find? fun c => c.name == s

end SourceCode

/-- The codes with which decoding fails: those of byte sources and one for each kind of entry. -/
inductive ErrorCode
  | unknown
  | memoryAllocationFailure
  | fileNotFound
  | ioError
  | invalidMagicValue
  | invalidBtfKind
  | invalidIntEncoding
  | invalidPtrEncoding
  | invalidArrayEncoding
  | invalidTypedefEncoding
  | invalidEnumEncoding
  | invalidFuncProtoEncoding
  | invalidVolatileEncoding
  | invalidFwdEncoding
  | invalidFuncEncoding
  | invalidStructUnionEncoding
  deriving DecidableEq, Repr

namespace ErrorCode

/-- The codes in the order of their numbers. -/
def all : List ErrorCode :=
  [unknown, memoryAllocationFailure, fileNotFound, ioError, invalidMagicValue, invalidBtfKind,
    invalidIntEncoding, invalidPtrEncoding, invalidArrayEncoding, invalidTypedefEncoding,
    invalidEnumEncoding, invalidFuncProtoEncoding, invalidVolatileEncoding, invalidFwdEncoding,
    invalidFuncEncoding, invalidStructUnionEncoding]

def number (c : ErrorCode) : Nat := all.idxOf c

def name : ErrorCode → String
  | unknown => "UNKNOWN"
  | memoryAllocationFailure => "MEMORY_ALLOCATION_FAILURE"
  | fileNotFound => "FILE_NOT_FOUND"
  | ioError => "IO_ERROR"
  | invalidMagicValue => "INVALID_MAGIC_VALUE"
  | invalidBtfKind => "INVALID_BTF_KIND"
  | invalidIntEncoding => "INVALID_INT_ENCODING"
  | invalidPtrEncoding => "INVALID_PTR_ENCODING"
  | invalidArrayEncoding => "INVALID_ARRAY_ENCODING"
  | invalidTypedefEncoding => "INVALID_TYPEDEF_ENCODING"
  | invalidEnumEncoding => "INVALID_ENUM_ENCODING"
  | invalidFuncProtoEncoding => "INVALID_FUNC_PROTO_ENCODING"
  | invalidVolatileEncoding => "INVALID_VOLATILE_ENCODING"
  | invalidFwdEncoding => "INVALID_FWD_ENCODING"
  | invalidFuncEncoding => "INVALID_FUNC_ENCODING"
  | invalidStructUnionEncoding => "INVALID_STRUCT_UNION_ENCODING"

def ofName? (s : String) : Option ErrorCode := all.find? fun c => c.name == s

/-- The code of a byte source as one of the decoder. -/
def ofSource : SourceCode → ErrorCode
  | .unknown => unknown
  | .memoryAllocationFailure => memoryAllocationFailure
  | .fileNotFound => fileNotFound
  | .ioError => ioError

end ErrorCode

/-- A failure with a code, the bytes it is about and details, where there are any. -/
structure Report (γ : Type) where
  code : γ
  range : Option ByteRange := none
  details : Option Text := none
  deriving DecidableEq, Repr

namespace Report

/-- The line of a report, with `name` for its code: empty details are left out. -/
def text {γ : Type} (name : γ → String) (r : Report γ) : Text :=
  let place : Text := match r.range with
    | some b =>
      " at offset " ++ Text.decimal b.offset ++ " (size=" ++ Text.decimal b.size ++ ")"
    | none => []
  let details : Text := match r.details with
    | some (c :: t) => ": " ++ c :: t
    | _ => []
  (name r.code : Text) ++ place ++ details

/-- A report of a byte source as one of the decoder; one without a code has the code `unknown`. -/
def ofSource (r : Report (Option SourceCode)) : Report ErrorCode :=
  { code := (r.code.map ErrorCode.ofSource).getD .unknown, range := r.range, details := r.details }

end Report

end Btf
