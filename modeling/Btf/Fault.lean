import Btf.Header
import Btf.Source
import Btf.Text.Decoding
import Btf.TypeInfo

/-!
# Why decoding fails

* `Violation`: what is wrong with an entry;
* `Fault`: why decoding stops: at the byte source, at a magic number, at a name, or at an entry;
* `Fault.report?`: the report of a fault. A released mapping and a codec or handler that cannot be
  used are no faults of the blob and have none.
-/

namespace Btf

/-- What is wrong with an entry. -/
inductive Violation
  | unsupportedKind (number : Nat)
  | intFields
  | intSize (size : Nat)
  | intEncoding (bits : Nat)
  | intWidth (bits size : Nat)
  | intPlace (bits offset size : Nat)
  | refFields (kind : RefKind)
  | arrayFields
  | typedefFields
  | enumFields
  | enumEmpty
  | enumSize (size : Nat)
  | enumAnonymous
  | funcProtoFields
  | fwdFields
  | funcFields
  deriving DecidableEq, Repr

namespace Violation

/-- The code of a violation. -/
def code : Violation → ErrorCode
  | unsupportedKind _ => .invalidBtfKind
  | intFields | intSize _ | intEncoding _ | intWidth .. | intPlace .. => .invalidIntEncoding
  | refFields .ptr | refFields .const => .invalidPtrEncoding
  | refFields .volatile => .invalidVolatileEncoding
  | arrayFields => .invalidArrayEncoding
  | typedefFields => .invalidTypedefEncoding
  | enumFields | enumEmpty | enumSize _ | enumAnonymous => .invalidEnumEncoding
  | funcProtoFields => .invalidFuncProtoEncoding
  | fwdFields => .invalidFwdEncoding
  | funcFields => .invalidFuncEncoding

def details : Violation → Text
  | unsupportedKind n =>
    "Unsupported BTF kind " ++ Text.decimal n ++ " (" ++
      ((Kind.formatName? n).getD "unknown" : Text) ++ ")"
  | intFields => "kind_flag and vlen must be 0"
  | intSize n | enumSize n => "Invalid size: " ++ Text.decimal n
  | intEncoding b => "Conflicting int encoding: 0x" ++ Text.hexDigits 1 b
  | intWidth bits size =>
    Text.decimal bits ++ " bits do not fit in " ++ Text.decimal size ++ " bytes"
  | intPlace bits offset size =>
    Text.decimal bits ++ " bits at offset " ++ Text.decimal offset ++ " do not fit in " ++
      Text.decimal size ++ " bytes"
  | refFields _ => "name_off, kind_flag and vlen must be 0"
  | arrayFields => "name_off, kind_flag, vlen and size must be 0"
  | typedefFields => "Typedef must be named, kind_flag and vlen must be 0"
  | enumFields => "kind_flag must be 0"
  | enumEmpty => "Enum has no enumerator"
  | enumAnonymous => "Anonymous enumerator"
  | funcProtoFields => "name_off and kind_flag must be 0"
  | fwdFields => "Forward declaration must be named, vlen and size must be 0"
  | funcFields => "Function must be named, kind_flag and vlen must be 0"

end Violation

/-- Why decoding stops. -/
inductive Fault
  | source (fault : SourceFault)
  | magic (value : Nat)
  | undecodable (offset : Int) (length : Nat) (run : Undecodable)
  | codec (fault : CodecFault)
  | invalid (entry : Nat) (head : TypeHeader) (what : Violation)
  | overrun (entry reached : Nat) (sectionEnd : Int)
  deriving DecidableEq, Repr

namespace Fault

def report? : Fault → Option (Report ErrorCode)
  | source f => f.report?.map fun r => Report.ofSource ⟨some r.code, r.range, r.details⟩
  | magic n => some ⟨.invalidMagicValue, none,
      some ("Not a BTF binary blob, invalid magic: 0x" ++ Text.hexDigits 4 n)⟩
  | undecodable offset length run => some ⟨.unknown, some ⟨offset, (length : Int) + 1⟩,
      some ("Could not decode string: " ++ run.message)⟩
  | codec _ => none
  | invalid entry head what =>
    some ⟨what.code, some ⟨entry, (TypeHeader.size + head.payloadSize : Nat)⟩, some what.details⟩
  | overrun entry reached sectionEnd =>
    some ⟨.ioError, some ⟨entry, (reached : Int) - entry⟩,
      some ("Entry overruns the end of the type section at offset " ++ Text.decimal sectionEnd)⟩

def message (f : Fault) : Text :=
  match f, f.report? with
  | _, some r => r.text ErrorCode.name
  | source f, none => f.message
  | codec f, none => f.message
  | _, none => []

end Fault

end Btf
