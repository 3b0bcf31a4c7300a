import Btf.Fault
import Btf.Source.Consumption

/-!
# The layout of a blob

The magic number at the start of a blob tells its byte order, and the header its sections. Versions
and flags are not interpreted.

* `Header.magicNumber`, `Read.detectOrder`: the byte order of a blob;
* `Read.header`, `Read.typeHeader`: the headers of a blob and of an entry;
* `Layout`, `Read.layout`: what has to be known before entries are read;
* **`Read.consumes_typeHeader`**: the head of an entry takes twelve bytes.
-/

namespace Btf

/-- The first word of a blob, in its byte order. -/
def Header.magicNumber : Nat := 0xEB9F

/-- The magic number read in the wrong byte order. -/
def Header.magicSwapped : Nat := 0x9FEB

/-- The byte order and the header of a blob. -/
structure Layout where
  order : ByteOrder
  header : Header
  deriving DecidableEq, Repr

namespace Read

/-- Find the byte order of the blob and read in it from now on. -/
def detectOrder : Read Fault ByteOrder := do
  (seek 0).mapError .source
  setOrder .little
  let magic ← u16.mapError .source
  if magic = Header.magicNumber then
    setOrder .little
    return .little
  else if magic = Header.magicSwapped then
    setOrder .big
    return .big
  else throw (.magic magic)

def headerFields : Read SourceFault Header := do
  let magic ← u16
  let version ← u8
  let flags ← u8
  let headerSize ← u32
  let typeOffset ← u32
  let typeSize ← u32
  let stringOffset ← u32
  let stringSize ← u32
  return { magic, version, flags, headerSize, typeOffset, typeSize, stringOffset, stringSize }

def header : Read Fault Header := mapError .source do
  seek 0
  headerFields

/-- The byte order and the header of the blob. -/
def layout : Read Fault Layout := do
  let order ← detectOrder
  let header ← header
  return { order, header }

/-- The head of the entry at the cursor. -/
def typeHeader : Read Fault TypeHeader := mapError .source do
  let nameOffset ← u32
  let info ← u32
  let sizeOrType ← u32
  return .ofWords nameOffset info sizeOrType

/-- **The head of an entry takes twelve bytes.** -/
theorem consumes_typeHeader : Consumes TypeHeader.size typeHeader :=
  .mapError _ <| (consumes_word 4).bind fun _ => (consumes_word 4).bind fun _ =>
    (consumes_word 4).bind fun _ => .pure _

end Read

end Btf
