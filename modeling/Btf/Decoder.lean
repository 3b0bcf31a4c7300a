import Btf.Config.Decoder
import Btf.Source.File
import Btf.Table

/-!
# The decoder

A blob is given as bytes, as a reader in any state, or as a file, together with a configuration.

* `Input`: where the blob comes from;
* `DecoderFault`: the configuration or the blob is refused;
* `Input.table`: the table of a blob, with options that are known to be valid;
* `decode`: **the table of a blob** with a configuration, which is checked before a file is opened;
* `cursorAfter`: where decoding leaves a reader.
-/

namespace Btf

/-- Where a blob comes from. -/
inductive Input
  | memory (bytes : Bytes)
  | reader (source : Source) (cursor : Cursor)
  | file (folder : Folder) (path : Text) (failure : Option MapFailure)

/-- Why there is no table. -/
inductive DecoderFault
  | config (fault : ConfigFault)
  | blob (fault : Fault)

/-- The table of a blob, with options that are known to be valid. -/
def Input.table (options : DecoderOptions) : Input → Logged Fault Table
  | memory bytes => (Table.decode options.text { bytes } {}).1
  | reader source cursor => (Table.decode options.text source cursor).1
  | file folder path failure => do
    let (source, cursor) ← (folder.openFile path options.map failure).mapError .source
    (Table.decode options.text source cursor).1

/-- The configuration of the decoder that a value says. -/
def DecoderOptions.configured (conf : Value) : Logged ConfigFault DecoderOptions := do
  return (← Config.make .decoder conf Config.userLayer true).decoderOptions

/-- **The table of a blob** with a configuration. -/
def decode (input : Input) (conf : Value) : Logged DecoderFault Table := do
  let options ← (DecoderOptions.configured conf).mapError .config
  (input.table options).mapError .blob

/-- The cursor of a reader after its blob has been decoded with a configuration. -/
def cursorAfter (source : Source) (cursor : Cursor) (conf : Value) : Cursor :=
  match (DecoderOptions.configured conf).outcome with
  | .ok options => (Table.decode options.text source cursor).2
  | .error _ => cursor

end Btf
