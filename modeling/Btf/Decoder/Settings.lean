import Btf.Decoder

/-!
# Settings

Options are said by values, from which a configuration is made, or by a configuration as it is. A
configuration may lack an option, which is found out when the option is needed: whether to map a file
before it is opened, and how to decode names once the header of a blob has been read.

* `Buffer`, `Input.ofBuffer`: bytes in memory, and a blob that is given as such;
* `Settings`, `Settings.make`: how options are said, and the configuration with them;
* `Config.textOptions`, `Config.mapOption`: the options of a configuration, if it has them;
* `Config.tableFrom`, `Config.table`: the table of a blob with a configuration;
* `Settings.decode`: **the table of a blob** with settings.
-/

namespace Btf

/-- Bytes in memory: held as such, whether or not they can be changed, or seen through a view at some
places of others. -/
inductive Buffer
  | fixed (bytes : Bytes)
  | changeable (bytes : Bytes)
  | view (base : Bytes) (places : List (Fin base.size))

/-- The bytes of a buffer; those that a view shows are copied. -/
def Buffer.content : Buffer → Bytes
  | fixed bytes | changeable bytes => bytes
  | view base places => (places.map fun i => base[i]).toArray

/-- A blob that is given as a buffer. -/
def Input.ofBuffer (buffer : Buffer) : Input := .memory buffer.content

/-- How options are said. -/
inductive Settings
  | value (v : Value)
  | config (c : Config)

/-- The configuration that settings say. -/
def Settings.make : Settings → Logged ConfigFault Config
  | value v => Config.make .decoder v Config.userLayer true
  | config c => pure c

namespace Config

/-- The codec and the error handler of names, of which a configuration has to have both. -/
def textOptions (c : Config) : Except ConfigFault TextOptions := do
  let _ ← c.get "string-encoding"
  let _ ← c.get "string-errors"
  return c.decoderOptions.text

/-- Whether files are mapped. -/
def mapOption (c : Config) : Except ConfigFault Bool := do
  let _ ← c.get "use-mmap"
  return c.decoderOptions.map

/-- The table of a blob from any state of its cursor. The configuration is asked how to decode names
after the layout has been found. -/
def tableFrom (config : Config) (s : Source) (c : Cursor) : Logged DecoderFault Table :=
  match Read.layout.run s c with
  | (.error fault, _) => throw (.blob fault)
  | (.ok layout, c) => do
    Logged.note (.layoutFound layout)
    let options ← Logged.lift (config.textOptions.mapError .config)
    let names : Names := { header := layout.header, options }
    let infos ← Logged.lift ((names.typeSection.run s c).1.mapError .blob)
    let types := TypeEntry.numbered infos
    Logged.note (.decoded types.length)
    return { header := layout.header, types }

/-- The table of a blob with a configuration. -/
def table (config : Config) : Input → Logged DecoderFault Table
  | .memory bytes => config.tableFrom { bytes } {}
  | .reader source cursor => config.tableFrom source cursor
  | .file folder path failure => do
    let map ← Logged.lift (config.mapOption.mapError .config)
    let (source, cursor) ← (folder.openFile path map failure).mapError fun e => .blob (.source e)
    config.tableFrom source cursor

end Config

/-- **The table of a blob** with settings. -/
def Settings.decode (settings : Settings) (input : Input) : Logged DecoderFault Table := do
  let config ← settings.make.mapError .config
  config.table input

end Btf
