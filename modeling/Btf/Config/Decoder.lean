import Btf.Config.Layers
import Btf.Decode.Name

/-!
# Options of the decoder

* `ConfigKind.decoder`: which options there are, and their defaults;
* `DecoderOptions`, `Config.decoderOptions`: the options that a configuration sets.
-/

namespace Btf

def ConfigKind.decoder : ConfigKind where
  name := "BTFParserConf"
  schema :=
    { name := "btf-parser-conf"
      help := "BTF decoder options"
      keys :=
        [{ name := "string-encoding"
           help := "Codec used to decode the string table entries"
           types := [.str]
           validator? := some .codec },
         { name := "string-errors"
           help := "Codec error handler used when a string cannot be decoded, such as \"strict\" or \"replace\""
           types := [.str]
           validator? := some .handler },
         { name := "use-mmap"
           help := "Map BTF files in memory instead of reading them"
           types := [.bool] }] }
  defaults := .map
    [("string-encoding", .str "utf-8"), ("string-errors", .str "replace"), ("use-mmap", .bool true)]

/-- The options of the decoder. -/
structure DecoderOptions where
  text : TextOptions := {}
  map : Bool := true
  deriving DecidableEq, Repr

namespace Config

/-- The text that a configuration has for a key, if any. -/
def textOf (c : Config) (key default : Text) : Text :=
  match c.get key with
  | .ok (.str t) => t
  | _ => default

def decoderOptions (c : Config) : DecoderOptions where
  text :=
    { encoding := c.textOf "string-encoding" "utf-8"
      errors := c.textOf "string-errors" "replace" }
  map := match c.get "use-mmap" with
    | .ok v => v.isTrue
    | _ => true

end Config

end Btf
