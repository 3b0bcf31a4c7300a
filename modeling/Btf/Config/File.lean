import Btf.Config.Layers
import Btf.Source.File

/-!
# Configurations from files

* `Loader`: what makes a document of the bytes of a file;
* `ConfigFileFault`: why there is no configuration from a file;
* `Config.documentOf`: the document in a file;
* `Config.ofFile`: **the configuration in a file**.
-/

namespace Btf

/-- What makes a document of the bytes of a file, unless they have a defect. -/
abbrev Loader (δ : Type) := Bytes → Except δ Value

/-- Why there is no configuration from a file: there is no file, it holds no document, or the
configuration is refused. -/
inductive ConfigFileFault (δ : Type)
  | file (fault : SourceFault)
  | document (defect : δ)
  | config (fault : ConfigFault)

namespace Config

variable {δ : Type}

/-- The document in a file. -/
def documentOf (load : Loader δ) (folder : Folder) (path : Text) :
    Except (ConfigFileFault δ) Value := do
  (load (← (folder.find path).mapError .file)).mapError .document

/-- **The configuration in a file**, under the name of the schema. -/
def ofFile (load : Loader δ) (kind : ConfigKind) (folder : Folder) (path : Text)
    (withDefaults : Bool) : Logged (ConfigFileFault δ) Config := do
  let document ← Logged.lift (documentOf load folder path)
  (ofDocument kind document withDefaults).mapError .config

end Config

end Btf
