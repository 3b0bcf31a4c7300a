import Btf.Config.Decoder
import Btf.Config.File
import Btf.Decoder
import Btf.Decoder.Settings
import Btf.Logging.Facility
import Btf.Logging.Setup
import Btf.Proofs.Bounds
import Btf.Proofs.ByteOrder
import Btf.Proofs.Config.Documents
import Btf.Proofs.Config.Export
import Btf.Proofs.Config.History
import Btf.Proofs.Config.InPlace
import Btf.Proofs.Config.KeyNames
import Btf.Proofs.Config.Precedence
import Btf.Proofs.Footprint
import Btf.Proofs.Handlers
import Btf.Proofs.Hint.Meaning
import Btf.Proofs.Image
import Btf.Proofs.InStep
import Btf.Proofs.Indexing
import Btf.Proofs.Origins
import Btf.Proofs.Payload
import Btf.Proofs.Progress
import Btf.Proofs.Record.Closed
import Btf.Proofs.Record.Equality
import Btf.Proofs.Record.WriteOnce
import Btf.Proofs.Reports
import Btf.Proofs.Section.Split
import Btf.Proofs.Session
import Btf.Proofs.Strings
import Btf.Proofs.Trailing
import Btf.Proofs.Validity
import Btf.Proofs.WellFormed
import Btf.Record.OfType
import Btf.Version
import Btf.Yaml.Document
