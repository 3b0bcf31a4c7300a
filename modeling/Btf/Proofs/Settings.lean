import Btf.Decoder.Settings
import Btf.Proofs.Config.Precedence
import Btf.Proofs.Table

/-!
# What settings decode to

A configuration that is made from values has every option, so that a blob is decoded with it as with
the values themselves. A configuration of any other origin may lack options, which counts only once the
header of the blob has been read.

* `Config.textOptions_of_get`, `Config.mapOption_of_get`: the options of a configuration that has them;
* `Config.textOptions_of_make`, `Config.mapOption_of_make`: those of a configuration that is made;
* `Config.tableFrom_eq`: with options that are there a blob is decoded with these;
* `Config.outcome_tableFrom`, `Settings.outcome_decode`: outcomes without the log;
* `Input.bytes?`, `Settings.exists_table_of_ok`: the bytes and the options that a table comes from;
* **`Settings.decode_value`**: values decode a blob as the configuration that is made from them.
-/

namespace Btf

theorem Folder.appends_hold (path : Text) (bytes : Bytes) (map : Bool)
    (failure : Option MapFailure) : Logged.Appends (hold path bytes map failure) := by
  unfold hold
  split
  · exact Logged.appends_pure _
  · split
    · exact Logged.appends_pure _
    · split
      · exact (Logged.appends_note _).bind fun _ => Logged.appends_pure _
      · exact Logged.appends_throw _

theorem Folder.appends_openFile (folder : Folder) (path : Text) (map : Bool)
    (failure : Option MapFailure) : Logged.Appends (folder.openFile path map failure) :=
  (Logged.appends_lift _).bind fun _ => (appends_hold _ _ _ _).bind fun _ =>
    (Logged.appends_note _).bind fun _ => Logged.appends_pure _

namespace Config

variable {c config : Config} {v : Value}

theorem appends_make (kind : ConfigKind) (v : Value) (name : Text) (withDefaults : Bool) :
    Logged.Appends (make kind v name withDefaults) :=
  appends_addLayer.bind fun c => by
    split
    · exact appends_addLayer
    · exact Logged.appends_pure _

/-- The entries that a value says for the decoder, if it may be used as a configuration. -/
def checked (v : Value) : Except ConfigFault (List (Value × Value)) :=
  entriesOf v false >>= fun v => ConfigKind.decoder.schema.validate v

/-- A value that is no configuration is refused before anything is logged. -/
theorem result_make_of_error {e : ConfigFault} (h : checked v = .error e) :
    (make .decoder v userLayer true).result = (.error e, []) := by
  have hlayer : (addLayer { kind := .decoder } userLayer v false false).run [] = (.error e, []) := by
    show ((Logged.lift (checked v)) >>= _ : Logged ConfigFault Config).run [] = _
    rw [h]
    rfl
  rw [Logged.result, make, Logged.run_bind, hlayer]

/-- **Any other value makes a configuration**: the defaults are never refused. -/
theorem exists_make_of_checked {entries : List (Value × Value)} (h : checked v = .ok entries) :
    ∃ c, (make .decoder v userLayer true).outcome = .ok c := by
  obtain ⟨ds, hds⟩ : ∃ ds, checked ConfigKind.decoder.defaults = .ok ds := ⟨_, rfl⟩
  rw [outcome_make, outcome_addLayer]
  show ∃ c, ((checked v >>= _) >>= _) = .ok c
  rw [h, ok_bind, ok_bind]
  show ∃ c, (addLayer _ _ _ _ _).outcome = .ok c
  rw [outcome_addLayer]
  show ∃ c, (checked ConfigKind.decoder.defaults >>= _) = .ok c
  rw [hds, ok_bind]
  exact ⟨_, rfl⟩

theorem result_make_of_refused {e : ConfigFault}
    (h : (make .decoder v userLayer true).outcome = .error e) :
    (make .decoder v userLayer true).result = (.error e, []) := by
  cases hchecked : checked v with
  | error e' =>
    have hresult := result_make_of_error hchecked
    rw [Logged.outcome, hresult] at h
    cases h
    exact hresult
  | ok entries =>
    obtain ⟨c, hc⟩ := exists_make_of_checked hchecked
    rw [hc] at h
    cases h

/-! ## Options -/

/-- **Every key of the decoder has a value** in a configuration that is made. -/
theorem exists_get_of_make (key : Text) (h : (make .decoder v userLayer true).outcome = .ok c)
    (hkey : key ∈ ConfigKind.decoder.schema.keyNames) : ∃ w, c.get key = .ok w := by
  obtain ⟨w, -, hw⟩ := get_decoder_iff h hkey
  exact ⟨w, hw.mpr fun hname => absurd hname (by decide)⟩

/-- A configuration that has both options of names has these. -/
theorem textOptions_of_get (hencoding : ∃ w, c.get "string-encoding" = .ok w)
    (herrors : ∃ w, c.get "string-errors" = .ok w) : c.textOptions = .ok c.decoderOptions.text := by
  obtain ⟨encoding, hencoding⟩ := hencoding
  obtain ⟨errors, herrors⟩ := herrors
  rw [textOptions, hencoding, herrors]
  rfl

theorem mapOption_of_get (hmap : ∃ w, c.get "use-mmap" = .ok w) :
    c.mapOption = .ok c.decoderOptions.map := by
  obtain ⟨map, hmap⟩ := hmap
  rw [mapOption, hmap]
  rfl

theorem textOptions_of_make (h : (make .decoder v userLayer true).outcome = .ok c) :
    c.textOptions = .ok c.decoderOptions.text :=
  textOptions_of_get (exists_get_of_make "string-encoding" h (by decide))
    (exists_get_of_make "string-errors" h (by decide))

theorem mapOption_of_make (h : (make .decoder v userLayer true).outcome = .ok c) :
    c.mapOption = .ok c.decoderOptions.map :=
  mapOption_of_get (exists_get_of_make "use-mmap" h (by decide))

/-! ## Tables -/

/-- With options that are there a blob is decoded with these. -/
theorem tableFrom_eq {options : TextOptions} (h : config.textOptions = .ok options) (s : Source)
    (c : Cursor) : config.tableFrom s c = (Table.decode options s c).1.mapError .blob := by
  unfold tableFrom Table.decode
  rcases Read.layout.run s c with ⟨fault | layout, c'⟩
  · rfl
  · simp only [h, Logged.mapError_bind, Logged.mapError_note, Logged.mapError_lift,
      Logged.mapError_pure, Except.mapError, Logged.lift_ok, pure_bind]

theorem appends_tableFrom (config : Config) (s : Source) (c : Cursor) :
    Logged.Appends (config.tableFrom s c) := by
  unfold tableFrom
  split
  · exact Logged.appends_throw _
  · exact (Logged.appends_note _).bind fun _ => (Logged.appends_lift _).bind fun _ =>
      (Logged.appends_lift _).bind fun _ => (Logged.appends_note _).bind fun _ =>
        Logged.appends_pure _

/-- **The options of names are asked for once the header of a blob has been read.** -/
theorem outcome_tableFrom (config : Config) (s : Source) (c : Cursor) :
    (config.tableFrom s c).outcome = match Read.layout.run s c with
      | (.error fault, _) => .error (.blob fault)
      | (.ok layout, c) => config.textOptions.mapError .config >>= fun options =>
        ((Names.typeSection ⟨layout.header, options⟩).outcome s c).mapError .blob >>= fun infos =>
          .ok ⟨layout.header, TypeEntry.numbered infos⟩ := by
  have hdecoded : ∀ (layout : Layout) (infos : List TypeInfo), Logged.Appends (do
      Logged.note (.decoded (TypeEntry.numbered infos).length)
      return { header := layout.header, types := TypeEntry.numbered infos } :
        Logged DecoderFault Table) :=
    fun _ _ => (Logged.appends_note _).bind fun _ => Logged.appends_pure _
  unfold tableFrom
  rcases Read.layout.run s c with ⟨fault | layout, c'⟩
  · rfl
  · dsimp only
    rw [Logged.outcome_bind _ fun _ => (Logged.appends_lift _).bind fun _ =>
      (Logged.appends_lift _).bind fun _ => hdecoded _ _]
    show (Logged.lift _ >>= _).outcome = _
    rw [Logged.outcome_lift_bind]
    congr 1
    funext options
    exact Logged.outcome_lift_bind _ _

/-- There is a table if the configuration has the options of names and the blob is decoded with
them. -/
theorem outcome_tableFrom_ok_iff {s : Source} {c : Cursor} {t : Table} :
    (config.tableFrom s c).outcome = .ok t ↔ ∃ options, config.textOptions = .ok options ∧
      (Table.decode options s c).1.outcome = .ok t := by
  constructor
  · intro h
    cases hoptions : config.textOptions with
    | ok options =>
      rw [tableFrom_eq hoptions, Logged.outcome_mapError, mapError_eq_ok] at h
      exact ⟨options, rfl, h⟩
    | error e =>
      rw [outcome_tableFrom, hoptions] at h
      split at h <;> cases h
  · rintro ⟨options, hoptions, h⟩
    rw [tableFrom_eq hoptions, Logged.outcome_mapError, mapError_eq_ok]
    exact h

theorem outcome_table_file (config : Config) (folder : Folder) (path : Text)
    (failure : Option MapFailure) : (config.table (.file folder path failure)).outcome =
      config.mapOption.mapError .config >>= fun map =>
        (folder.openFile path map failure).outcome.mapError (fun e => .blob (.source e)) >>=
          fun opened => (config.tableFrom opened.1 opened.2).outcome := by
  show (Logged.lift _ >>= _).outcome = _
  rw [Logged.outcome_lift_bind]
  congr 1
  funext map
  rw [Logged.outcome_bind _ fun opened => appends_tableFrom _ _ _, Logged.outcome_mapError]

theorem appends_table (config : Config) (input : Input) : Logged.Appends (config.table input) := by
  cases input with
  | memory bytes => exact config.appends_tableFrom _ _
  | reader s c => exact config.appends_tableFrom s c
  | file folder path failure =>
    exact (Logged.appends_lift _).bind fun map => ((folder.appends_openFile _ _ _).mapError _).bind
      fun opened => config.appends_tableFrom _ _

theorem table_memory (config : Config) (b : Bytes) :
    config.table (.memory b) = config.tableFrom { bytes := b } {} := rfl

/-- With options that are there any input is decoded with these. -/
theorem table_eq {options : DecoderOptions} (htext : config.textOptions = .ok options.text)
    (hmap : config.mapOption = .ok options.map) (input : Input) :
    config.table input = (input.table options).mapError .blob := by
  cases input with
  | memory bytes => exact tableFrom_eq htext _ _
  | reader s c => exact tableFrom_eq htext s c
  | file folder path failure =>
    simp only [table, Input.table, hmap, Except.mapError, Logged.lift_ok, pure_bind,
      Logged.mapError_bind, Logged.mapError_mapError, tableFrom_eq htext]

end Config

namespace Settings

theorem outcome_decode (settings : Settings) (input : Input) : (settings.decode input).outcome =
    settings.make.outcome.mapError .config >>= fun config => (config.table input).outcome := by
  rw [decode, Logged.outcome_bind _ fun config => Config.appends_table _ _, Logged.outcome_mapError]

/-- Settings that say a configuration decode a blob with it. -/
theorem outcome_decode_of_make {settings : Settings} {config : Config}
    (h : settings.make.outcome = .ok config) (input : Input) :
    (settings.decode input).outcome = (config.table input).outcome := by
  rw [outcome_decode, h]
  rfl

theorem outcome_decode_of_refused {settings : Settings} {e : ConfigFault}
    (h : settings.make.outcome = .error e) (input : Input) :
    (settings.decode input).outcome = .error (.config e) := by
  rw [outcome_decode, h]
  rfl

/-- **Values decode a blob as the configuration that is made from them.** -/
theorem decode_value (v : Value) (input : Input) : (value v).decode input = Btf.decode input v := by
  have hmake : Logged.Appends (Config.make .decoder v Config.userLayer true) :=
    Config.appends_make _ _ _ _
  refine Logged.ext fun log => ?_
  rw [decode, Btf.decode, DecoderOptions.configured, Logged.mapError_bind, bind_assoc, make,
    Logged.run_bind, Logged.run_bind, Logged.run_mapError, hmake log]
  cases h : (Config.make .decoder v Config.userLayer true).outcome with
  | error e => rfl
  | ok c =>
    have htable := Config.table_eq (Config.textOptions_of_make h) (Config.mapOption_of_make h) input
    show (c.table input).run _ = ((input.table c.decoderOptions).mapError .blob).run _
    rw [htable]

end Settings

/-! ## Where a table comes from -/

/-- The bytes that an input gives, if there are any. -/
def Input.bytes? : Input → Option Bytes
  | memory bytes => some bytes
  | reader source _ => some source.bytes
  | file folder path _ => (folder.find path).toOption

theorem Folder.find_of_openFile {folder : Folder} {path : Text} {map : Bool}
    {failure : Option MapFailure} {opened : Source × Cursor}
    (h : (folder.openFile path map failure).outcome = .ok opened) :
    folder.find path = .ok opened.1.bytes := by
  have hlast : ∀ (bytes : Bytes) (holding : Holding), Logged.Appends (do
      Logged.note (.opened path bytes.size (holding == .mapped))
      return ({ bytes, path := some path }, { holding }) : Logged SourceFault (Source × Cursor)) :=
    fun _ _ => (Logged.appends_note _).bind fun _ => Logged.appends_pure _
  unfold openFile at h
  rw [Logged.outcome_lift_bind, bind_eq_ok] at h
  obtain ⟨bytes, hbytes, h⟩ := h
  rw [Logged.outcome_bind _ (hlast bytes), bind_eq_ok] at h
  obtain ⟨holding, -, h⟩ := h
  cases h
  exact hbytes

/-- **A table comes from the bytes of its input**, with the options for names that a configuration
has. -/
theorem Settings.exists_table_of_ok {settings : Settings} {input : Input} {t : Table}
    (h : (settings.decode input).outcome = .ok t) :
    ∃ config options s c, settings.make.outcome = .ok config ∧ config.textOptions = .ok options ∧
      input.bytes? = some s.bytes ∧ (Table.decode options s c).1.outcome = .ok t := by
  rw [outcome_decode, bind_eq_ok] at h
  obtain ⟨config, hmake, h⟩ := h
  have hfrom : ∀ {s c}, input.bytes? = some s.bytes → (config.tableFrom s c).outcome = .ok t →
      ∃ config options s c, settings.make.outcome = .ok config ∧ config.textOptions = .ok options ∧
        input.bytes? = some s.bytes ∧ (Table.decode options s c).1.outcome = .ok t := by
    intro s c hbytes h
    obtain ⟨options, hoptions, htable⟩ := Config.outcome_tableFrom_ok_iff.mp h
    exact ⟨config, options, s, c, mapError_eq_ok.mp hmake, hoptions, hbytes, htable⟩
  cases input with
  | memory b => exact hfrom rfl h
  | reader s c => exact hfrom rfl h
  | file folder path failure =>
    rw [Config.outcome_table_file, bind_eq_ok] at h
    obtain ⟨map, -, h⟩ := h
    obtain ⟨opened, hopened, h⟩ := bind_eq_ok.mp h
    exact hfrom (toOption_eq_some_iff.mpr (Folder.find_of_openFile (mapError_eq_ok.mp hopened))) h

/-- The fault that a blob is refused for, if there is one. -/
def refusal? : Except DecoderFault Table → Option Fault
  | .error (.blob fault) => some fault
  | _ => none

theorem refusal?_eq_some_iff {r : Except DecoderFault Table} {fault : Fault} :
    refusal? r = some fault ↔ r = .error (.blob fault) := by
  rcases r with (_ | _) | _ <;> simp [refusal?]

end Btf
