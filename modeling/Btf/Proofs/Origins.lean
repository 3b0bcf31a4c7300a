import Btf.Proofs.InStep

/-!
# Where a blob comes from

The same bytes can be given in a buffer of any kind, through a reader in any state, or in a file that is
mapped or read. Decoding starts from the first byte and in its own byte order, so that none of this
matters; and a configuration is refused before any of it is looked at.

* `Input.Holds`, `Settings.Says`: inputs that give the same bytes, and settings that say the same;
* `steady_bytes`: cursors at the same place of the same bytes stay together;
* `Read.layout_run_start`: the layout is found from the first byte;
* `Config.outcome_table`: the table of an input is that of its bytes;
* **`decode_origin`**: all ways to give a blob and options agree.
-/

namespace Btf

/-- An input gives the bytes `b`: in a buffer, through a reader in any state whose bytes have not been
released, or in a file, which may be one that cannot be mapped. -/
inductive Input.Holds (b : Bytes) : Input → Prop
  | buffer {buffer : Buffer} (h : buffer.content = b) : Holds b (.ofBuffer buffer)
  | reader {source : Source} {cursor : Cursor} (h : source.bytes = b) (hopen : cursor.IsOpen) :
      Holds b (.reader source cursor)
  | file {folder : Folder} {path : Text} {failure : Option MapFailure} (h : folder.find path = .ok b)
      (hfailure : failure ≠ some .outOfMemory) : Holds b (.file folder path failure)

/-- Settings say a value: they are the value itself or the configuration that is made from it. -/
inductive Settings.Says (v : Value) : Settings → Prop
  | value : Says v (.value v)
  | config {c : Config} (h : (Config.make .decoder v Config.userLayer true).outcome = .ok c) :
      Says v (.config c)

/-- **Cursors at the same place of the same bytes** stay together, and never part. -/
theorem steady_bytes {s s' : Source} (h : s'.bytes = s.bytes) :
    Steady (fun c c' => (c.offset = c'.offset ∧ c.order = c'.order) ∧ c.IsOpen ∧ c'.IsOpen)
      (fun _ => False) s s' := by
  refine ⟨fun hR => hR.1.1, fun order hR => ⟨⟨hR.1.1, rfl⟩, hR.2⟩, fun width => ?_,
    fun target => ?_, fun address => ?_⟩
  · refine .of_outcome (Read.consumes_word width) ?_ ?_
    · rintro k c c' ⟨⟨hoffset, horder⟩, hopen⟩
      exact ⟨⟨congrArg (· + width) hoffset, horder⟩, hopen⟩
    · rintro k c c' ⟨⟨hoffset, horder⟩, hopen, hopen'⟩
      left
      by_cases hin : c.offset + width ≤ s.bytes.size
      · rw [Read.outcome_word hopen hin, Read.outcome_word hopen' (by rw [h, ← hoffset]; exact hin),
          Source.slice, Source.slice, h, hoffset, horder]
      · rw [Read.outcome_word_past (Nat.lt_of_not_le hin),
          Read.outcome_word_past (by rw [h, ← hoffset]; exact Nat.lt_of_not_le hin), hoffset]
  · rintro k c c' ⟨⟨-, horder⟩, hopen⟩
    rw [Read.seek, Read.run_ofRun, Read.run_ofRun, h]
    split
    · exact .fail
    · exact .done ⟨⟨rfl, horder⟩, hopen⟩
  · refine .of_outcome (Read.consumes_bytesAt address) (fun _ _ _ hR => hR) ?_
    rintro k c c' ⟨-, hopen, hopen'⟩
    left
    rw [Read.outcome_bytesAt hopen, Read.outcome_bytesAt hopen', h]

/-- **The layout is found from the first byte**, in the byte order that is found there. -/
theorem Read.layout_run_start (s : Source) (c : Cursor) :
    layout.run s c = layout.run s { c with offset := 0, order := .little } := by
  rw [layout, run_bind, run_bind, detectOrder_run, detectOrder_run]

/-- The bytes of a file are mapped or read, unless there is no memory. -/
theorem Folder.exists_hold (path : Text) (b : Bytes) (map : Bool) {failure : Option MapFailure}
    (hfailure : failure ≠ some .outOfMemory) :
    ∃ holding, holding ≠ .released ∧ (hold path b map failure).outcome = .ok holding := by
  unfold hold
  split
  · exact ⟨.memory, by decide, rfl⟩
  · match failure, hfailure with
    | none, _ => exact ⟨.mapped, by decide, rfl⟩
    | some (.refused reason), _ => exact ⟨.memory, by decide, rfl⟩

/-- A file that can be read is opened, also if it cannot be mapped. -/
theorem Folder.exists_openFile {folder : Folder} {path : Text} {b : Bytes}
    {failure : Option MapFailure} (h : folder.find path = .ok b)
    (hfailure : failure ≠ some .outOfMemory) (map : Bool) :
    ∃ holding, holding ≠ .released ∧ (folder.openFile path map failure).outcome =
      .ok ({ bytes := b, path := some path }, { holding }) := by
  obtain ⟨holding, hholding, hheld⟩ := exists_hold path b map hfailure
  refine ⟨holding, hholding, ?_⟩
  unfold openFile
  rw [Logged.outcome_lift_bind, h, ok_bind, Logged.outcome_bind _ fun _ =>
    (Logged.appends_note _).bind fun _ => Logged.appends_pure _, hheld, ok_bind]
  rfl

namespace Config

variable {config : Config} {v : Value}

/-- What is read from the same bytes is the same, wherever the cursors are and however the bytes are
held. -/
theorem outcome_tableFrom_eq (config : Config) {s s' : Source} {c c' : Cursor}
    (h : s'.bytes = s.bytes) (hc : c.IsOpen) (hc' : c'.IsOpen) :
    (config.tableFrom s' c').outcome = (config.tableFrom s c).outcome := by
  have hstart : ∀ (s : Source) (c : Cursor), (config.tableFrom s c).outcome =
      (config.tableFrom s { c with offset := 0, order := .little }).outcome := by
    intro s c
    rw [outcome_tableFrom, outcome_tableFrom, Read.layout_run_start s c]
  rw [hstart s c, hstart s' c']
  exact (steady_bytes h).outcome_tableFrom config ⟨⟨rfl, rfl⟩, hc, hc'⟩ fun _ _ => id

/-- **The table of an input** is that of the bytes that it gives. -/
theorem outcome_table (hconfig : (make .decoder v userLayer true).outcome = .ok config) {b : Bytes}
    {input : Input} (h : input.Holds b) :
    (config.table input).outcome = (config.table (.memory b)).outcome := by
  cases h with
  | buffer h => rw [Input.ofBuffer, h]
  | reader h hopen => exact config.outcome_tableFrom_eq h Cursor.isOpen_start hopen
  | @file folder path failure h hfailure =>
    obtain ⟨holding, hholding, hopened⟩ :=
      Folder.exists_openFile h hfailure config.decoderOptions.map
    rw [outcome_table_file, mapOption_of_make hconfig, mapError_ok, ok_bind, hopened, mapError_ok,
      ok_bind]
    exact config.outcome_tableFrom_eq rfl Cursor.isOpen_start hholding

/-! ## Mapping files or not -/

/-- A configuration that says whether files are mapped, between other entries. -/
def mapping (before after : List (Value × Value)) (map : Bool) : Value :=
  .map (before ++ (.str "use-mmap", .bool map) :: after)

theorem validateEntries_append {s : Schema} (es fs : List (Value × Value)) :
    s.validateEntries (es ++ fs) = s.validateEntries es >>= fun _ => s.validateEntries fs := by
  induction es with
  | nil => rfl
  | cons e es ih =>
    obtain ⟨key, v⟩ := e
    rw [List.cons_append, Schema.validateEntries, Schema.validateEntries, ih, bind_assoc]

variable {before after : List (Value × Value)}

/-- A configuration is refused for other entries. -/
theorem checked_mapping (map : Bool) : checked (mapping before after map) =
    (ConfigKind.decoder.schema.validateEntries before >>= fun _ =>
      ConfigKind.decoder.schema.validateEntries after) >>= fun _ =>
        .ok (before ++ (.str "use-mmap", .bool map) :: after) := by
  have hmap : ConfigKind.decoder.schema.validateKey (.str "use-mmap") (.bool map) = .ok () := rfl
  have hentries : (mapping before after map).entries? =
      some (before ++ (.str "use-mmap", .bool map) :: after) := rfl
  show Schema.validate _ (mapping before after map) = _
  rw [Schema.validate, hentries]
  dsimp only
  rw [validateEntries_append]
  simp only [Schema.validateEntries, hmap, ok_bind]
  cases ConfigKind.decoder.schema.validateEntries before >>= fun _ =>
    ConfigKind.decoder.schema.validateEntries after <;> rfl

theorem given?_mapping {key : Text} (hkey : key ≠ "use-mmap") (map : Bool) :
    (Addition.start (mapping before after map) userLayer).given? key =
      ((textEntries after).reverse.lookup key).or ((textEntries before).reverse.lookup key) := by
  have hgiven : (Addition.start (mapping before after map) userLayer).given =
      textEntries before ++ (("use-mmap" : Text), Value.bool map) :: textEntries after := by
    have hentries : (Addition.start (mapping before after map) userLayer).given =
        textEntries (before ++ (.str "use-mmap", .bool map) :: after) := given_of_entriesOf rfl rfl
    rw [hentries, textEntries, List.filterMap_append]
    rfl
  rw [Addition.given?, hgiven, List.reverse_append, List.reverse_cons, List.append_assoc,
    List.lookup_append, List.singleton_append, Layer.lookup_cons, if_neg hkey]

variable {c c' : Config} {map map' : Bool}

/-- What a configuration says of other keys does not depend on whether it says that files are
mapped. -/
theorem get_mapping (h : (make .decoder (mapping before after map) userLayer true).outcome = .ok c)
    (h' : (make .decoder (mapping before after map') userLayer true).outcome = .ok c') {key : Text}
    (hkey : key ∈ ConfigKind.decoder.schema.keyNames) (hne : key ≠ "use-mmap") :
    c'.get key = c.get key := by
  have hname : userLayer ≠ defaultLayer := by decide
  obtain ⟨w, hw, hget⟩ := get_decoder_iff h hkey
  obtain ⟨w', hw', hget'⟩ := get_decoder_iff h' hkey
  rw [given?_mapping hne] at hw hw'
  cases hw.symm.trans hw'
  rw [hget.mpr fun heq => absurd heq hname, hget'.mpr fun heq => absurd heq hname]

theorem text_mapping (h : (make .decoder (mapping before after map) userLayer true).outcome = .ok c)
    (h' : (make .decoder (mapping before after map') userLayer true).outcome = .ok c') :
    c'.decoderOptions.text = c.decoderOptions.text := by
  have hencoding : c'.get "string-encoding" = c.get "string-encoding" :=
    get_mapping h h' (by decide) (by decide)
  have herrors : c'.get "string-errors" = c.get "string-errors" :=
    get_mapping h h' (by decide) (by decide)
  rw [decoderOptions, decoderOptions, textOf, textOf, textOf, textOf, hencoding, herrors]

end Config

/-- Whether files are to be mapped does not matter for a blob in memory. -/
theorem outcome_decode_mapping (b : Bytes) (before after : List (Value × Value)) (map map' : Bool) :
    (decode (.memory b) (Config.mapping before after map')).outcome =
      (decode (.memory b) (Config.mapping before after map)).outcome := by
  have hchecked : ∀ map, Config.checked (Config.mapping before after map) = _ :=
    Config.checked_mapping
  rw [← Settings.decode_value, ← Settings.decode_value]
  cases h : ConfigKind.decoder.schema.validateEntries before >>= fun _ =>
      ConfigKind.decoder.schema.validateEntries after with
  | error e =>
    have hrefused : ∀ map, (Settings.value (Config.mapping before after map)).make.outcome =
        .error e := fun map => congrArg Prod.fst (Config.result_make_of_error (by
      rw [hchecked, h, error_bind]))
    rw [Settings.outcome_decode_of_refused (hrefused map),
      Settings.outcome_decode_of_refused (hrefused map')]
  | ok _ =>
    have hmake : ∀ map, ∃ c, (Settings.value (Config.mapping before after map)).make.outcome =
        .ok c := fun map => Config.exists_make_of_checked (by rw [hchecked, h, ok_bind])
    obtain ⟨c, hc⟩ := hmake map
    obtain ⟨c', hc'⟩ := hmake map'
    rw [Settings.outcome_decode_of_make hc, Settings.outcome_decode_of_make hc',
      Config.table_memory, Config.table_memory, Config.tableFrom_eq (Config.textOptions_of_make hc),
      Config.tableFrom_eq (Config.textOptions_of_make hc'), Config.text_mapping hc hc']

theorem Settings.Says.outcome_make {settings : Settings} {v : Value} (h : settings.Says v) :
    settings.make.outcome = (Config.make .decoder v Config.userLayer true).outcome := by
  cases h with
  | value => rfl
  | config h => exact h.symm

/-- **All ways to give a blob and options agree**: in a buffer, through a reader, or in a file that is
mapped or read, with values or with the configuration that is made from them. Options that are refused
are refused before anything is logged, whatever the input is. -/
theorem decode_origin (b : Bytes) (v : Value) :
    (∀ (settings : Settings) (input : Input), settings.Says v → input.Holds b →
      (settings.decode input).outcome = (decode (.memory b) v).outcome) ∧
    (∀ before after map map', v = Config.mapping before after map →
      (decode (.memory b) (Config.mapping before after map')).outcome =
        (decode (.memory b) v).outcome) ∧
    ∀ e, (Config.make .decoder v Config.userLayer true).outcome = .error e →
      ∀ input, (decode input v).result = (.error (.config e), []) := by
  refine ⟨fun settings input hsettings hinput => ?_, ?_, fun e he input => ?_⟩
  · rw [← Settings.decode_value]
    cases hmake : (Config.make .decoder v Config.userLayer true).outcome with
    | error e =>
      rw [Settings.outcome_decode_of_refused (hsettings.outcome_make.trans hmake),
        Settings.outcome_decode_of_refused (Settings.Says.value.outcome_make.trans hmake)]
    | ok config =>
      rw [Settings.outcome_decode_of_make (hsettings.outcome_make.trans hmake),
        Settings.outcome_decode_of_make (Settings.Says.value.outcome_make.trans hmake),
        Config.outcome_table hmake hinput]
  · rintro before after map map' rfl
    exact outcome_decode_mapping b before after map map'
  · have hmake : (Settings.value v).make.run [] = (.error e, []) := Config.result_make_of_refused he
    rw [← Settings.decode_value, Logged.result, Settings.decode, Logged.run_bind,
      Logged.run_mapError, hmake]
    rfl

/-- A working directory with a blob in a file. -/
def variadicFolder : Folder := [("f.btf", .file variadicBlob)]

theorem decode_origin_variadic :
    let v := Config.mapping [] [] true
    (Input.Holds variadicBlob (.file variadicFolder "f.btf" (some .unmappable)) ∧
      ((Settings.value v).decode (.file variadicFolder "f.btf" (some .unmappable))).outcome =
        .ok variadicTable) ∧
    (Input.Holds variadicBlob (.reader ⟨variadicBlob, none⟩ ⟨75, .little, .mapped⟩) ∧
      ((Settings.value v).decode (.reader ⟨variadicBlob, none⟩ ⟨75, .little, .mapped⟩)).outcome =
        .ok variadicTable) ∧
    (decode (.memory variadicBlob) (Config.mapping [] [] false)).outcome = .ok variadicTable ∧
    (Config.make .decoder (.bool true) Config.userLayer true).outcome =
      .error (.notMapping "btf-parser-conf") ∧
    (decode (.file [] "f.btf" none) (.bool true)).result =
      (.error (.config (.notMapping "btf-parser-conf")), []) := by
  intro v
  have htable : (decode (.memory variadicBlob) v).outcome = .ok variadicTable :=
    toOption_eq_some_iff.mp (by decide +kernel)
  have hfile : Input.Holds variadicBlob (.file variadicFolder "f.btf" (some .unmappable)) :=
    .file rfl (by decide)
  have hreader : Input.Holds variadicBlob (.reader ⟨variadicBlob, none⟩ ⟨75, .little, .mapped⟩) :=
    .reader rfl (by intro h; cases h)
  have hrefused : (Config.make .decoder (.bool true) Config.userLayer true).outcome =
      .error (.notMapping "btf-parser-conf") := rfl
  obtain ⟨hagree, hmapping, -⟩ := decode_origin variadicBlob v
  obtain ⟨-, -, hearly⟩ := decode_origin variadicBlob (.bool true)
  exact ⟨⟨hfile, (hagree _ _ .value hfile).trans htable⟩,
    ⟨hreader, (hagree _ _ .value hreader).trans htable⟩,
    (hmapping [] [] true false rfl).trans htable, hrefused, hearly _ hrefused _⟩

end Btf
