import Btf.Decoder
import Btf.Proofs.Logged

/-!
# What configurations hold

Values are checked when they are added to a configuration, so that every value it holds is one that
its key takes. The codec and the error handler of a decoder's configuration therefore exist.

* `Config.Valid`: every value of a configuration is one that its key takes;
* **`Config.Valid.addLayer`**, **`Config.valid_make`**: adding values keeps a configuration valid;
* **`Config.Valid.get`**: the value of a key is one that the key takes;
* **`DecoderOptions.lookup_of_configured`**: the codec and the handler that are configured exist.
-/

namespace Btf

namespace Schema

variable {s : Schema}

theorem validateEntries_ok_iff {es : List (Value × Value)} :
    s.validateEntries es = .ok () ↔ ∀ e ∈ es, s.validateKey e.1 e.2 = .ok () := by
  induction es with
  | nil => exact ⟨fun _ => List.forall_mem_nil _, fun _ => rfl⟩
  | cons e es ih =>
    rw [validateEntries, bind_eq_ok, List.forall_mem_cons, ← ih]
    constructor
    · rintro ⟨_, h₁, h₂⟩
      exact ⟨h₁, h₂⟩
    · rintro ⟨h₁, h₂⟩
      exact ⟨(), h₁, h₂⟩

theorem validate_ok_iff {v : Value} {es : List (Value × Value)} :
    s.validate v = .ok es ↔ v.entries? = some es ∧ ∀ e ∈ es, s.validateKey e.1 e.2 = .ok () := by
  unfold validate
  split
  · next fs heq =>
    rw [heq, map_eq_ok, Option.some.injEq, ← validateEntries_ok_iff]
    constructor
    · rintro ⟨_, h, rfl⟩
      exact ⟨rfl, h⟩
    · rintro ⟨rfl, h⟩
      exact ⟨(), h, rfl⟩
  · next hnone => simp [hnone]

end Schema

/-- The entries of a layer have keys of a schema and values that these take. -/
def EntriesValid (s : Schema) (es : List (Text × Value)) : Prop :=
  ∀ e ∈ es, s.validateKey (.str e.1) e.2 = .ok ()

namespace EntriesValid

variable {s : Schema} {es fs : List (Text × Value)}

theorem put {key : Text} {v : Value} (hv : s.validateKey (.str key) v = .ok ())
    (hes : EntriesValid s es) : EntriesValid s (Layer.put key v es) := by
  induction es with
  | nil =>
    intro e he
    rw [Layer.put, List.mem_singleton] at he
    rw [he]
    exact hv
  | cons e es ih =>
    obtain ⟨he, hrest⟩ := List.forall_mem_cons.mp hes
    obtain ⟨k, w⟩ := e
    rw [Layer.put]
    split
    · next hk =>
      rw [hk]
      exact List.forall_mem_cons.mpr ⟨hv, hrest⟩
    · exact List.forall_mem_cons.mpr ⟨he, ih hrest⟩

theorem foldl_put (hfs : EntriesValid s fs) (hes : EntriesValid s es) :
    EntriesValid s (fs.foldl (fun es e => Layer.put e.1 e.2 es) es) := by
  induction fs generalizing es with
  | nil => exact hes
  | cons f fs ih =>
    obtain ⟨hf, hrest⟩ := List.forall_mem_cons.mp hfs
    exact ih hrest (hes.put hf)

theorem textEntries {entries : List (Value × Value)}
    (h : ∀ e ∈ entries, s.validateKey e.1 e.2 = .ok ()) :
    EntriesValid s (Config.textEntries entries) := by
  intro e he
  obtain ⟨⟨k, v⟩, hmem, hkv⟩ := List.mem_filterMap.mp he
  cases k <;> cases hkv
  exact h _ hmem

end EntriesValid

namespace Config

variable {c c' : Config} {name : Text} {v : Value} {dropNull fallback : Bool}

/-- **Every value that a configuration holds** is one that its key takes. -/
def Valid (c : Config) : Prop := ∀ l ∈ c.layers, EntriesValid c.kind.schema l.entries

theorem valid_empty (kind : ConfigKind) : Valid { kind } := List.forall_mem_nil _

theorem valid_putLayer {s : Schema} {entries : List (Text × Value)} {layers : List Layer}
    (hentries : EntriesValid s entries) (hlayers : ∀ l ∈ layers, EntriesValid s l.entries) :
    ∀ l ∈ putLayer name entries fallback layers, EntriesValid s l.entries := by
  have hnew : EntriesValid s (Layer.update ⟨name, []⟩ entries).entries :=
    EntriesValid.foldl_put hentries (List.forall_mem_nil _)
  unfold putLayer
  split
  · intro l hl
    obtain ⟨l', hl', rfl⟩ := List.mem_map.mp hl
    split
    · exact EntriesValid.foldl_put hentries (hlayers l' hl')
    · exact hlayers l' hl'
  · dsimp only
    split
    · exact List.forall_mem_append.mpr ⟨hlayers, List.forall_mem_singleton.mpr hnew⟩
    · exact List.forall_mem_cons.mpr ⟨hnew, hlayers⟩

theorem outcome_addLayer : (c.addLayer name v dropNull fallback).outcome =
    (entriesOf v dropNull >>= fun v => c.kind.schema.validate v) >>= fun entries =>
      .ok { c with layers := putLayer name (textEntries entries) fallback c.layers } := by
  unfold addLayer
  rw [Logged.outcome_bind]
  · rfl
  · exact fun entries => (Logged.appends_note _).bind fun _ => Logged.appends_pure _

theorem appends_addLayer : Logged.Appends (c.addLayer name v dropNull fallback) :=
  (Logged.appends_lift _).bind fun _ => (Logged.appends_note _).bind fun _ => Logged.appends_pure _

/-- **Adding values keeps a configuration valid** and of its kind. -/
theorem Valid.addLayer (hc : c.Valid)
    (h : (c.addLayer name v dropNull fallback).outcome = .ok c') : c'.Valid ∧ c'.kind = c.kind := by
  rw [outcome_addLayer, bind_eq_ok] at h
  obtain ⟨entries, hentries, h⟩ := h
  cases h
  obtain ⟨w, -, hw⟩ := bind_eq_ok.mp hentries
  obtain ⟨-, hvalid⟩ := Schema.validate_ok_iff.mp hw
  exact ⟨valid_putLayer (EntriesValid.textEntries hvalid) hc, rfl⟩

theorem outcome_make (kind : ConfigKind) (v : Value) (name : Text) (withDefaults : Bool) :
    (make kind v name withDefaults).outcome =
      (Config.addLayer { kind } name v false false).outcome >>= fun c =>
        if withDefaults && kind.defaults.isTrue then
          (c.addLayer defaultLayer kind.defaults false true).outcome
        else .ok c := by
  unfold make
  rw [Logged.outcome_bind]
  · congr 1
    funext c
    split <;> rfl
  · intro c
    split
    · exact appends_addLayer
    · exact Logged.appends_pure _

/-- **A configuration is made valid.** -/
theorem valid_make {kind : ConfigKind} {withDefaults : Bool}
    (h : (make kind v name withDefaults).outcome = .ok c) : c.Valid ∧ c.kind = kind := by
  rw [outcome_make, bind_eq_ok] at h
  obtain ⟨c₁, h₁, h⟩ := h
  obtain ⟨hvalid, hkind⟩ := (valid_empty kind).addLayer h₁
  split at h
  · obtain ⟨hvalid', hkind'⟩ := hvalid.addLayer h
    exact ⟨hvalid', hkind'.trans hkind⟩
  · cases h
    exact ⟨hvalid, hkind⟩

/-- A value that the layer of a name has for a key is one that the key takes. -/
theorem Valid.validateKey_of_layer {layer key : Text} (hc : c.Valid)
    (h : ((c.layers.find? fun l => l.name = layer).bind fun l => l.get? key) = some v) :
    c.kind.schema.validateKey (.str key) v = .ok () := by
  obtain ⟨l, hl, hget⟩ := Option.bind_eq_some_iff.mp h
  obtain ⟨before, after, hentries, -⟩ := List.lookup_eq_some_iff.mp hget
  refine hc l (List.mem_of_find?_eq_some hl) (key, v) ?_
  rw [hentries]
  exact List.mem_append_right _ List.mem_cons_self

/-- **The value of a key** is one that the key takes. -/
theorem Valid.get {key : Text} (hc : c.Valid) (h : c.get key = .ok v) :
    c.kind.schema.validateKey (.str key) v = .ok () := by
  obtain ⟨layer, -, h⟩ := bind_eq_ok.mp h
  obtain ⟨k, -, h⟩ := bind_eq_ok.mp h
  split at h
  · next w hw =>
    cases h
    exact hc.validateKey_of_layer hw
  · cases h

end Config

/-! ## The options of the decoder -/

/-- **A key takes a value** of one of its types at which its validator, if it has one, does not fail. -/
theorem Key.validate_ok_iff {schema : Text} {k : Key} {v : Value} : k.validate schema v = .ok () ↔
    k.checker.checkType v (.anyOf .tuple k.types) = .ok () ∧
      ∀ validator, k.validator? = some validator → validator v = .ok () := by
  rw [validate, bind_eq_ok]
  cases k.validator? with
  | none =>
    constructor
    · rintro ⟨_, htype, -⟩
      exact ⟨mapError_eq_ok.mp htype, nofun⟩
    · rintro ⟨htype, -⟩
      exact ⟨(), mapError_eq_ok.mpr htype, rfl⟩
  | some validator =>
    constructor
    · rintro ⟨_, htype, h⟩
      refine ⟨mapError_eq_ok.mp htype, ?_⟩
      rintro _ ⟨⟩
      exact mapError_eq_ok.mp h
    · rintro ⟨htype, h⟩
      exact ⟨(), mapError_eq_ok.mpr htype, mapError_eq_ok.mpr (h validator rfl)⟩

/-- A validator that looks a text up does not fail at what can be looked up. -/
theorem Validator.ofLookup_ok_iff {α : Type} {function : String} {lookup : Text → Except CodecFault α}
    {v : Value} : ofLookup function lookup v = .ok () ↔ ∃ t a, v = .str t ∧ lookup t = .ok a := by
  cases v with
  | str t =>
    rw [ofLookup, bind_eq_ok]
    constructor
    · rintro ⟨a, ha, -⟩
      exact ⟨t, a, rfl, mapError_eq_ok.mp ha⟩
    · rintro ⟨t', a, heq, ha⟩
      cases heq
      exact ⟨a, mapError_eq_ok.mpr ha, rfl⟩
  | _ => simp [ofLookup]

/-- A text that a valid configuration has for a key that looks it up is found, if the default is. -/
theorem Config.Valid.lookup_textOf {α : Type} {c : Config} (hc : c.Valid) {key default : Text} {k : Key}
    {function : String} {lookup : Text → Except CodecFault α}
    (hkey : c.kind.schema.lookup (.str key) = .ok k)
    (hk : k.validator? = some (.ofLookup function lookup))
    (hdefault : ∃ a, lookup default = .ok a) : ∃ a, lookup (c.textOf key default) = .ok a := by
  unfold Config.textOf
  split
  · next t ht =>
    have hvalid := hc.get ht
    rw [Schema.validateKey, hkey] at hvalid
    obtain ⟨t', a, heq, ha⟩ :=
      Validator.ofLookup_ok_iff.mp ((Key.validate_ok_iff.mp hvalid).2 _ hk)
    cases heq
    exact ⟨a, ha⟩
  · exact hdefault

theorem Codec.lookup_ok_iff {t : Text} {codec : Codec} : Codec.lookup t = .ok codec ↔
    Text.nameFault? t = none ∧ Codec.find? t = some codec := by
  unfold lookup
  split
  · next hfault => exact ⟨fun h => (by cases h), fun h => by rw [hfault] at h; cases h.1⟩
  · next hfault hfind =>
    rw [hfault, hfind, Except.ok.injEq, Option.some.injEq]
    exact ⟨fun h => ⟨rfl, h⟩, And.right⟩
  · next hfault hfind => exact ⟨fun h => (by cases h), fun h => by rw [hfind] at h; cases h.2⟩

theorem Handler.lookup_ok_iff {t : Text} {handler : Handler} : Handler.lookup t = .ok handler ↔
    Text.nameFault? t = none ∧ Handler.find? t = some handler := by
  unfold lookup
  split
  · next hfault => exact ⟨fun h => (by cases h), fun h => by rw [hfault] at h; cases h.1⟩
  · next hfault hfind =>
    rw [hfault, hfind, Except.ok.injEq, Option.some.injEq]
    exact ⟨fun h => ⟨rfl, h⟩, And.right⟩
  · next hfault hfind => exact ⟨fun h => (by cases h), fun h => by rw [hfind] at h; cases h.2⟩

theorem DecoderOptions.exists_of_configured {conf : Value} {options : DecoderOptions}
    (h : (configured conf).outcome = .ok options) :
    ∃ c : Config, c.Valid ∧ c.kind = .decoder ∧ options = c.decoderOptions := by
  rw [configured, Logged.outcome_bind _ fun _ => Logged.appends_pure _, bind_eq_ok] at h
  obtain ⟨c, hc, h⟩ := h
  obtain ⟨hvalid, hkind⟩ := Config.valid_make hc
  cases h
  exact ⟨c, hvalid, hkind, rfl⟩

/-- **The codec and the handler that are configured exist.** -/
theorem DecoderOptions.lookup_of_configured {conf : Value} {options : DecoderOptions}
    (h : (configured conf).outcome = .ok options) :
    (∃ codec, Codec.lookup options.text.encoding = .ok codec) ∧
      ∃ handler, Handler.lookup options.text.errors = .ok handler := by
  obtain ⟨c, hvalid, hkind, rfl⟩ := exists_of_configured h
  constructor
  · exact hvalid.lookup_textOf (by rw [hkind]; rfl) rfl ⟨_, rfl⟩
  · exact hvalid.lookup_textOf (by rw [hkind]; rfl) rfl ⟨_, rfl⟩

theorem DecoderOptions.nameFault_of_configured {conf : Value} {options : DecoderOptions}
    (h : (configured conf).outcome = .ok options) :
    (Text.nameFault? options.text.encoding <|> Text.nameFault? options.text.errors) = none := by
  obtain ⟨⟨codec, hcodec⟩, handler, hhandler⟩ := lookup_of_configured h
  rw [(Codec.lookup_ok_iff.mp hcodec).1, (Handler.lookup_ok_iff.mp hhandler).1]
  rfl

end Btf
