import Btf.Config.Decoder
import Btf.Config.File
import Btf.Proofs.Config
import Btf.Yaml.Document

/-!
# Configurations in documents

A document says a configuration under the name of its schema. A value there that is true is a
configuration, or else refused for being none. A value that is false says nothing, whatever it is: null,
an empty mapping, but also a truth value, a zero or something empty, which are refused elsewhere.

* `Value.equal_str_iff`, `Value.lookupEntry_eq_none_iff`, `Value.lookupEntry_split`: finding a name;
* `Config.ofMap_null`, `Config.outcome_ofMap_of_not_map`: nothing, and what is no mapping;
* `Config.outcome_ofDocument`: what stands under the name, by its truth;
* `Config.outcome_ofFile`: the same for a file, whatever loads its document;
* **`Config.ofDocument_configures`**: what every document configures.
-/

namespace Btf

namespace Value

variable {es : List (Value × Value)} {t : Text} {k v : Value}

/-- Nothing but a text is equal to it. -/
theorem equal_str_iff : k.equal (.str t) = true ↔ k = .str t := by
  cases k <;> simp [equal, scalarEqual, whole?]

theorem lookupEntry_eq_none_iff : lookupEntry (.str t) es = none ↔ ∀ e ∈ es, e.1 ≠ .str t := by
  induction es with
  | nil => simp [lookupEntry]
  | cons e es ih =>
    obtain ⟨k, v⟩ := e
    rw [lookupEntry, List.forall_mem_cons]
    by_cases hk : k = .str t
    · rw [if_pos (equal_str_iff.mpr hk)]
      exact ⟨fun h => (by cases h), fun h => absurd hk h.1⟩
    · rw [if_neg (mt equal_str_iff.mp hk), ih, and_iff_right hk]

/-- The entry that is found is the first one with its name. -/
theorem lookupEntry_split {before after : List (Value × Value)} (h : ∀ e ∈ before, e.1 ≠ .str t) :
    lookupEntry (.str t) (before ++ (.str t, v) :: after) = some v := by
  induction before with
  | nil => rw [List.nil_append, lookupEntry, if_pos (equal_str_iff.mpr rfl)]
  | cons e before ih =>
    obtain ⟨he, hrest⟩ := List.forall_mem_cons.mp h
    rw [List.cons_append, lookupEntry, if_neg (mt equal_str_iff.mp he), ih hrest]

end Value

namespace Config

variable {kind : ConfigKind} {withDefaults : Bool} {v : Value}

/-- An empty mapping says as much as nothing at all. -/
theorem ofMap_empty (kind : ConfigKind) (withDefaults : Bool) :
    ofMap kind (.map []) withDefaults = make kind .null userLayer withDefaults := rfl

/-- What is neither null nor a mapping is no configuration. -/
theorem outcome_ofMap_of_not_map (hnull : v ≠ .null) (hmap : v.entries? = none) :
    (ofMap kind v withDefaults).outcome = .error (.notMapping kind.schema.name) := by
  have hsaid : entriesOf v false = .ok v := by
    cases v with
    | null => exact absurd rfl hnull
    | _ => rfl
  have hinvalid : kind.schema.validate v = .error (.notMapping kind.schema.name) := by
    rw [Schema.validate, hmap]
  rw [ofMap, outcome_make, outcome_addLayer, hsaid, ok_bind, hinvalid]
  rfl

/-- A document that is no mapping. -/
theorem outcome_ofDocument_of_not_map {document : Value} (h : document.entries? = none) :
    (ofDocument kind document withDefaults).outcome = .error (.notDocument document) := by
  rw [ofDocument, h]
  rfl

/-- A document without the name of the schema. -/
theorem outcome_ofDocument_of_no_name {document : Value} {es : List (Value × Value)}
    (hes : document.entries? = some es) (h : ∀ e ∈ es, e.1 ≠ .str kind.schema.name) :
    (ofDocument kind document withDefaults).outcome = .error (.noTopLevel kind.schema.name) := by
  rw [ofDocument, hes]
  dsimp only
  rw [Value.lookupEntry_eq_none_iff.mpr h]
  rfl

/-- **What stands under the name of the schema** is a configuration if it is true, and else says
nothing. -/
theorem outcome_ofDocument {document : Value} {before after : List (Value × Value)}
    (hes : document.entries? = some (before ++ (.str kind.schema.name, v) :: after))
    (h : ∀ e ∈ before, e.1 ≠ .str kind.schema.name) :
    (ofDocument kind document withDefaults).outcome =
      if v.isTrue then (ofMap kind v withDefaults).outcome
      else (make kind .null userLayer withDefaults).outcome := by
  rw [ofDocument, hes]
  dsimp only
  rw [Value.lookupEntry_split h, ← ofMap_empty]
  dsimp only
  split <;> rfl

/-- A mapping that is false is empty and says nothing. -/
theorem outcome_ofMap_of_false {es : List (Value × Value)} (hes : v.entries? = some es)
    (hfalse : v.isTrue = false) : (ofMap kind v withDefaults).outcome =
      (make kind .null userLayer withDefaults).outcome := by
  have hsaid : entriesOf v false = .ok v := by
    cases v with
    | null => cases hes
    | _ => rfl
  have hempty : es = [] := by
    cases v <;> cases hes <;> simpa [Value.isTrue] using hfalse
  have hvalid : kind.schema.validate v = .ok [] := by
    rw [Schema.validate, hes, hempty]
    rfl
  rw [ofMap, outcome_make, outcome_make, outcome_addLayer, outcome_addLayer, hsaid, ok_bind, hvalid]
  rfl

/-! ## Files -/

/-- **A file configures what its document does**, if it has one. -/
theorem outcome_ofFile {δ : Type} (load : Loader δ) (folder : Folder) (path : Text) :
    (ofFile load kind folder path withDefaults).outcome =
      documentOf load folder path >>= fun document =>
        (ofDocument kind document withDefaults).outcome.mapError .config := by
  rw [ofFile, Logged.outcome_lift_bind]
  cases documentOf load folder path with
  | error fault => rfl
  | ok document => exact Logged.outcome_mapError _ _

/-- **What every document configures.** One that is no mapping and one without the name of the schema
are refused. Under that name a mapping configures what it does on its own, and null configures nothing.
Any other value is refused if it is true; if it is false it configures nothing, too. A file configures what
the document does that is loaded from it, whatever loads it. -/
theorem ofDocument_configures (kind : ConfigKind) (withDefaults : Bool) :
    (∀ document, document.entries? = none →
      (ofDocument kind document withDefaults).outcome = .error (.notDocument document)) ∧
    (∀ document es, document.entries? = some es → (∀ e ∈ es, e.1 ≠ .str kind.schema.name) →
      (ofDocument kind document withDefaults).outcome = .error (.noTopLevel kind.schema.name)) ∧
    (∀ document before v after,
      document.entries? = some (before ++ (.str kind.schema.name, v) :: after) →
      (∀ e ∈ before, e.1 ≠ .str kind.schema.name) →
      let outcome := (ofDocument kind document withDefaults).outcome
      let unconfigured := (make kind .null userLayer withDefaults).outcome
      (v = .null → outcome = unconfigured) ∧
      (∀ es, v.entries? = some es → outcome = (ofMap kind v withDefaults).outcome) ∧
      (v ≠ .null → v.entries? = none →
        (v.isTrue = true → outcome = .error (.notMapping kind.schema.name)) ∧
        (v.isTrue = false → outcome = unconfigured) ∧
        (outcome = .error (.notMapping kind.schema.name) ↔
          v.isTrue = true ∨ unconfigured = .error (.notMapping kind.schema.name)))) ∧
    ∀ (δ : Type) (load : Loader δ) folder path,
      (ofFile load kind folder path withDefaults).outcome =
        documentOf load folder path >>= fun document =>
          (ofDocument kind document withDefaults).outcome.mapError .config := by
  refine ⟨fun document => outcome_ofDocument_of_not_map,
    fun document es => outcome_ofDocument_of_no_name, ?_, fun δ => outcome_ofFile⟩
  intro document before v after hes h outcome unconfigured
  have houtcome : outcome = if v.isTrue then (ofMap kind v withDefaults).outcome
      else unconfigured := outcome_ofDocument hes h
  refine ⟨?_, fun fs hfs => ?_, fun hnull hmap => ?_⟩
  · rintro rfl
    exact houtcome
  · rw [houtcome]
    cases htrue : v.isTrue with
    | true => rfl
    | false => exact (outcome_ofMap_of_false hfs htrue).symm
  · rw [houtcome, outcome_ofMap_of_not_map hnull hmap]
    cases v.isTrue <;> simp

/-- Values that are false and are no mapping, as they stand in documents. -/
def falseValues : List Value :=
  [.bool false, .int 0, .float (.finite false 0 0), .str "", .bytes [], .list [], .set []]

/-- The document with a value under the name of the decoder's schema. -/
def decoderDocument (v : Value) : Value := .map [(.str "btf-parser-conf", v)]

/-- A working directory with a file that holds the text `[]`. -/
def emptyListFolder : Folder := [("conf.yml", .file #[0x5B, 0x5D])]

def isEmptyList : Value → Bool
  | .list vs => vs.isEmpty
  | _ => false

theorem documentOf_emptyList :
    documentOf Yaml.loader emptyListFolder "conf.yml" = .ok (.list []) := by
  have hread : (documentOf Yaml.loader emptyListFolder "conf.yml").toOption.any isEmptyList = true := by
    decide +kernel
  obtain ⟨v, hv, hempty⟩ := (Option.any_eq_true _ _).mp hread
  rw [toOption_eq_some_iff] at hv
  cases v with
  | list vs => rw [hv, List.isEmpty_iff.mp hempty]
  | _ => cases hempty

theorem ofDocument_configures_decoder : ∃ c : Config,
    (make .decoder .null userLayer true).outcome = .ok c ∧
      (ofDocument .decoder (decoderDocument .null) true).outcome = .ok c ∧
      (ofDocument .decoder (decoderDocument (.list [.int 1])) true).outcome =
        .error (.notMapping "btf-parser-conf") ∧
      (ofDocument .decoder (.list [.int 1]) true).outcome = .error (.notDocument (.list [.int 1])) ∧
      (ofDocument .decoder (.map [("foo", .int 1)]) true).outcome =
        .error (.noTopLevel "btf-parser-conf") ∧
      (ofFile Yaml.loader .decoder emptyListFolder "conf.yml" true).outcome =
        .error (.config (.notDocument (.list []))) := by
  obtain ⟨c, hc⟩ : ∃ c, (make .decoder .null userLayer true).outcome = .ok c := ⟨_, rfl⟩
  obtain ⟨hdocument, hname, hvalue, hfile⟩ := ofDocument_configures .decoder true
  obtain ⟨hnull, -, -⟩ := hvalue (decoderDocument .null) [] .null [] rfl (List.forall_mem_nil _)
  obtain ⟨-, -, hlist⟩ :=
    hvalue (decoderDocument (.list [.int 1])) [] (.list [.int 1]) [] rfl (List.forall_mem_nil _)
  have hother : ∀ e ∈ [((.str "foo", .int 1) : Value × Value)], e.1 ≠ .str "btf-parser-conf" := by
    rw [List.forall_mem_singleton]
    intro h
    exact absurd (Value.str.inj h) (by decide)
  refine ⟨c, hc, (hnull rfl).trans hc, (hlist nofun rfl).1 rfl, hdocument _ rfl,
    hname _ _ rfl hother, ?_⟩
  rw [hfile, documentOf_emptyList, ok_bind, hdocument (.list []) rfl]
  rfl

/-- The decoder takes every false value for no configuration at all, though it refuses each of them
where a configuration is given as a value. -/
theorem falseValues_configure_nothing : ∃ c : Config,
    (make .decoder .null userLayer true).outcome = .ok c ∧ ∀ v ∈ falseValues,
      (ofDocument .decoder (decoderDocument v) true).outcome = .ok c ∧
        (ofMap .decoder v true).outcome = .error (.notMapping "btf-parser-conf") := by
  obtain ⟨c, hc⟩ : ∃ c, (make .decoder .null userLayer true).outcome = .ok c := ⟨_, rfl⟩
  have hfalse : ∀ v ∈ falseValues, v.isTrue = false ∧ v ≠ .null ∧ v.entries? = none := by
    simp only [falseValues, List.forall_mem_cons]
    exact ⟨⟨rfl, nofun, rfl⟩, ⟨rfl, nofun, rfl⟩, ⟨rfl, nofun, rfl⟩, ⟨rfl, nofun, rfl⟩,
      ⟨rfl, nofun, rfl⟩, ⟨rfl, nofun, rfl⟩, ⟨rfl, nofun, rfl⟩, List.forall_mem_nil _⟩
  refine ⟨c, hc, fun v hv => ?_⟩
  obtain ⟨htrue, hnull, hmap⟩ := hfalse v hv
  have hentries : (decoderDocument v).entries? = some ([] ++ (.str "btf-parser-conf", v) :: []) := rfl
  have houtcome : (ofDocument .decoder (decoderDocument v) true).outcome =
      if v.isTrue then (ofMap .decoder v true).outcome
      else (make .decoder .null userLayer true).outcome :=
    outcome_ofDocument hentries (List.forall_mem_nil _)
  rw [htrue, if_neg Bool.false_ne_true] at houtcome
  exact ⟨houtcome.trans hc, outcome_ofMap_of_not_map hnull hmap⟩

end Config
end Btf
