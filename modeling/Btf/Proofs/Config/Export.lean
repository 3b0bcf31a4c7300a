import Btf.Proofs.Config.Lawful

/-!
# Export and import

A configuration is exported as the mapping of its keys that have a value, each with the one that counts.
Whatever layers these come from, they are taken again when the mapping is imported, since they were
taken when they were added. They are all in one layer then, above the defaults, so that no default
overrides them; and no default is new, since a configuration that began with the defaults has a value
for every key that they name.

* `Config.item?`, `Config.items`, `Config.toMap_eq`: the keys that are exported, and their values;
* `Config.Reachable.given?_export`, `Config.Reachable.takes_export`: an export as an addition;
* `Config.exists_add_of_kind`: whether an addition succeeds depends on the kind only;
* `Config.Copies`: a configuration with the values of another one, all of them in one layer;
* `Config.Reachable.exists_copies`, `Config.Copies.add_fallback`: imports without defaults and with them;
* `Config.IsImport`, `Config.Copies.isImport`: an import answers as the configuration exported;
* **`Config.import_of_export`**: every configuration is the import of its export.
-/

namespace Btf

/-- The value of a key among the values of some keys, if it is one of these unless it has none. -/
theorem lookup_filterMap_keys {f : Text → Option Value} {keys : List Text} {key : Text}
    (h : ∀ v, f key = some v → key ∈ keys) :
    (keys.filterMap fun k => (f k).map fun v => (k, v)).lookup key = f key := by
  induction keys with
  | nil =>
    cases hf : f key with
    | none => rfl
    | some v => cases h v hf
  | cons k keys ih =>
    rw [List.filterMap_cons]
    by_cases hkey : key = k
    · subst hkey
      cases hf : f key with
      | none => exact (ih fun v hv => by rw [hf] at hv; cases hv).trans hf
      | some v => exact List.lookup_cons_self
    · have hrest := ih fun v hv => List.mem_of_ne_of_mem hkey (h v hv)
      cases hf : f k with
      | none => exact hrest
      | some v =>
        rw [Option.map_some, Layer.lookup_cons, if_neg hkey]
        exact hrest

namespace Config

variable {c c' c'' : Config} {a : Addition} {key layer : Text} {v : Value}

/-! ## What is exported -/

/-- The value of a key, if it has one. -/
def item? (c : Config) (key : Text) : Option Value :=
  (c.source? key).bind fun layer => c.value? layer key

/-- The keys of a configuration that have a value, with it. -/
def items (c : Config) : List (Text × Value) :=
  c.kind.schema.keyNames.filterMap fun key => (c.item? key).map fun v => (key, v)

theorem item?_eq_firstLayer? (hc : c.names.Nodup) (key : Text) :
    c.item? key = (c.firstLayer? key).bind fun l => l.get? key := by
  rw [item?, ← map_name_firstLayer? hc]
  cases hfirst : c.firstLayer? key with
  | none => rfl
  | some l => exact value?_of_mem hc (List.mem_of_find?_eq_some hfirst) key

/-- **A configuration is exported** as its keys with their values. -/
theorem toMap_eq (hc : c.names.Nodup) : c.toMap = .map (c.items.map fun e => (.str e.1, e.2)) := by
  rw [toMap, effective, items, List.map_filterMap, List.map_filterMap]
  congr 2
  funext key
  rw [item?_eq_firstLayer? hc]
  cases c.firstLayer? key with
  | none => rfl
  | some l =>
    rw [Option.bind_some, Option.bind_some]
    cases l.get? key <;> rfl

theorem isSome_item? (c : Config) (key : Text) : (c.item? key).isSome = (c.source? key).isSome := by
  rw [item?]
  cases hsource : c.source? key with
  | none => rfl
  | some layer => exact isSome_of_source? hsource

theorem exists_value?_of_item? (h : c.item? key = some v) : ∃ layer, c.value? layer key = some v := by
  obtain ⟨layer, -, hv⟩ := Option.bind_eq_some_iff.mp h
  exact ⟨layer, hv⟩

theorem Reachable.mem_keyNames_of_item? (hc : c.Reachable) (h : c.item? key = some v) :
    key ∈ c.kind.schema.keyNames := by
  obtain ⟨layer, hv⟩ := exists_value?_of_item? h
  exact Schema.mem_keyNames_iff.mpr (hc.lookup_of_value? hv)

/-- A configuration says what its items say. -/
theorem Reachable.lookup_items (hc : c.Reachable) (key : Text) :
    c.items.reverse.lookup key = c.item? key := by
  rw [items, ← List.filterMap_reverse]
  exact lookup_filterMap_keys fun _ hv => List.mem_reverse.mpr (hc.mem_keyNames_of_item? hv)

/-! ## An export as an addition -/

theorem textEntries_map_str (es : List (Text × Value)) :
    textEntries (es.map fun e => (.str e.1, e.2)) = es := by
  rw [textEntries, List.filterMap_map]
  exact List.filterMap_some

theorem isMapping_export (hc : c.names.Nodup) (layer : Text) :
    (Addition.start c.toMap layer).IsMapping :=
  .inr ⟨_, congrArg Value.entries? (toMap_eq hc)⟩

theorem remaining_export (hc : c.names.Nodup) (layer : Text) :
    (Addition.start c.toMap layer).remaining = c.items.map fun e => (.str e.1, e.2) := by
  rw [toMap_eq hc]
  rfl

/-- An export gives every key its value. -/
theorem Reachable.given?_export (hc : c.Reachable) (layer key : Text) :
    (Addition.start c.toMap layer).given? key = c.item? key := by
  rw [Addition.given?, (isMapping_export hc.nodup_names layer).given,
    remaining_export hc.nodup_names, textEntries_map_str, hc.lookup_items]

/-- What is exported was taken before, and is taken again. -/
theorem Reachable.takes_export (hc : c.Reachable) (layer : Text) :
    ∀ e ∈ (Addition.start c.toMap layer).remaining, c.kind.schema.Takes e := by
  rw [remaining_export hc.nodup_names]
  refine List.forall_mem_map.mpr fun e he => ?_
  obtain ⟨key, -, he⟩ := List.mem_filterMap.mp he
  obtain ⟨v, hv, rfl⟩ := Option.map_eq_some_iff.mp he
  obtain ⟨source, hsource⟩ := exists_value?_of_item? hv
  exact Schema.validateKey_ok_iff.mp (hc.valid.validateKey_of_layer hsource)

/-! ## Imports -/

/-- Whether an addition succeeds depends on the kind of the configuration only. -/
theorem exists_add_of_kind (h : c.add a = .ok c') (hkind : c''.kind = c.kind) :
    ∃ d, c''.add a = .ok d := by
  rw [add, outcome_addLayer, bind_eq_ok] at h
  obtain ⟨entries, hentries, -⟩ := h
  refine ⟨{ c'' with layers := putLayer a.layer (textEntries entries) a.fallback c''.layers }, ?_⟩
  rw [add, outcome_addLayer, hkind, hentries, ok_bind]

/-- **A configuration with the values of another one**, all of them in the first layer. -/
structure Copies (c' c : Config) : Prop where
  kind : c'.kind = c.kind
  item : ∀ key, c'.item? key = c.item? key
  source : ∀ key layer, c'.source? key = some layer → layer = userLayer

/-- **What is exported** can be added to nothing, and is all in one layer then. -/
theorem Reachable.exists_copies (hc : c.Reachable) :
    ∃ c', Config.add { kind := c.kind } (.start c.toMap userLayer) = .ok c' ∧
      c'.names = [userLayer] ∧ c'.Copies c := by
  obtain ⟨c', h⟩ := (add_ok_iff (c := { kind := c.kind })
    (isMapping_export hc.nodup_names userLayer)).mpr (hc.takes_export userLayer)
  have hnames : c'.names = [userLayer] := names_add_new h List.not_mem_nil
  have hvalue : ∀ key, c'.value? userLayer key = c.item? key := fun key => by
    have hadded : c'.value? userLayer key =
        ((Addition.start c.toMap userLayer).given? key).or none :=
      (value?_add h userLayer key).trans (if_pos rfl)
    rw [hadded, Option.or_none, hc.given?_export]
  have hsource : ∀ key, c'.source? key = (c.item? key).map fun _ => userLayer := fun key => by
    rw [source?, hnames, List.find?_singleton, hvalue]
    cases c.item? key <;> rfl
  have hkind : c'.kind = c.kind := kind_of_add (c := { kind := c.kind }) h
  refine ⟨c', h, hnames, hkind, fun key => ?_, fun key layer hlayer => ?_⟩
  · rw [item?, hsource]
    cases hitem : c.item? key with
    | none => rfl
    | some v => exact (hvalue key).trans hitem
  · rw [hsource, Option.map_eq_some_iff] at hlayer
    obtain ⟨-, -, rfl⟩ := hlayer
    rfl

/-- A fallback whose layer is new leaves the keys that have a value alone. -/
theorem source?_add_fallback (h : c.add a = .ok c') (hfallback : a.fallback = true)
    (hnew : a.layer ∉ c.names) (hsource : c.source? key = some layer) :
    c'.source? key = some layer ∧ c'.item? key = c.item? key := by
  have hover : c.Overruled a.layer key := by
    refine ⟨layer, ?_, isSome_of_source? hsource⟩
    rw [above_of_not_mem hnew]
    exact List.mem_of_find?_eq_some hsource
  obtain ⟨l, hl, hbefore, hafter⟩ := hover.source?_add h (.inl hfallback)
  cases Option.some.inj (hsource.symm.trans hbefore)
  refine ⟨hafter, ?_⟩
  rw [item?, item?, hsource, hafter]
  exact value?_add_of_ne h (ne_of_mem_above hl) key

/-- **A fallback for keys that have a value** keeps a copy one. -/
theorem Copies.add_fallback (hcopy : c'.Copies c) (h : c'.add a = .ok c'')
    (hfallback : a.fallback = true) (hnew : a.layer ∉ c'.names)
    (hgiven : ∀ key v, a.given? key = some v → (c.item? key).isSome) : c''.Copies c := by
  have hkept : ∀ key, c''.source? key = c'.source? key ∧ c''.item? key = c'.item? key := fun key => by
    cases hkey : a.given? key with
    | none =>
      have hsource := source?_add_of_not_given h hkey
      refine ⟨hsource, ?_⟩
      rw [item?, item?, hsource]
      simp only [value?_add_of_not_given h hkey]
    | some v =>
      have hsome := hgiven key v hkey
      rw [← hcopy.item, isSome_item?] at hsome
      obtain ⟨layer, hlayer⟩ := Option.isSome_iff_exists.mp hsome
      rw [hlayer]
      exact source?_add_fallback h hfallback hnew hlayer
  refine ⟨(kind_of_add h).trans hcopy.kind, fun key => (hkept key).2.trans (hcopy.item key), ?_⟩
  intro key layer hlayer
  rw [(hkept key).1] at hlayer
  exact hcopy.source key layer hlayer

/-! ## Answers -/

/-- **A configuration is an import of another one**: it is exported as the same mapping, has the same
keys and answers with the same values and the same faults, and every value comes from its first layer. -/
structure IsImport (c' c : Config) : Prop where
  toMap : c'.toMap = c.toMap
  keys : c'.keys = c.keys
  get : ∀ key, c'.get key = c.get key
  layerOf : ∀ key ∈ c'.keys, c'.layerOf key = .ok userLayer

theorem Copies.isImport (h : c'.Copies c) (hc' : c'.Reachable) (hc : c.Reachable) :
    c'.IsImport c where
  toMap := by
    rw [toMap_eq hc'.nodup_names, toMap_eq hc.nodup_names, items, items, h.kind]
    simp only [h.item]
  keys := by
    rw [Config.keys, Config.keys, h.kind]
    refine List.filter_congr fun key _ => ?_
    rw [← Option.isSome_map (f := Layer.name), map_name_firstLayer? hc'.nodup_names, ← isSome_item?,
      h.item, isSome_item?, ← map_name_firstLayer? hc.nodup_names, Option.isSome_map]
  get key := by
    cases hkey : c.kind.schema.lookup (.str key) with
    | error fault => rw [Config.get, Config.get, Config.layerOf, Config.layerOf, h.kind, hkey]; rfl
    | ok k =>
      have hitem := h.item key
      have hkey' := hkey
      rw [← h.kind] at hkey'
      rw [get_eq hc'.nodup_names hkey', get_eq hc.nodup_names hkey, fullName, fullName, h.kind]
      exact congrArg (answer · _) hitem
  layerOf key hmem := by
    obtain ⟨source, v, hv⟩ := hc'.mem_keys_iff.mp hmem
    obtain ⟨k, hk⟩ := hc'.lookup_of_value? hv
    obtain ⟨layer, hlayer⟩ := exists_source?_iff.mpr ⟨source, v, hv⟩
    cases h.source key layer hlayer
    exact (layerOf_ok_iff hc'.nodup_names hk).mpr hlayer

/-! ## The defaults -/

/-- **A key that the defaults name has a value** ever after, where a configuration began with them. -/
theorem isSome_item?_of_defaults {kind : ConfigKind} {name : Text}
    (h : (make kind v name true).outcome = .ok c) (hdefaults : kind.defaults.isTrue = true)
    {d : Value} (hd : (Addition.defaults kind).given? key = some d) (as : List Addition) :
    ((c.attemptAll as).item? key).isSome := by
  have hc := Reachable.make h
  have hget := hc.exists_get_attemptAll (exists_get_of_given_default h hdefaults hd) as
  rw [(hc.attemptAll as).exists_get_iff, ← exists_source?_iff, ← Option.isSome_iff_exists,
    ← isSome_item?] at hget
  exact hget

/-- **Every configuration is the import of its export**, whatever was added to it, without the defaults
in any case, and with them if it began with them. -/
theorem import_of_export {kind : ConfigKind} {name : Text} {withDefaults : Bool}
    (h : (make kind v name withDefaults).outcome = .ok c) (as : List Addition) :
    (∃ c', (ofMap kind (c.attemptAll as).toMap false).outcome = .ok c' ∧
      c'.IsImport (c.attemptAll as)) ∧
    (withDefaults = true → ∃ c', (ofMap kind (c.attemptAll as).toMap true).outcome = .ok c' ∧
      c'.IsImport (c.attemptAll as)) := by
  have hc := (Reachable.make h).attemptAll as
  have hkind : (c.attemptAll as).kind = kind := (c.kind_attemptAll as).trans (valid_make h).2
  obtain ⟨c₁, h₁, hnames, hcopy⟩ := hc.exists_copies
  rw [hkind] at h₁
  have hplain : ∀ {withDefaults}, (withDefaults && kind.defaults.isTrue) = false →
      ∃ c', (ofMap kind (c.attemptAll as).toMap withDefaults).outcome = .ok c' ∧
        c'.IsImport (c.attemptAll as) := fun hwithout => by
    have hmake := (outcome_make_without hwithout).trans h₁
    exact ⟨c₁, hmake, hcopy.isImport (.make hmake) hc⟩
  refine ⟨hplain (Bool.false_and _), ?_⟩
  rintro rfl
  cases hdefaults : kind.defaults.isTrue with
  | false => exact hplain hdefaults
  | true =>
    -- the defaults were taken when the configuration was made, and are taken again
    obtain ⟨c₀, hstart, h₀⟩ := (make_with_defaults_iff hdefaults).mp h
    have hkinds : c₁.kind = c₀.kind := (kind_of_add h₁).trans (kind_of_add hstart).symm
    obtain ⟨c₂, h₂⟩ := exists_add_of_kind h₀ hkinds
    have hnew : (Addition.defaults kind).layer ∉ c₁.names := by
      rw [hnames, List.mem_singleton]
      exact (by decide : defaultLayer ≠ userLayer)
    have hmake := (make_with_defaults_iff hdefaults).mpr ⟨c₁, h₁, h₂⟩
    have hcopy' := hcopy.add_fallback h₂ rfl hnew fun key d hd =>
      isSome_item?_of_defaults h hdefaults hd as
    exact ⟨c₂, hmake, hcopy'.isImport (.make hmake) hc⟩

/-- Keys for a text that may be missing and for a number, which is one by default. -/
def notes : ConfigKind where
  name := "Notes"
  schema := { name := "notes", help := "", keys :=
    [{ name := "note", help := "", types := [.str, .null] },
      { name := "count", help := "", types := [.int] }] }
  defaults := .map [("count", .int 1)]

/-- A null value that counts more than a text, an addition that fails and a fallback. -/
def laterNotes : List Addition :=
  [⟨"a", .map [("note", .null)], false, false⟩, ⟨"a", .map [("count", .str "")], false, false⟩,
   ⟨"b", .map [("note", .str "x"), ("count", .int 2)], false, true⟩]

theorem import_of_export_notes : ∃ c c' : Config,
    (make notes (.map [("note", .str "y")]) userLayer true).outcome = .ok c ∧
      (c.attemptAll laterNotes).toMap = .map [("note", .null), ("count", .int 1)] ∧
      (c.attemptAll laterNotes).layerOf "count" = .ok defaultLayer ∧
      (ofMap notes (.map [("note", .null), ("count", .int 1)]) true).outcome = .ok c' ∧
      c'.toMap = .map [("note", .null), ("count", .int 1)] ∧ c'.layerOf "count" = .ok userLayer := by
  obtain ⟨c, h⟩ : ∃ c, (make notes (.map [("note", .str "y")]) userLayer true).outcome = .ok c :=
    ⟨_, rfl⟩
  obtain ⟨c', h', himport⟩ := (import_of_export h laterNotes).2 rfl
  obtain ⟨hmap, hkeys, hlayer⟩ : (c.attemptAll laterNotes).toMap =
      .map [("note", .null), ("count", .int 1)] ∧ (c.attemptAll laterNotes).keys = ["note", "count"] ∧
        (c.attemptAll laterNotes).layerOf "count" = .ok defaultLayer := by
    cases h
    exact ⟨rfl, rfl, rfl⟩
  have hcount := himport.layerOf "count"
  rw [himport.keys, hkeys] at hcount
  rw [hmap] at h'
  exact ⟨c, c', h, hmap, hlayer, h', himport.toMap.trans hmap, hcount (by decide)⟩

end Config
end Btf
