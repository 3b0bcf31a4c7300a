import Btf.Proofs.Config.InPlace
import Btf.Proofs.Settings

/-!
# Configurations as mappings

A configuration is a mapping whose keys are told by the values that it holds and whose values are told
by the order of its layers. Only additions change either, and whichever are tried, and whether or not
they succeed, the two stay in step.

* `Schema.nodup_keyNames`, `Schema.mem_keyNames_iff`: the keys of a schema;
* `Config.attempt`, `Store.attempt`: additions that may fail;
* `Store.Shows.attempt`, **`Store.Shows.attemptAll`**: what one of them preserves, and any number of them;
* `Config.Reachable.exists_get_iff`: a key has a value exactly if some layer has one for it;
* `Store.Lawful`, **`Store.Shows.lawful`**: a mapping of valid values;
* `Config.Reachable.exists_get_attemptAll`: a key that has a value keeps one;
* **`lawful_of_attempts`**: every configuration that there can be, and that of the decoder.
-/

namespace Btf

/-! ## The keys of a schema -/

namespace Schema

variable {s : Schema} {key : Text}

/-- Names that are put behind others unless they are there. -/
theorem nodup_foldl_names (ks : List Key) {names : List Text} (h : names.Nodup) :
    (ks.foldl (fun names k => if names.contains k.name then names else names ++ [k.name])
      names).Nodup := by
  induction ks generalizing names with
  | nil => exact h
  | cons k ks ih =>
    rw [List.foldl_cons]
    refine ih ?_
    split
    · exact h
    · next hnew =>
      rw [List.contains_iff_mem] at hnew
      refine List.nodup_append.mpr ⟨h, List.nodup_singleton _, fun name hname name' hname' heq => ?_⟩
      rw [List.mem_singleton.mp hname'] at heq
      exact hnew (heq ▸ hname)

theorem mem_foldl_names (ks : List Key) (names : List Text) :
    key ∈ ks.foldl (fun names k => if names.contains k.name then names else names ++ [k.name])
      names ↔ key ∈ names ∨ ∃ k ∈ ks, k.name = key := by
  induction ks generalizing names with
  | nil => simp
  | cons k ks ih =>
    rw [List.foldl_cons, ih, List.exists_mem_cons_iff, ← or_assoc]
    refine or_congr_left ?_
    split
    · next hmem =>
      rw [List.contains_iff_mem] at hmem
      exact ⟨.inl, fun h => h.elim id fun heq => heq ▸ hmem⟩
    · rw [List.mem_append, List.mem_singleton, eq_comm]

/-- **No key of a schema is named twice.** -/
theorem nodup_keyNames (s : Schema) : s.keyNames.Nodup := nodup_foldl_names s.keys List.nodup_nil

/-- **The keys of a schema** are those that can be looked up. -/
theorem mem_keyNames_iff : key ∈ s.keyNames ↔ ∃ k, s.lookup (.str key) = .ok k := by
  have hfind : (∃ k ∈ s.keys, k.name = key) ↔ (s.find? key).isSome := by
    rw [find?, List.find?_isSome]
    simp only [List.mem_reverse, beq_iff_eq]
  rw [keyNames, mem_foldl_names, or_iff_right List.not_mem_nil, hfind, lookup]
  cases s.find? key with
  | none =>
    constructor
    · intro h
      cases h
    · rintro ⟨_, h⟩
      cases h
  | some k => exact ⟨fun _ => ⟨k, rfl⟩, fun _ => rfl⟩

end Schema

/-! ## Additions that may fail -/

namespace Config

/-- The configuration after an addition, which may have failed. -/
def attempt (c : Config) (a : Addition) : Config :=
  match c.add a with
  | .ok c' => c'
  | .error _ => c

def attemptAll (c : Config) (as : List Addition) : Config := as.foldl attempt c

variable {c c' : Config} {a : Addition}

theorem attempt_of_ok (h : c.add a = .ok c') : c.attempt a = c' := by rw [attempt, h]

theorem attempt_of_error {fault : ConfigFault} (h : c.add a = .error fault) : c.attempt a = c := by
  rw [attempt, h]

theorem attemptAll_of_addAll {as : List Addition} (h : c.addAll as = .ok c') :
    c.attemptAll as = c' := by
  induction as generalizing c with
  | nil =>
    cases h
    rfl
  | cons a as ih =>
    rw [addAll_cons, bind_eq_ok] at h
    obtain ⟨c₁, h₁, h⟩ := h
    have hrest := ih h
    rw [attemptAll, List.foldl_cons, attempt_of_ok h₁]
    exact hrest

theorem attemptAll_append (c : Config) (as bs : List Addition) :
    c.attemptAll (as ++ bs) = (c.attemptAll as).attemptAll bs := List.foldl_append

/-- What every addition that succeeds preserves, any attempts do. -/
theorem attemptAll_induction {P : Config → Prop} (hc : P c)
    (hadd : ∀ {c a c'}, P c → c.add a = .ok c' → P c') (as : List Addition) :
    P (c.attemptAll as) := by
  induction as generalizing c with
  | nil => exact hc
  | cons a as ih =>
    refine ih ?_
    cases h : c.add a with
    | ok c' =>
      rw [attempt_of_ok h]
      exact hadd hc h
    | error fault =>
      rw [attempt_of_error h]
      exact hc

theorem kind_attemptAll (c : Config) (as : List Addition) : (c.attemptAll as).kind = c.kind :=
  attemptAll_induction (P := fun c' => c'.kind = c.kind) rfl (fun h ha => (kind_of_add ha).trans h) as

theorem Reachable.attemptAll (hc : c.Reachable) (as : List Addition) : (c.attemptAll as).Reachable :=
  attemptAll_induction hc Reachable.add as

end Config

namespace Store

/-- The store after an addition in place, which may have failed. -/
def attempt (schema : Schema) (st : Store) (a : Addition) : Store := ((add schema a).apply st).2

def attemptAll (schema : Schema) (st : Store) (as : List Addition) : Store :=
  as.foldl (attempt schema) st

variable {st : Store} {c : Config} {a : Addition}

/-- What is no mapping is added nowhere. -/
theorem apply_add_of_not_isMapping (ha : ¬ a.IsMapping) (c : Config) (st : Store) :
    ∃ fault, c.add a = .error fault ∧ (add c.kind.schema a).apply st = (.error fault, st) := by
  obtain ⟨layer, v, dropNull, fallback⟩ := a
  cases v with
  | null => exact absurd (.inl rfl) ha
  | map es | orderedMap es => exact absurd (.inr ⟨es, rfl⟩) ha
  | _ => cases dropNull <;> exact ⟨_, rfl, rfl⟩

/-- **What one attempt preserves**: the store holds the configuration, whether or not the addition
succeeds. -/
theorem Shows.attempt (h : st.Shows c) (a : Addition) :
    (st.attempt c.kind.schema a).Shows (c.attempt a) := by
  by_cases ha : a.IsMapping
  · cases hadd : c.add a with
    | ok c' =>
      obtain ⟨st', hst', hshows⟩ := h.apply_add ha hadd
      rw [Store.attempt, hst', Config.attempt_of_ok hadd]
      exact hshows
    | error fault =>
      rw [Store.attempt, apply_add_of_error ha hadd, Config.attempt_of_error hadd]
      exact h
  · obtain ⟨fault, hadd, hst'⟩ := apply_add_of_not_isMapping ha c st
    rw [Store.attempt, hst', Config.attempt_of_error hadd]
    exact h

/-- **What any attempts preserve**, by induction on them. -/
theorem Shows.attemptAll (h : st.Shows c) (as : List Addition) :
    (st.attemptAll c.kind.schema as).Shows (c.attemptAll as) := by
  induction as generalizing st c with
  | nil => exact h
  | cons a as ih =>
    have hkind : (c.attempt a).kind = c.kind := c.kind_attemptAll [a]
    have hrest := ih (h.attempt a)
    rw [hkind] at hrest
    exact hrest

/-- **A store that is begun with a configuration** and goes through the same attempts holds what becomes
of it. -/
theorem shows_of_make {kind : ConfigKind} {v : Value} {name : Text} {withDefaults : Bool}
    (h : (Config.make kind v name withDefaults).outcome = .ok c) (as : List Addition) :
    (({} : Store).attemptAll kind.schema (Addition.ofMake kind v name withDefaults ++ as)).Shows
      (c.attemptAll as) := by
  rw [Config.outcome_make_eq_addAll] at h
  have hall := (shows_empty kind).attemptAll (Addition.ofMake kind v name withDefaults ++ as)
  rw [Config.attemptAll_append, Config.attemptAll_of_addAll h] at hall
  exact hall

end Store

/-! ## Keys that have a value -/

namespace Config

variable {c : Config} {key layer : Text} {v : Value}

theorem Reachable.valid (hc : c.Reachable) : c.Valid :=
  hc.induct valid_empty fun h ha => (h.addLayer ha).1

theorem Reachable.lookup_of_value? (hc : c.Reachable) (h : c.value? layer key = some v) :
    ∃ k, c.kind.schema.lookup (.str key) = .ok k := by
  obtain ⟨k, hk, -⟩ := bind_eq_ok.mp (hc.valid.validateKey_of_layer h)
  exact ⟨k, hk⟩

theorem Reachable.exists_layerOf_iff (hc : c.Reachable) : (∃ layer, c.layerOf key = .ok layer) ↔
    ∃ layer v, c.value? layer key = some v := by
  constructor
  · rintro ⟨layer, h⟩
    obtain ⟨k, hk⟩ := lookup_of_layerOf h
    exact exists_source?_iff.mp ⟨layer, (layerOf_ok_iff hc.nodup_names hk).mp h⟩
  · rintro ⟨layer, v, hv⟩
    obtain ⟨k, hk⟩ := hc.lookup_of_value? hv
    obtain ⟨source, hsource⟩ := exists_source?_iff.mpr ⟨layer, v, hv⟩
    exact ⟨source, (layerOf_ok_iff hc.nodup_names hk).mpr hsource⟩

/-- **A key has a value** exactly if some layer has one for it. -/
theorem Reachable.exists_get_iff (hc : c.Reachable) : (∃ w, c.get key = .ok w) ↔
    ∃ layer v, c.value? layer key = some v := by
  constructor
  · rintro ⟨w, h⟩
    obtain ⟨layer, hlayer, -⟩ := bind_eq_ok.mp h
    exact hc.exists_layerOf_iff.mp ⟨layer, hlayer⟩
  · rintro ⟨layer, v, hv⟩
    obtain ⟨k, hk⟩ := hc.lookup_of_value? hv
    obtain ⟨source, hsource⟩ := exists_source?_iff.mpr ⟨layer, v, hv⟩
    obtain ⟨w, hw⟩ := Option.isSome_iff_exists.mp (isSome_of_source? hsource)
    exact ⟨w, (get_ok_iff hc.nodup_names hk).mpr ⟨source, hsource, hw⟩⟩

theorem Reachable.mem_keys_iff (hc : c.Reachable) : key ∈ c.keys ↔
    ∃ layer v, c.value? layer key = some v := by
  rw [keys, List.mem_filter, ← Option.isSome_map (f := Layer.name),
    map_name_firstLayer? hc.nodup_names, Option.isSome_iff_exists, exists_source?_iff]
  refine and_iff_right_of_imp ?_
  rintro ⟨layer, v, hv⟩
  exact Schema.mem_keyNames_iff.mpr (hc.lookup_of_value? hv)

end Config

/-! ## Mappings -/

namespace Store

/-- The number of the keys that have a value, counted one by one. -/
def size (schema : Schema) (st : Store) : Nat :=
  (st.keys schema).foldl (fun n _ => n + 1) 0

/-- **A mapping of valid values**: its keys stand once each in the order of the schema and are counted
by its size, a key is among them exactly if a layer or a value is found for it, and every value is one
that its key takes, in a layer that has one place in the order. -/
structure Lawful (schema : Schema) (st : Store) : Prop where
  sublist : (st.keys schema).Sublist schema.keyNames
  nodup : (st.keys schema).Nodup
  size : st.size schema = (st.keys schema).length
  layerOf : ∀ key, key ∈ st.keys schema ↔ ∃ layer, st.layerOf schema key = .ok layer
  get : ∀ key, key ∈ st.keys schema ↔ ∃ v, st.get schema key = .ok v
  valid : ∀ key layer v, st.value? key layer = some v → schema.validateKey (.str key) v = .ok ()
  once : ∀ key layer v, st.value? key layer = some v → st.order.count layer = 1

/-- **A store that holds a configuration** is a mapping of valid values. -/
theorem Shows.lawful {st : Store} {c : Config} (h : st.Shows c) (hc : c.Reachable) :
    st.Lawful c.kind.schema where
  sublist := List.filter_sublist
  nodup := c.kind.schema.nodup_keyNames.filter _
  size := by
    rw [Store.size, List.foldl_add_const, Nat.zero_add, Nat.one_mul]
  layerOf key := by
    rw [(h.answersAs hc).keys, hc.mem_keys_iff, ← hc.exists_layerOf_iff]
    simp only [(h.answersAs hc).layerOf]
  get key := by
    rw [(h.answersAs hc).keys, hc.mem_keys_iff, ← hc.exists_get_iff]
    simp only [(h.answersAs hc).get]
  valid key layer v hv := hc.valid.validateKey_of_layer ((h.value key layer).symm.trans hv)
  once key layer v hv := by
    rw [h.order]
    exact List.count_eq_one_of_mem hc.nodup_names
      (Config.mem_names_of_value? ((h.value key layer).symm.trans hv))

end Store

/-! ## The decoder -/

namespace Config

variable {c : Config} {key : Text}

/-- **A key that has a value keeps one**, though it may be another one. -/
theorem Reachable.exists_get_attemptAll (hc : c.Reachable) (h : ∃ w, c.get key = .ok w)
    (as : List Addition) : ∃ w, (c.attemptAll as).get key = .ok w := by
  rw [hc.exists_get_iff] at h
  rw [(hc.attemptAll as).exists_get_iff]
  refine attemptAll_induction (P := fun c => ∃ layer v, c.value? layer key = some v) h ?_ as
  rintro c a c' ⟨layer, v, hv⟩ hadd
  cases hgiven : a.given? key with
  | none => exact ⟨layer, v, (value?_add_of_not_given hadd hgiven layer).trans hv⟩
  | some w => exact ⟨a.layer, w, value?_add_of_given hadd hgiven⟩

/-- The layer of the defaults has a value for every key that they name, whatever name the first layer
has. -/
theorem exists_get_of_given_default {kind : ConfigKind} {v d : Value} {name : Text}
    (h : (make kind v name true).outcome = .ok c) (hdefaults : kind.defaults.isTrue = true)
    (hd : (Addition.defaults kind).given? key = some d) : ∃ w, c.get key = .ok w := by
  rw [(Reachable.make h).exists_get_iff]
  obtain ⟨c₁, -, hadd⟩ := (make_with_defaults_iff hdefaults).mp h
  exact ⟨_, d, value?_add_of_given hadd hd⟩

theorem exists_get_of_defaults {v : Value} {name : Text}
    (h : (make .decoder v name true).outcome = .ok c)
    (hkey : key ∈ ConfigKind.decoder.schema.keyNames) : ∃ w, c.get key = .ok w := by
  obtain ⟨-, d, hd⟩ := exists_default hkey
  exact exists_get_of_given_default h rfl hd

/-- With all options there, decoding does not fail for the configuration. -/
theorem outcome_decode_ne_config (hencoding : ∃ w, c.get "string-encoding" = .ok w)
    (herrors : ∃ w, c.get "string-errors" = .ok w) (hmap : ∃ w, c.get "use-mmap" = .ok w)
    (input : Input) (fault : ConfigFault) :
    ((Settings.config c).decode input).outcome ≠ .error (.config fault) := by
  have hmake : (Settings.config c).make.outcome = .ok c := rfl
  rw [Settings.outcome_decode_of_make hmake,
    table_eq (textOptions_of_get hencoding herrors) (mapOption_of_get hmap), Logged.outcome_mapError]
  intro h
  obtain ⟨f, -, hf⟩ := mapError_eq_error.mp h
  cases hf

end Config

/-- **A configuration is a lawful mapping of valid values** after any attempts to add to it, successful
or not: the store that has gone through the same attempts is one, and answers as it does. With the
defaults of the decoder every key has a value ever after, so that decoding never fails for a missing
option. -/
theorem lawful_of_attempts (as : List Addition) :
    (∀ {kind : ConfigKind} {v : Value} {name : Text} {withDefaults : Bool} {c : Config},
      (Config.make kind v name withDefaults).outcome = .ok c →
        let st := ({} : Store).attemptAll kind.schema
          (Addition.ofMake kind v name withDefaults ++ as)
        st.Lawful kind.schema ∧ st.AnswersAs (c.attemptAll as)) ∧
    ∀ {v : Value} {name : Text} {c : Config}, (Config.make .decoder v name true).outcome = .ok c →
      (∀ key ∈ ConfigKind.decoder.schema.keyNames, ∃ w, (c.attemptAll as).get key = .ok w) ∧
      ∀ input fault,
        ((Settings.config (c.attemptAll as)).decode input).outcome ≠ .error (.config fault) := by
  constructor
  · intro kind v name withDefaults c h
    have hc := (Config.Reachable.make h).attemptAll as
    have hshows := Store.shows_of_make h as
    have hkind : (c.attemptAll as).kind = kind :=
      (c.kind_attemptAll as).trans (Config.valid_make h).2
    exact ⟨hkind ▸ hshows.lawful hc, hshows.answersAs hc⟩
  · intro v name c h
    have hget : ∀ key ∈ ConfigKind.decoder.schema.keyNames, ∃ w,
        (c.attemptAll as).get key = .ok w := fun key hkey =>
      (Config.Reachable.make h).exists_get_attemptAll (Config.exists_get_of_defaults h hkey) as
    exact ⟨hget, Config.outcome_decode_ne_config (hget _ (by decide)) (hget _ (by decide))
      (hget _ (by decide))⟩

/-- The defaults, an addition that fails and one that succeeds. -/
theorem lawful_of_attempts_misspelled :
    ∃ c : Config, (Config.make .decoder .null Config.userLayer true).outcome = .ok c ∧
      (∃ fault, c.add Config.misspelled = .error fault) ∧
      let as : List Addition := [Config.misspelled, Config.mappedByUser false]
      let st := ({} : Store).attemptAll ConfigKind.decoder.schema
        (Addition.ofMake .decoder .null Config.userLayer true ++ as)
      st.Lawful ConfigKind.decoder.schema ∧
      st.keys ConfigKind.decoder.schema = ["string-encoding", "string-errors", "use-mmap"] ∧
      (c.attemptAll as).get "use-mmap" = .ok (.bool false) ∧
      ∀ input fault, ((Settings.config (c.attemptAll as)).decode input).outcome ≠
        .error (.config fault) := by
  obtain ⟨c, h⟩ : ∃ c, (Config.make .decoder .null Config.userLayer true).outcome = .ok c := ⟨_, rfl⟩
  obtain ⟨hmapping, hdecoder⟩ := lawful_of_attempts [Config.misspelled, Config.mappedByUser false]
  obtain ⟨-, hdecode⟩ := hdecoder h
  refine ⟨c, h, ?_, (hmapping h).1, rfl, ?_, hdecode⟩
  · cases h
    exact ⟨_, rfl⟩
  · cases h
    rfl

end Btf
