import Btf.Proofs.Config
import Mathlib.Data.List.Find
import Mathlib.Data.List.Nodup

/-!
# Layers by their names

A configuration answers questions by two things: the names of its layers in the order in which they
count, and the value that the layer of a name has for a key. An addition changes the first by at most
one name and the second for one layer only.

* `Addition`, `Addition.given?`: values for a layer, and the one that a key gets;
* `Config.names`, `Config.value?`, `Config.source?`: the layers, their values, and the first of them
  that has one;
* `Config.layerOf_eq`, `Config.getFrom_eq`, `Config.get_eq`: the answers in these terms;
* `Config.add`, `Config.Reachable`: configurations after an addition, and all that there can be;
* **`Config.names_add_of_mem`**, **`Config.names_add_new`**, **`Config.value?_add`**: what an addition
  changes;
* `Config.Reachable.nodup_names`: no two layers have one name.
-/

namespace Btf

/-- Values for the layer of a name; null values are dropped where that is wanted. -/
structure Addition where
  layer : Text
  value : Value
  dropNull : Bool := false
  fallback : Bool := false

namespace Addition

/-- The values that are given to keys, one after the other. A value that is dropped is not given. -/
def given (a : Addition) : List (Text × Value) :=
  match a.value.entries? with
  | some es => es.filterMap fun
    | (.str key, .null) => if a.dropNull then none else some (key, .null)
    | (.str key, v) => some (key, v)
    | _ => none
  | none => []

/-- The value that a key is given, the last one where there are more. -/
def given? (a : Addition) (key : Text) : Option Value := a.given.reverse.lookup key

/-- The values that a configuration is made with. -/
def start (v : Value) (name : Text) : Addition := ⟨name, v, false, false⟩

/-- The defaults of a kind, which are a fallback. -/
def defaults (kind : ConfigKind) : Addition := ⟨Config.defaultLayer, kind.defaults, false, true⟩

/-- The additions that a configuration is made by. -/
def ofMake (kind : ConfigKind) (v : Value) (name : Text) (withDefaults : Bool) : List Addition :=
  start v name :: if withDefaults && kind.defaults.isTrue then [defaults kind] else []

end Addition

/-! ## Values of one layer -/

namespace Layer

theorem lookup_cons {α : Type} (e : Text × α) (es : List (Text × α)) (key : Text) :
    List.lookup key (e :: es) = if key = e.1 then some e.2 else es.lookup key := by
  rw [List.lookup_cons]
  by_cases h : key = e.1
  · rw [if_pos h, beq_iff_eq.mpr h]
  · rw [if_neg h, beq_eq_false_iff_ne.mpr h]

theorem lookup_put (key k : Text) (v : Value) (es : List (Text × Value)) :
    (put key v es).lookup k = if k = key then some v else es.lookup k := by
  induction es with
  | nil => rw [put, lookup_cons]
  | cons e es ih =>
    obtain ⟨k', w⟩ := e
    rw [put]
    by_cases hk' : k' = key
    · rw [if_pos hk', lookup_cons, lookup_cons, hk']
      by_cases h : k = key
      · rw [if_pos h, if_pos h]
      · rw [if_neg h, if_neg h, if_neg h]
    · rw [if_neg hk', lookup_cons, lookup_cons, ih]
      by_cases h : k = k'
      · rw [if_pos h, if_pos h, if_neg (h ▸ hk')]
      · rw [if_neg h, if_neg h]

/-- **A layer has the value that it was given last**, or else the one that it had. -/
theorem get?_update (l : Layer) (entries : List (Text × Value)) (key : Text) :
    (l.update entries).get? key = (entries.reverse.lookup key).or (l.get? key) := by
  obtain ⟨name, es⟩ := l
  change (entries.foldl (fun es e => put e.1 e.2 es) es).lookup key =
    (entries.reverse.lookup key).or (es.lookup key)
  induction entries generalizing es with
  | nil => rfl
  | cons e entries ih =>
    rw [List.foldl_cons, ih, List.reverse_cons, List.lookup_append, lookup_put, Option.or_assoc,
      lookup_cons]
    by_cases h : key = e.1
    · rw [if_pos h, if_pos h]
      rfl
    · rw [if_neg h, if_neg h]
      rfl

end Layer

namespace Config

variable {c c' : Config} {a : Addition} {key layer : Text} {k : Key} {v : Value}

/-! ## Answers -/

/-- The names of the layers, the one that counts most first. -/
def names (c : Config) : List Text := c.layers.map Layer.name

/-- The value that the layer of a name has for a key. -/
def value? (c : Config) (layer key : Text) : Option Value :=
  (c.layers.find? fun l => l.name = layer).bind fun l => l.get? key

/-- The name of the first layer that has a value for a key. -/
def source? (c : Config) (key : Text) : Option Text :=
  c.names.find? fun layer => (c.value? layer key).isSome

/-- What there is, or else a fault. -/
def answer {α : Type} (what : Option α) (fault : ConfigFault) : Except ConfigFault α :=
  what.elim (.error fault) .ok

theorem answer_ok_iff {α : Type} {what : Option α} {fault : ConfigFault} {a : α} :
    answer what fault = .ok a ↔ what = some a := by
  cases what <;> simp [answer]

theorem value?_of_mem (hc : c.names.Nodup) {l : Layer} (hl : l ∈ c.layers) (key : Text) :
    c.value? l.name key = l.get? key := by
  have hfind : (c.layers.find? fun l' => l'.name = l.name) = some l := by
    obtain ⟨before, after, hlayers⟩ := List.append_of_mem hl
    rw [List.find?_eq_some_iff_append]
    refine ⟨decide_eq_true rfl, before, after, hlayers, fun l' hl' => ?_⟩
    rw [names, hlayers, List.map_append, List.map_cons] at hc
    have hne : l'.name ≠ l.name := fun heq => by
      have hdisjoint := (List.nodup_append.mp hc).2.2
      exact hdisjoint _ (List.mem_map.mpr ⟨l', hl', rfl⟩) _ List.mem_cons_self heq
    rw [decide_eq_false hne]
    rfl
  rw [value?, hfind]
  rfl

theorem value?_eq_none (h : layer ∉ c.names) : c.value? layer key = none := by
  have hfind : (c.layers.find? fun l => l.name = layer) = none := by
    rw [List.find?_eq_none]
    intro l hl hname
    exact h (List.mem_map.mpr ⟨l, hl, of_decide_eq_true hname⟩)
  rw [value?, hfind]
  rfl

theorem mem_names_of_value? (h : c.value? layer key = some v) : layer ∈ c.names := by
  by_cases hmem : layer ∈ c.names
  · exact hmem
  · rw [value?_eq_none hmem] at h
    cases h

theorem map_name_firstLayer? (hc : c.names.Nodup) :
    (c.firstLayer? key).map Layer.name = c.source? key := by
  rw [firstLayer?, source?, names, List.find?_map]
  congr 1
  refine List.find?_congr fun l hl => ?_
  rw [Function.comp_apply, value?_of_mem hc hl]

theorem name_of_lookup {s : Schema} (h : s.lookup (.str key) = .ok k) : k.name = key := by
  unfold Schema.lookup at h
  dsimp only at h
  split at h
  · next k' hk' =>
    cases h
    have hname := List.find?_some hk'
    exact beq_iff_eq.mp hname
  · cases h

/-- **The layer that a value comes from** is the first that has one. -/
theorem layerOf_eq (hc : c.names.Nodup) (hkey : c.kind.schema.lookup (.str key) = .ok k) :
    c.layerOf key = answer (c.source? key) (.noLayer (c.fullName key)) := by
  rw [layerOf, hkey, ← map_name_firstLayer? hc, ← name_of_lookup hkey]
  cases c.firstLayer? k.name <;> rfl

theorem getFrom_eq (hkey : c.kind.schema.lookup (.str key) = .ok k) (layer : Text) :
    c.getFrom layer key = answer (c.value? layer key) (.notInLayer (c.fullName key) layer) := by
  rw [getFrom, hkey, ← name_of_lookup hkey, value?]
  cases (c.layers.find? fun l => l.name = layer).bind fun l => l.get? k.name <;> rfl

theorem layerOf_ok_iff (hc : c.names.Nodup) (hkey : c.kind.schema.lookup (.str key) = .ok k) :
    c.layerOf key = .ok layer ↔ c.source? key = some layer := by
  rw [layerOf_eq hc hkey, answer_ok_iff]

theorem getFrom_ok_iff (hkey : c.kind.schema.lookup (.str key) = .ok k) :
    c.getFrom layer key = .ok v ↔ c.value? layer key = some v := by
  rw [getFrom_eq hkey, answer_ok_iff]

theorem isSome_of_source? (h : c.source? key = some layer) : (c.value? layer key).isSome := by
  have hvalue := List.find?_some h
  exact hvalue

/-- There is a first layer with a value for a key if there is any. -/
theorem exists_source?_iff : (∃ layer, c.source? key = some layer) ↔
    ∃ layer v, c.value? layer key = some v := by
  constructor
  · rintro ⟨layer, h⟩
    obtain ⟨v, hv⟩ := Option.isSome_iff_exists.mp (isSome_of_source? h)
    exact ⟨layer, v, hv⟩
  · rintro ⟨layer, v, hv⟩
    refine Option.isSome_iff_exists.mp ?_
    rw [source?, List.find?_isSome]
    exact ⟨layer, mem_names_of_value? hv, by rw [hv]; rfl⟩

/-- **The value of a key** is the one that the first layer with a value for it has. -/
theorem get_eq (hc : c.names.Nodup) (hkey : c.kind.schema.lookup (.str key) = .ok k) :
    c.get key = answer ((c.source? key).bind fun layer => c.value? layer key)
      (.noLayer (c.fullName key)) := by
  rw [get, layerOf_eq hc hkey]
  cases hsource : c.source? key with
  | none => rfl
  | some layer =>
    obtain ⟨v, hv⟩ := Option.isSome_iff_exists.mp (isSome_of_source? hsource)
    change c.getFrom layer key = answer (c.value? layer key) _
    rw [getFrom_eq hkey, hv]
    rfl

theorem get_ok_iff (hc : c.names.Nodup) (hkey : c.kind.schema.lookup (.str key) = .ok k) :
    c.get key = .ok v ↔ ∃ layer, c.source? key = some layer ∧ c.value? layer key = some v := by
  rw [get_eq hc hkey, answer_ok_iff, Option.bind_eq_some_iff]

theorem lookup_of_layerOf (h : c.layerOf key = .ok layer) :
    ∃ k, c.kind.schema.lookup (.str key) = .ok k := by
  obtain ⟨k, hk, -⟩ := bind_eq_ok.mp h
  exact ⟨k, hk⟩

/-! ## Additions -/

/-- The configuration after an addition. -/
def add (c : Config) (a : Addition) : Except ConfigFault Config :=
  (c.addLayer a.layer a.value a.dropNull a.fallback).outcome

/-- The configuration after additions, one after the other. -/
def addAll (c : Config) (as : List Addition) : Except ConfigFault Config := as.foldlM add c

/-- **A configuration that there can be**: as it was made, with additions. -/
inductive Reachable : Config → Prop
  | make {kind : ConfigKind} {v : Value} {name : Text} {withDefaults : Bool} {c : Config}
      (h : (make kind v name withDefaults).outcome = .ok c) : Reachable c
  | add {c c' : Config} {a : Addition} (hc : Reachable c) (h : c.add a = .ok c') : Reachable c'

theorem addAll_cons (c : Config) (a : Addition) (as : List Addition) :
    c.addAll (a :: as) = c.add a >>= fun c => c.addAll as := List.foldlM_cons

theorem addAll_append (c : Config) (as bs : List Addition) :
    c.addAll (as ++ bs) = c.addAll as >>= fun c => c.addAll bs := List.foldlM_append

theorem addAll_singleton (c : Config) (a : Addition) : c.addAll [a] = c.add a := by
  rw [addAll_cons]
  cases c.add a <;> rfl

/-- What every addition preserves, any number of additions does. -/
theorem addAll_induction {P : Config → Prop} (hc : P c) {as : List Addition}
    (hadd : ∀ {c a c'}, P c → c.add a = .ok c' → P c') (h : c.addAll as = .ok c') : P c' := by
  induction as generalizing c with
  | nil =>
    cases h
    exact hc
  | cons a as ih =>
    rw [addAll_cons, bind_eq_ok] at h
    obtain ⟨c₁, h₁, h⟩ := h
    exact ih (hadd hc h₁) h

/-- **A configuration is made** by additions to one that has no layers. -/
theorem outcome_make_eq_addAll (kind : ConfigKind) (v : Value) (name : Text)
    (withDefaults : Bool) : (Config.make kind v name withDefaults).outcome =
      addAll { kind } (Addition.ofMake kind v name withDefaults) := by
  rw [outcome_make, Addition.ofMake, addAll_cons]
  congr 1
  funext c
  split
  · exact (addAll_singleton c (Addition.defaults kind)).symm
  · rfl

theorem outcome_make_without {kind : ConfigKind} {name : Text} {withDefaults : Bool}
    (h : (withDefaults && kind.defaults.isTrue) = false) :
    (make kind v name withDefaults).outcome = Config.add { kind } (.start v name) := by
  rw [outcome_make_eq_addAll, Addition.ofMake, h]
  exact addAll_singleton _ _

theorem make_with_defaults_iff {kind : ConfigKind} {name : Text}
    (h : kind.defaults.isTrue = true) : (make kind v name true).outcome = .ok c ↔
      ∃ c₁, Config.add { kind } (.start v name) = .ok c₁ ∧ c₁.add (.defaults kind) = .ok c := by
  rw [outcome_make, bind_eq_ok, h]
  exact Iff.rfl

/-- What holds without layers and is preserved by every addition holds of every configuration. -/
theorem Reachable.induct {P : Config → Prop} (hempty : ∀ kind, P { kind })
    (hadd : ∀ {c a c'}, P c → c.add a = .ok c' → P c') (hc : Reachable c) : P c := by
  induction hc with
  | make h =>
    rw [outcome_make_eq_addAll] at h
    exact addAll_induction (hempty _) hadd h
  | add _ h ih => exact hadd ih h

theorem Reachable.addAll {as : List Addition} (hc : Reachable c) (h : c.addAll as = .ok c') :
    Reachable c' :=
  addAll_induction hc Reachable.add h

/-- The entries that are checked are those that an addition gives. -/
theorem given_of_entriesOf {es : List (Value × Value)} (h : entriesOf a.value a.dropNull = .ok v)
    (hes : v.entries? = some es) : a.given = textEntries es := by
  obtain ⟨name, w, dropNull, fallback⟩ := a
  cases w with
  | null => cases dropNull <;> (cases h; cases hes; rfl)
  | map | orderedMap =>
    cases dropNull with
    | false =>
      cases h
      cases hes
      refine List.filterMap_congr fun e _ => ?_
      obtain ⟨k, u⟩ := e
      cases k <;> cases u <;> rfl
    | true =>
      cases h
      cases hes
      rw [textEntries, List.filterMap_filter]
      refine List.filterMap_congr fun e _ => ?_
      obtain ⟨k, u⟩ := e
      cases k <;> cases u <;> rfl
  | _ =>
    cases dropNull with
    | false =>
      cases h
      cases hes
    | true => cases h

/-- **An addition that succeeds** puts what it gives into the layer that it names, and every key that
is given a value is one of the schema that takes this value. -/
theorem eq_of_add (h : c.add a = .ok c') :
    c' = { c with layers := putLayer a.layer a.given a.fallback c.layers } ∧
      EntriesValid c.kind.schema a.given := by
  rw [add, outcome_addLayer, bind_eq_ok] at h
  obtain ⟨es, hes, h⟩ := h
  obtain ⟨w, hw, hes⟩ := bind_eq_ok.mp hes
  obtain ⟨hw', hentries⟩ := Schema.validate_ok_iff.mp hes
  rw [given_of_entriesOf hw hw']
  cases h
  exact ⟨rfl, EntriesValid.textEntries hentries⟩

theorem kind_of_add (h : c.add a = .ok c') : c'.kind = c.kind := by
  rw [(eq_of_add h).1]

theorem lookup_of_given (h : c.add a = .ok c') (hkey : a.given? key = some v) :
    ∃ k, c.kind.schema.lookup (.str key) = .ok k := by
  obtain ⟨before, after, hentries, -⟩ := List.lookup_eq_some_iff.mp hkey
  have hmem : (key, v) ∈ a.given := by
    rw [← List.mem_reverse, hentries]
    exact List.mem_append_right _ List.mem_cons_self
  obtain ⟨k, hk, -⟩ := bind_eq_ok.mp ((eq_of_add h).2 _ hmem)
  exact ⟨k, hk⟩

theorem any_name_iff {layers : List Layer} :
    (layers.any fun l => l.name = layer) = true ↔ layer ∈ layers.map Layer.name := by
  rw [List.any_eq_true, List.mem_map]
  simp only [decide_eq_true_eq]

/-- **The names of the layers** stay as they are when an addition names one of them. -/
theorem names_add_of_mem (h : c.add a = .ok c') (hmem : a.layer ∈ c.names) : c'.names = c.names := by
  rw [(eq_of_add h).1, names, names, putLayer, if_pos (any_name_iff.mpr hmem), List.map_map]
  refine List.map_congr_left fun l _ => ?_
  rw [Function.comp_apply]
  split <;> rfl

/-- **A new name** comes first, or last where it is that of a fallback. -/
theorem names_add_new (h : c.add a = .ok c') (hnew : a.layer ∉ c.names) :
    c'.names = if a.fallback then c.names ++ [a.layer] else a.layer :: c.names := by
  rw [(eq_of_add h).1, names, names, putLayer, if_neg (mt any_name_iff.mp hnew)]
  dsimp only
  by_cases hfallback : a.fallback = true
  · rw [if_pos hfallback, if_pos hfallback, List.map_append]
    rfl
  · rw [if_neg hfallback, if_neg hfallback]
    rfl

theorem nodup_names_add (hc : c.names.Nodup) (h : c.add a = .ok c') : c'.names.Nodup := by
  by_cases hmem : a.layer ∈ c.names
  · rw [names_add_of_mem h hmem]
    exact hc
  · rw [names_add_new h hmem]
    split
    · exact List.nodup_append.mpr ⟨hc, List.nodup_singleton _, fun l hl l' hl' heq => by
        rw [List.mem_singleton.mp hl'] at heq
        exact hmem (heq ▸ hl)⟩
    · exact List.nodup_cons.mpr ⟨hmem, hc⟩

theorem name_of_find? {layers : List Layer} {l : Layer}
    (h : (layers.find? fun l => l.name = layer) = some l) : l.name = layer := by
  have hname := List.find?_some h
  exact of_decide_eq_true hname

theorem find?_singleton {l : Layer} {name : Text} (hl : l.name = name) :
    ([l].find? fun l => l.name = layer) = if layer = name then some l else none := by
  rw [List.find?_singleton, hl]
  by_cases h : layer = name
  · rw [if_pos h, if_pos (decide_eq_true h.symm)]
  · rw [if_neg h, if_neg fun h' => h (of_decide_eq_true h').symm]

/-- The layer of a name after values were put into the layer `name`. -/
theorem find?_putLayer (name : Text) (entries : List (Text × Value)) (fallback : Bool)
    (layers : List Layer) (layer : Text) :
    ((putLayer name entries fallback layers).find? fun l => l.name = layer) =
      if layer = name then
        some (((layers.find? fun l => l.name = name).getD ⟨name, []⟩).update entries)
      else layers.find? fun l => l.name = layer := by
  unfold putLayer
  cases hfind : layers.find? fun l => l.name = name with
  | some l =>
    -- updating a layer keeps its name, so each layer is found where it was
    have hname : ((fun l => decide (l.name = layer)) ∘ fun l : Layer =>
        if l.name = name then l.update entries else l) = fun l => decide (l.name = layer) := by
      funext l
      rw [Function.comp_apply]
      split <;> rfl
    rw [if_pos (List.any_eq_true.mpr ⟨l, List.mem_of_find?_eq_some hfind,
      decide_eq_true (name_of_find? hfind)⟩), List.find?_map, hname]
    by_cases h : layer = name
    · rw [if_pos h, h, hfind, Option.map_some, if_pos (name_of_find? hfind)]
      rfl
    · rw [if_neg h]
      cases hfind' : layers.find? fun l => l.name = layer with
      | none => rfl
      | some l' => rw [Option.map_some, if_neg (name_of_find? hfind' ▸ h)]
  | none =>
    have hany : ¬(layers.any fun l => l.name = name) = true := fun hany => by
      obtain ⟨l, hl, hl'⟩ := List.any_eq_true.mp hany
      exact List.find?_eq_none.mp hfind l hl hl'
    rw [if_neg hany]
    dsimp only
    have hnew : (Layer.update ⟨name, []⟩ entries).name = name := rfl
    by_cases hfallback : fallback = true
    · rw [if_pos hfallback, List.find?_append, find?_singleton hnew]
      by_cases h : layer = name
      · rw [if_pos h, if_pos h, h, hfind]
        rfl
      · rw [if_neg h, if_neg h, Option.or_none]
    · rw [if_neg hfallback, ← List.singleton_append, List.find?_append, find?_singleton hnew]
      by_cases h : layer = name
      · rw [if_pos h, if_pos h]
        rfl
      · rw [if_neg h, if_neg h, Option.none_or]

/-- **The value of a layer** changes by an addition only if the layer is the one that is named, and
only for keys that are given a value. -/
theorem value?_add (h : c.add a = .ok c') (layer key : Text) : c'.value? layer key =
    if layer = a.layer then (a.given? key).or (c.value? layer key) else c.value? layer key := by
  rw [(eq_of_add h).1, value?, find?_putLayer]
  by_cases hlayer : layer = a.layer
  · rw [if_pos hlayer, if_pos hlayer, Option.bind_some, Layer.get?_update, value?, hlayer]
    congr 1
    cases c.layers.find? fun l => l.name = a.layer <;> rfl
  · rw [if_neg hlayer, if_neg hlayer, value?]

/-- **No two layers** of a configuration have one name. -/
theorem Reachable.nodup_names (hc : Reachable c) : c.names.Nodup :=
  hc.induct (fun _ => List.nodup_nil) nodup_names_add

end Config
end Btf
