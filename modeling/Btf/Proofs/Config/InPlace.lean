import Btf.Proofs.Config.Entries

/-!
# Configurations that are changed in place

A configuration can be kept in a store that additions change: for each key the values of the layers, and
the names of the layers in the order in which they count. An addition checks its entries in one loop and
writes them in another one, so that a store is never left between two configurations.

* `Store`, `Store.layerOf`, `Store.getFrom`, `Store.get`, `Store.keys`: the store and its answers;
* `Store.check`, `Store.write`, `Store.add`: an addition in place;
* `Store.Shows`, **`Store.Shows.answersAs`**: a store holds a configuration, and answers as it does;
* `Store.apply_check`, `Store.apply_write`: the two loops, by induction on the entries;
* `Store.apply_add_of_error`, **`Store.Shows.apply_add`**: a failure changes nothing, and after a success
  the store holds the configuration with the addition;
* `Store.exists_shows`: every configuration can be kept in a store;
* **`Config.add_all_or_nothing`**: an addition is made as a whole or not at all.
-/

namespace Btf

/-- A configuration that is changed in place: the values of a key by the names of layers, and these in
the order in which they count. -/
structure Store where
  values : List (Text × List (Text × Value)) := []
  order : List Text := []

namespace Store

/-- Give a value to a key in a layer; the first one of a key begins its values. -/
def put (key layer : Text) (v : Value) :
    List (Text × List (Text × Value)) → List (Text × List (Text × Value))
  | [] => [(key, Layer.put layer v [])]
  | (k, vs) :: rest =>
    if k = key then (k, Layer.put layer v vs) :: rest else (k, vs) :: put key layer v rest

/-- A new layer comes first, or last where it is a fallback. -/
def place (layer : Text) (fallback : Bool) (order : List Text) : List Text :=
  if layer ∈ order then order else if fallback then order ++ [layer] else layer :: order

/-! ## Answers -/

def value? (st : Store) (key layer : Text) : Option Value :=
  (st.values.lookup key).bind fun vs => vs.lookup layer

/-- The first layer with a value for a key. -/
def layerOf (schema : Schema) (st : Store) (key : Text) : Except ConfigFault Text := do
  let k ← schema.lookup (.str key)
  Config.answer (st.order.find? fun layer => (st.value? key layer).isSome)
    (.noLayer (schema.name ++ "/" ++ k.name))

def getFrom (schema : Schema) (st : Store) (layer key : Text) : Except ConfigFault Value := do
  let k ← schema.lookup (.str key)
  Config.answer (st.value? key layer) (.notInLayer (schema.name ++ "/" ++ k.name) layer)

/-- The value of a key in the first layer that has one. -/
def get (schema : Schema) (st : Store) (key : Text) : Except ConfigFault Value := do
  st.getFrom schema (← st.layerOf schema key) key

/-- The keys with a value, in the order of the schema. -/
def keys (schema : Schema) (st : Store) : List Text :=
  schema.keyNames.filter fun key => (st.values.lookup key).isSome

/-! ## Additions in place -/

/-- What changes a store, and what is changed also stays when it fails. -/
abbrev Change := ExceptT ConfigFault (StateM Store)

/-- Check entries, one after the other. -/
def check (schema : Schema) : List (Value × Value) → Change Unit
  | [] => pure ()
  | (key, v) :: es => do
    match schema.validateKey key v with
    | .ok _ => check schema es
    | .error fault => throw fault

/-- Write entries, one after the other. -/
def write (layer : Text) : List (Text × Value) → Change Unit
  | [] => pure ()
  | (key, v) :: es => do
    modify fun st => { st with values := put key layer v st.values }
    write layer es

/-- **An addition in place**: its entries are checked, then they are written, and then its layer is
placed. -/
def add (schema : Schema) (a : Addition) : Change Unit := do
  match (Config.entriesOf a.value a.dropNull).map Value.entries? with
  | .error fault => throw fault
  | .ok (some es) =>
    check schema es
    write a.layer (Config.textEntries es)
    modify fun st => { st with order := place a.layer a.fallback st.order }
  | .ok none => throw (.notMapping schema.name)

/-- The outcome of a change and the store that it leaves. -/
def Change.apply (m : Change Unit) (st : Store) : Except ConfigFault Unit × Store := m.run.run st

theorem apply_bind (m m' : Change Unit) (st : Store) :
    Change.apply (do m; m') st = match Change.apply m st with
      | (.ok _, st) => Change.apply m' st
      | (.error fault, st) => (.error fault, st) := by
  show (match m.run.run st with
    | (r, st) => (ExceptT.bindCont (fun _ => m') r).run st) = _
  unfold Change.apply
  rcases m.run.run st with ⟨_ | _, _⟩ <;> rfl

/-- **The first loop** changes nothing. -/
theorem apply_check (schema : Schema) (es : List (Value × Value)) (st : Store) :
    Change.apply (check schema es) st = (schema.validateEntries es, st) := by
  induction es with
  | nil => rfl
  | cons e es ih =>
    obtain ⟨key, v⟩ := e
    rw [check, Schema.validateEntries]
    cases schema.validateKey key v with
    | ok _ => exact ih
    | error fault => rfl

/-- The values of a store after entries have been written. -/
def written (layer : Text) (es : List (Text × Value)) (values : List (Text × List (Text × Value))) :
    List (Text × List (Text × Value)) :=
  es.foldl (fun values e => put e.1 layer e.2 values) values

/-- **The second loop** does not fail. -/
theorem apply_write (layer : Text) (es : List (Text × Value)) (st : Store) :
    Change.apply (write layer es) st =
      (.ok (), { st with values := written layer es st.values }) := by
  induction es generalizing st with
  | nil => rfl
  | cons e es ih =>
    obtain ⟨key, v⟩ := e
    rw [write, apply_bind]
    exact ih _

/-- The store after an addition in place. -/
def added (st : Store) (a : Addition) : Store where
  values := written a.layer a.given st.values
  order := place a.layer a.fallback st.order

/-- **An addition in place** is the check of its entries and the store with them. -/
theorem apply_add {a : Addition} (ha : a.IsMapping) (schema : Schema) (st : Store) :
    Change.apply (add schema a) st = match schema.validateEntries a.remaining with
      | .ok _ => (.ok (), st.added a)
      | .error fault => (.error fault, st) := by
  have hadd : add schema a = (do
      check schema a.remaining
      write a.layer (Config.textEntries a.remaining)
      modify fun st => { st with order := place a.layer a.fallback st.order }) := by
    obtain ⟨v, hsaid, hentries⟩ := ha.exists_entriesOf
    have hsome : (Config.entriesOf a.value a.dropNull).map Value.entries? = .ok (some a.remaining) := by
      rw [hsaid, ← hentries]
      rfl
    rw [add, hsome]
  rw [hadd, apply_bind, apply_check]
  cases schema.validateEntries a.remaining with
  | error fault => rfl
  | ok _ =>
    dsimp only
    rw [apply_bind, apply_write, added, ha.given]
    rfl

/-! ## What a store holds -/

/-- A store holds a configuration. Whatever key is in it has a value in some layer. -/
structure Shows (st : Store) (c : Config) : Prop where
  order : st.order = c.names
  value : ∀ key layer, st.value? key layer = c.value? layer key
  held : ∀ key vs, st.values.lookup key = some vs → vs ≠ []

variable {st : Store} {c c' : Config} {a : Addition} {key layer : Text} {v : Value}

theorem lookup_put (key layer : Text) (v : Value) (m : List (Text × List (Text × Value)))
    (k : Text) : (put key layer v m).lookup k =
      if k = key then some (Layer.put layer v ((m.lookup key).getD [])) else m.lookup k := by
  induction m with
  | nil =>
    rw [put, Layer.lookup_cons]
    rfl
  | cons e m ih =>
    obtain ⟨k', vs⟩ := e
    rw [put]
    by_cases hk' : k' = key
    · subst hk'
      rw [if_pos rfl, Layer.lookup_cons, Layer.lookup_cons, Layer.lookup_cons, if_pos rfl,
        Option.getD_some]
      by_cases h : k = k'
      · rw [if_pos h, if_pos h]
      · rw [if_neg h, if_neg h, if_neg h]
    · rw [if_neg hk', Layer.lookup_cons, Layer.lookup_cons, Layer.lookup_cons, ih,
        if_neg (Ne.symm hk')]
      by_cases h : k = k'
      · rw [if_pos h, if_pos h, if_neg (h ▸ hk')]
      · rw [if_neg h, if_neg h]

/-- **One value** changes by an assignment. -/
theorem value?_put (st : Store) (key layer : Text) (v : Value) (k l : Text) :
    value? { st with values := put key layer v st.values } k l =
      if l = layer then (if k = key then some v else st.value? k l) else st.value? k l := by
  rw [value?, lookup_put, value?]
  by_cases hk : k = key
  · rw [if_pos hk, if_pos hk, Option.bind_some, Layer.lookup_put, hk]
    cases st.values.lookup key <;> rfl
  · rw [if_neg hk, if_neg hk, ite_self]

/-- **The values of one layer** change when entries are written, each to the last one that its key is
given. -/
theorem value?_written (st : Store) (layer : Text) (es : List (Text × Value)) (key l : Text) :
    value? { st with values := written layer es st.values } key l =
      if l = layer then (es.reverse.lookup key).or (st.value? key l) else st.value? key l := by
  induction es generalizing st with
  | nil => exact (ite_self _).symm
  | cons e es ih =>
    have hput := st.value?_put e.1 layer e.2 key l
    have hrest := ih { st with values := put e.1 layer e.2 st.values }
    rw [hput] at hrest
    refine hrest.trans ?_
    by_cases hl : l = layer
    · rw [if_pos hl, if_pos hl, if_pos hl, List.reverse_cons, List.lookup_append, Option.or_assoc,
        Layer.lookup_cons]
      by_cases hkey : key = e.1
      · rw [if_pos hkey, if_pos hkey]
        rfl
      · rw [if_neg hkey, if_neg hkey]
        rfl
    · rw [if_neg hl, if_neg hl, if_neg hl]

theorem held_written (layer : Text) (es : List (Text × Value))
    {values : List (Text × List (Text × Value))}
    (h : ∀ key vs, values.lookup key = some vs → vs ≠ []) :
    ∀ key vs, (written layer es values).lookup key = some vs → vs ≠ [] := by
  induction es generalizing values with
  | nil => exact h
  | cons e es ih =>
    refine ih fun key vs hvs => ?_
    rw [lookup_put] at hvs
    split at hvs
    · cases hvs
      cases (values.lookup e.1).getD [] with
      | nil => exact List.cons_ne_nil _ _
      | cons f fs =>
        rw [Layer.put]
        split <;> exact List.cons_ne_nil _ _
    · exact h key vs hvs

/-- **The store after an addition** holds the configuration after it. -/
theorem Shows.added (h : st.Shows c) (ha : c.add a = .ok c') : (st.added a).Shows c' := by
  refine ⟨?_, fun key layer => ?_, held_written _ _ h.held⟩
  · show place a.layer a.fallback st.order = c'.names
    rw [place, h.order]
    by_cases hmem : a.layer ∈ c.names
    · rw [if_pos hmem, Config.names_add_of_mem ha hmem]
    · rw [if_neg hmem, Config.names_add_new ha hmem]
  · have hwritten := st.value?_written a.layer a.given key layer
    rw [Config.value?_add ha, ← h.value]
    exact hwritten

/-! ## The answers of a store -/

/-- A store answers every question as a configuration does. -/
structure AnswersAs (st : Store) (c : Config) : Prop where
  order : st.order = c.names
  getFrom : ∀ layer key, st.getFrom c.kind.schema layer key = c.getFrom layer key
  layerOf : ∀ key, st.layerOf c.kind.schema key = c.layerOf key
  get : ∀ key, st.get c.kind.schema key = c.get key
  keys : st.keys c.kind.schema = c.keys

theorem Shows.find?_order (h : st.Shows c) (key : Text) :
    (st.order.find? fun layer => (st.value? key layer).isSome) = c.source? key := by
  simp only [h.order, h.value, Config.source?]

theorem Shows.getFrom_eq (h : st.Shows c) (layer key : Text) :
    st.getFrom c.kind.schema layer key = c.getFrom layer key := by
  cases hkey : c.kind.schema.lookup (.str key) with
  | error fault => rw [Store.getFrom, Config.getFrom, hkey, error_bind, error_bind]
  | ok k =>
    rw [Store.getFrom, hkey, ok_bind, Config.getFrom_eq hkey, h.value, Config.fullName,
      Config.name_of_lookup hkey]

theorem Shows.layerOf_eq (h : st.Shows c) (hc : c.names.Nodup) (key : Text) :
    st.layerOf c.kind.schema key = c.layerOf key := by
  cases hkey : c.kind.schema.lookup (.str key) with
  | error fault => rw [Store.layerOf, Config.layerOf, hkey, error_bind, error_bind]
  | ok k =>
    rw [Store.layerOf, hkey, ok_bind, Config.layerOf_eq hc hkey, h.find?_order, Config.fullName,
      Config.name_of_lookup hkey]

/-- A key is in the store exactly if some layer has a value for it. -/
theorem Shows.isSome_lookup (h : st.Shows c) (hc : c.names.Nodup) (key : Text) :
    (st.values.lookup key).isSome = (c.firstLayer? key).isSome := by
  rw [← Option.isSome_map (f := Layer.name), Config.map_name_firstLayer? hc, Bool.eq_iff_iff,
    Option.isSome_iff_exists, Option.isSome_iff_exists, Config.exists_source?_iff]
  constructor
  · rintro ⟨vs, hvs⟩
    obtain ⟨⟨layer, v⟩, rest, rfl⟩ := List.exists_cons_of_ne_nil (h.held key vs hvs)
    exact ⟨layer, v, by rw [← h.value, value?, hvs, Option.bind_some, List.lookup_cons_self]⟩
  · rintro ⟨layer, v, hv⟩
    rw [← h.value, value?, Option.bind_eq_some_iff] at hv
    obtain ⟨vs, hvs, -⟩ := hv
    exact ⟨vs, hvs⟩

/-- **A store answers as the configuration that it holds.** -/
theorem Shows.answersAs (h : st.Shows c) (hc : c.Reachable) : st.AnswersAs c where
  order := h.order
  getFrom := h.getFrom_eq
  layerOf := h.layerOf_eq hc.nodup_names
  get key := by
    rw [Store.get, Config.get, h.layerOf_eq hc.nodup_names]
    simp only [h.getFrom_eq]
  keys := List.filter_congr fun key _ => h.isSome_lookup hc.nodup_names key

/-! ## All or nothing -/

/-- **An addition that fails** changes nothing. -/
theorem apply_add_of_error (ha : a.IsMapping) {fault : ConfigFault} (h : c.add a = .error fault)
    (st : Store) : Change.apply (add c.kind.schema a) st = (.error fault, st) := by
  rw [Config.add_of_isMapping ha] at h
  rw [apply_add ha]
  cases hentries : c.kind.schema.validateEntries a.remaining with
  | ok _ =>
    rw [hentries] at h
    cases h
  | error fault' =>
    rw [hentries] at h
    cases h
    rfl

/-- **An addition that succeeds** leaves a store with the configuration after it. -/
theorem Shows.apply_add (hst : st.Shows c) (ha : a.IsMapping) (h : c.add a = .ok c') :
    ∃ st', Change.apply (add c.kind.schema a) st = (.ok (), st') ∧ st'.Shows c' := by
  have hentries := (Config.add_ok_iff ha).mp ⟨c', h⟩
  rw [← Schema.validateEntries_ok_iff_takes] at hentries
  refine ⟨st.added a, ?_, hst.added h⟩
  rw [Store.apply_add ha, hentries]

theorem shows_empty (kind : ConfigKind) : ({} : Store).Shows { kind } :=
  ⟨rfl, fun _ _ => rfl, fun _ _ h => by cases h⟩

/-- **Every configuration** can be kept in a store. -/
theorem exists_shows (hc : c.Reachable) : ∃ st : Store, st.Shows c := by
  refine hc.induct (P := fun c => ∃ st : Store, st.Shows c) (fun kind => ⟨{}, shows_empty kind⟩) ?_
  rintro c a c' ⟨st, hst⟩ h
  exact ⟨st.added a, hst.added h⟩

end Store

namespace Config

/-- **An addition is made as a whole or not at all.** It succeeds exactly if all entries that remain are
taken, and fails exactly as the first of them that is not. A store that holds the configuration answers
as it does; after a failure it is the very same store, and after a success it holds the configuration
with the addition. -/
theorem add_all_or_nothing {c : Config} (hc : c.Reachable) {a : Addition} (ha : a.IsMapping) :
    ((∃ c', c.add a = .ok c') ↔ ∀ e ∈ a.remaining, c.kind.schema.Takes e) ∧
    (∀ fault, c.add a = .error fault ↔ ∃ before e after, a.remaining = before ++ e :: after ∧
      (∀ e' ∈ before, c.kind.schema.Takes e') ∧ c.kind.schema.Offends e fault) ∧
    (∃ st : Store, st.Shows c) ∧
    ∀ st : Store, st.Shows c → st.AnswersAs c ∧
      (∀ fault, c.add a = .error fault →
        (Store.add c.kind.schema a).apply st = (.error fault, st)) ∧
      ∀ c', c.add a = .ok c' →
        ∃ st', (Store.add c.kind.schema a).apply st = (.ok (), st') ∧ st'.Shows c' ∧
          st'.AnswersAs c' := by
  refine ⟨add_ok_iff ha, fun fault => add_error_iff ha, Store.exists_shows hc, fun st hst => ?_⟩
  refine ⟨hst.answersAs hc, fun fault h => Store.apply_add_of_error ha h st, fun c' h => ?_⟩
  obtain ⟨st', happly, hst'⟩ := hst.apply_add ha h
  exact ⟨st', happly, hst', hst'.answersAs (hc.add h)⟩

/-- A valid entry, then one whose key there is not. -/
def misspelled : Addition :=
  ⟨"file", .map [("use-mmap", .bool false), ("use-map", .bool true)], false, false⟩

/-- The valid entry before the offending one is not written. -/
theorem add_all_or_nothing_misspelled : ∃ c : Config, ∃ st : Store,
    (make .decoder .null userLayer true).outcome = .ok c ∧ st.Shows c ∧
      (Store.add c.kind.schema misspelled).apply st = (.error (.notAllowed "btf-parser-conf"
        "use-map" ConfigKind.decoder.schema.allowed), st) ∧
      st.get c.kind.schema "use-mmap" = .ok (.bool true) ∧ st.order = ["user", "default"] := by
  obtain ⟨c, h⟩ : ∃ c, (make .decoder .null userLayer true).outcome = .ok c := ⟨_, rfl⟩
  obtain ⟨-, hfails, ⟨st, hst⟩, hstore⟩ :=
    add_all_or_nothing (.make h) (a := misspelled) (.inr ⟨_, rfl⟩)
  obtain ⟨hanswers, herror, -⟩ := hstore st hst
  obtain ⟨hkind, hget, hnames⟩ : c.kind = .decoder ∧ c.get "use-mmap" = .ok (.bool true) ∧
      c.names = ["user", "default"] := by
    cases h
    exact ⟨rfl, rfl, rfl⟩
  have htakes : ConfigKind.decoder.schema.Takes ("use-mmap", .bool false) :=
    ⟨"use-mmap", _, rfl, rfl, rfl, fun _ hvalidator => by cases hvalidator⟩
  have hoffends : ConfigKind.decoder.schema.Offends ("use-map", .bool true)
      (.notAllowed "btf-parser-conf" "use-map" ConfigKind.decoder.schema.allowed) := by
    refine .notAllowed (fun name hname => ?_) ⟨_, rfl⟩
    cases hname
    rfl
  refine ⟨c, st, h, hst, herror _ ?_, (hanswers.get _).trans hget, hanswers.order.trans hnames⟩
  rw [hfails, hkind]
  refine ⟨[("use-mmap", .bool false)], _, [], rfl, fun e he => ?_, hoffends⟩
  rw [List.mem_singleton.mp he]
  exact htakes

/-! ## Names that are no text -/

/-- A key with the name of a codec, or nothing. -/
def codecOrNull : ConfigKind where
  name := "Codecs"
  schema := { name := "codecs", help := "", keys :=
    [{ name := "codec", help := "", types := [.str, .null], validator? := some .codec }] }

/-- Nothing at all has one of the types of its key, but it is no text and cannot be looked up: the
addition neither succeeds nor is the value rejected. -/
theorem add_unnamed : ∃ c : Config, ∃ a : Addition,
    (make codecOrNull .null userLayer true).outcome = .ok c ∧ a.remaining = [(.str "codec", .null)] ∧
      (∃ k, c.kind.schema.find? "codec" = some k ∧
        k.checker.isInstance .null (.anyOf .tuple k.types) = .ok true) ∧
      c.add a = .error (.passed (.ofType "lookup() argument must be str, not None")) ∧
      ∀ label v why, c.add a ≠ .error (.rejected label v why) := by
  refine ⟨_, ⟨"file", .map [("codec", .null)], false, false⟩, rfl, rfl, ⟨_, rfl, rfl⟩, rfl, ?_⟩
  intro label v why h
  cases h

end Config

end Btf
