import Btf.Proofs.Record.Attributes

/-!
# Records that are changed in place

A record can be kept in an object that is changed: it has a slot for each field of its class, which is
empty before it is given a value for the first time, and room for further attributes if its class is open.
Whoever sets an attribute is stopped before anything is written if the attribute can be read. A new object
is filled in the same way, slot by slot.

* `Object`, `Object.record`, `Object.read`: objects, the record that one holds, and what is read from it;
* `Object.store`, `Object.assign`, `Object.remove`: writing, setting and deleting in place;
* `Object.fill`, `Object.initialise`: a new object is filled;
* `Object.Filled`, **`Object.Filled.read_eq_get`**: an object without empty slots is read as its record;
* `Object.ofRecord`, `Object.record_ofRecord`: every record can be kept in an object;
* `Object.apply_assign_of_error`, **`Object.apply_assign_of_ok`**: setting in place does what setting does,
  and where it fails the object is the very same one;
* **`Object.apply_initialise_of_ok`**, `Object.apply_initialise_of_error`: filling a new object makes the
  record.
-/

namespace Btf

/-- An object of a class of records, with its slots by their names and its further attributes. -/
structure Object where
  cls : RecordClass
  slots : String → Option Value := fun _ => none
  extras : List (Text × Value) := []

namespace Object

/-- The record that an object holds; what is missing counts as null. -/
def record (o : Object) : Record where
  cls := o.cls
  id := if o.cls.hasId then (o.slots "id").getD .null else .null
  fields := o.cls.keyFields.map fun f => (o.slots f).getD .null
  extras := o.extras

/-- The slot that an attribute stands in. -/
def slot? (o : Object) (attr : Text) : Option String :=
  attr.toString?.filter fun name => o.cls.fields.contains name

/-- Read an attribute. An empty slot is as good as none. -/
def read (o : Object) (attr : Text) : Except RecordFault Attribute :=
  match o.slot? attr with
  | some name => match o.slots name with
    | some v => .ok (.value v)
    | none => .error (.noAttribute o.cls attr)
  | none => o.record.get attr

/-- An object with a value in one of its slots. -/
def withSlot (o : Object) (name : String) (v : Value) : Object :=
  { o with slots := Function.update o.slots name (some v) }

@[simp] theorem cls_withSlot (o : Object) (name : String) (v : Value) :
    (o.withSlot name v).cls = o.cls := rfl

@[simp] theorem slots_withSlot_self (o : Object) (name : String) (v : Value) :
    (o.withSlot name v).slots name = some v := Function.update_self ..

theorem slots_withSlot_of_ne {name other : String} (h : other ≠ name) (o : Object) (v : Value) :
    (o.withSlot name v).slots other = o.slots other := Function.update_of_ne h ..

/-! ## Changes in place -/

/-- What changes an object, and what is changed also stays when it fails. -/
abbrev Change := ExceptT RecordFault (StateM Object)

/-- The outcome of a change and the object that it leaves. -/
def Change.apply (m : Change Unit) (o : Object) : Except RecordFault Unit × Object := m.run.run o

/-- Give a value to a further attribute. -/
def putExtra (attr : Text) (v : Value) (extras : List (Text × Value)) : List (Text × Value) :=
  if (extras.lookup attr).isSome then extras.map fun e => if e.1 = attr then (attr, v) else e
  else extras ++ [(attr, v)]

/-- Write an attribute, whatever it was before: into its slot, or else beside the slots if there is
room. -/
def store (attr : Text) (v : Value) : Change Unit := do
  let o ← get
  match o.slot? attr with
  | some name => set (o.withSlot name v)
  | none =>
    if o.cls.isOpen then set { o with extras := putExtra attr v o.extras }
    else throw (.noAttribute o.cls attr)

/-- An attribute that may be set once more after it has been null. -/
def isExempt (cls : RecordClass) (attr : Text) : Bool := cls.hasId && attr == Text.ofString "id"

def isNull : Attribute → Bool
  | .value .null => true
  | _ => false

/-- **Set an attribute in place**: it is tried to read it first. -/
def assign (attr : Text) (v : Value) : Change Unit := do
  let o ← get
  match o.read attr with
  | .ok current =>
    if isExempt o.cls attr && isNull current then store attr v else throw (.readOnly o.cls attr)
  | .error (.noAttribute ..) => store attr v
  | .error fault => throw fault

/-- Delete an attribute in place. -/
def remove (attr : Text) : Change Unit := do
  throw (.readOnly (← get).cls attr)

/-! ## New objects -/

/-- Set fields, one after the other, to what is given for them. -/
def fill (given : String → Value) : List String → Change Unit
  | [] => pure ()
  | f :: fs => do
    match Record.kept f (given f) with
    | .ok v => assign f v
    | .error fault => throw fault
    fill given fs

/-- **Fill a new object**: its identifier is null at first, and its fields are what is given. -/
def initialise (cls : RecordClass) (arguments : List (String × Value)) : Change Unit := do
  match arguments.findSome? fun a => Record.refuse cls a.1 with
  | some fault => throw fault
  | none =>
    match Record.missing cls arguments with
    | [] =>
      if cls.hasId then assign "id" .null
      fill (fun f => (arguments.lookup f).getD (.bool false)) cls.keyFields
    | absent => throw (.missing cls absent)

variable {o o' : Object} {attr : Text} {v : Value} {r : Record} {fault : RecordFault}

theorem slot?_eq_some_iff {name : String} :
    o.slot? attr = some name ↔ attr = Text.ofString name ∧ name ∈ o.cls.fields := by
  rw [slot?, Option.filter_eq_some_iff, List.contains_iff_mem]
  refine and_congr_left fun _ => ⟨fun h => (Text.ofString_of_toString? h).symm, ?_⟩
  rintro rfl
  exact Text.toString?_ofString name

theorem apply_store (o : Object) (attr : Text) (v : Value) : (store attr v).apply o =
    match o.slot? attr with
    | some name => (.ok (), o.withSlot name v)
    | none =>
      if o.cls.isOpen then (.ok (), { o with extras := putExtra attr v o.extras })
      else (.error (.noAttribute o.cls attr), o) := by
  show (match o.slot? attr with
    | some name => (set (o.withSlot name v) : Change Unit)
    | none => _).apply o = _
  cases o.slot? attr with
  | some name => rfl
  | none =>
    dsimp only
    split <;> rfl

/-- **Setting in place** reads, and then writes or fails. -/
theorem apply_assign (o : Object) (attr : Text) (v : Value) : (assign attr v).apply o =
    match o.read attr with
    | .ok current =>
      if isExempt o.cls attr && isNull current then (store attr v).apply o
      else (.error (.readOnly o.cls attr), o)
    | .error (.noAttribute ..) => (store attr v).apply o
    | .error fault => (.error fault, o) := by
  show Change.apply (match o.read attr with
    | .ok current =>
      if isExempt o.cls attr && isNull current then store attr v else throw (.readOnly o.cls attr)
    | .error (.noAttribute ..) => store attr v
    | .error fault => throw fault) o = _
  rcases o.read attr with fault | current
  · cases fault <;> rfl
  · dsimp only
    split <;> rfl

theorem apply_bind (m m' : Change Unit) (o : Object) :
    Change.apply (do m; m') o = match Change.apply m o with
      | (.ok _, o) => Change.apply m' o
      | (.error fault, o) => (.error fault, o) := by
  show (match m.run.run o with
    | (r, o) => (ExceptT.bindCont (fun _ => m') r).run o) = _
  unfold Change.apply
  rcases m.run.run o with ⟨_ | _, _⟩ <;> rfl

/-! ## Objects without empty slots -/

/-- Every slot of an object has a value. -/
def Filled (o : Object) : Prop := ∀ f ∈ o.cls.fields, (o.slots f).isSome

theorem complete_record (o : Object) : o.record.Complete := List.length_map _

theorem Filled.id_record (h : o.Filled) (hhas : o.cls.hasId = true) :
    o.slots "id" = some o.record.id := by
  obtain ⟨v, hv⟩ := Option.isSome_iff_exists.mp
    (h "id" (RecordClass.mem_fields_iff.mpr (.inl ⟨hhas, rfl⟩)))
  rw [record, hv, if_pos hhas, Option.getD_some]

theorem Filled.field_record {f : String} (h : o.Filled) (hf : f ∈ o.cls.keyFields) :
    o.slots f = some (o.record.field f) := by
  obtain ⟨v, hv⟩ := Option.isSome_iff_exists.mp (h f (RecordClass.mem_fields_iff.mpr (.inr hf)))
  have hfield : o.record.field? f = some ((o.slots f).getD .null) := lookup_zip_map hf _
  rw [Record.field, hfield, hv]
  rfl

/-- **An object without empty slots** is read as the record that it holds. -/
theorem Filled.read_eq_get (h : o.Filled) (attr : Text) : o.read attr = o.record.get attr := by
  rw [read]
  cases hslot : o.slot? attr with
  | none => rfl
  | some name =>
    obtain ⟨rfl, hname⟩ := slot?_eq_some_iff.mp hslot
    dsimp only
    obtain ⟨hhas, rfl⟩ | hf := RecordClass.mem_fields_iff.mp hname
    · rw [h.id_record hhas, Record.get_id hhas]
    · rw [h.field_record hf, Record.get_field o.complete_record hf]

/-- An object for a record. -/
def ofRecord (r : Record) : Object where
  cls := r.cls
  slots f := if f = "id" then some r.id else r.field? f
  extras := r.extras

theorem filled_ofRecord (h : r.Complete) : (ofRecord r).Filled := by
  intro f hf
  rw [ofRecord]
  dsimp only
  split
  · rfl
  · next hne =>
    exact h.isSome_field?_iff.mpr ((RecordClass.mem_fields_iff.mp hf).resolve_left fun hid => hne hid.2)

/-- **Every record can be kept in an object**: it is read back from there. -/
theorem record_ofRecord (h : r.Complete) (hid : r.cls.hasId = false → r.id = .null) :
    (ofRecord r).record = r := by
  have hfields : (r.cls.keyFields.map fun f => ((ofRecord r).slots f).getD .null) = r.fields := by
    refine Eq.trans (List.map_congr_left fun f hf => ?_) h.map_field
    have hne : f ≠ "id" := fun heq => r.cls.id_not_mem_keyFields (heq ▸ hf)
    have hslot : (ofRecord r).slots f = r.field? f := if_neg hne
    rw [hslot, Record.field]
  have hnull : (if r.cls.hasId then r.id else .null) = r.id := by
    cases hhas : r.cls.hasId with
    | true => rfl
    | false => exact (hid hhas).symm
  obtain ⟨cls, id, fields, extras⟩ := r
  exact congrArg₂ (fun i fs => (⟨cls, i, fs, extras⟩ : Record)) hnull hfields

theorem slot?_of_absent (habsent : o.record.Absent attr) :
    o.slot? attr = none := by
  rw [Option.eq_none_iff_forall_ne_some]
  intro name hslot
  obtain ⟨rfl, hname⟩ := slot?_eq_some_iff.mp hslot
  refine habsent.not_readable ?_
  obtain ⟨hhas, rfl⟩ | hf := RecordClass.mem_fields_iff.mp hname
  · exact ⟨_, Record.get_id hhas⟩
  · exact ⟨_, Record.get_field o.complete_record hf⟩

/-- What is exempt, and null when it is read, is an identifier that has not been set. -/
theorem isExempt_and_isNull {current : Attribute} (h : r.get attr = .ok current) :
    (isExempt r.cls attr && isNull current) = r.awaits attr := by
  rw [Bool.eq_iff_iff, Record.awaits_iff, Bool.and_eq_true, isExempt, Bool.and_eq_true, beq_iff_eq,
    and_assoc]
  refine and_congr_right fun hhas => and_congr_right fun hattr => ?_
  rw [hattr, Record.get_id hhas] at h
  cases h
  cases r.id <;> simp [isNull]

/-- **A failure to set in place** leaves the very same object. -/
theorem apply_assign_of_error (h : o.Filled) (hset : o.record.set attr v = .error fault) :
    (assign attr v).apply o = (.error fault, o) := by
  rw [apply_assign, h.read_eq_get]
  obtain ⟨⟨current, hread⟩, hid, rfl⟩ | ⟨habsent, hclosed, rfl⟩ | ⟨operator, w, hfault, rfl⟩ :=
    Record.set_error_iff.mp hset
  · have hexempt : (isExempt o.cls attr && isNull current) = false :=
      (isExempt_and_isNull hread).trans hid
    rw [hread]
    exact if_neg (Bool.eq_false_iff.mp hexempt)
  · rw [Record.get_of_absent habsent]
    dsimp only
    rw [apply_store, slot?_of_absent habsent]
    exact if_neg (Bool.eq_false_iff.mp hclosed)
  · rw [hfault]

theorem Filled.withSlot (h : o.Filled) (name : String) (v : Value) : (o.withSlot name v).Filled := by
  intro f hf
  by_cases heq : f = name
  · rw [heq, slots_withSlot_self, Option.isSome_some]
  · rw [slots_withSlot_of_ne heq]
    exact h f hf

/-- The record of an object whose identifier has been written. -/
theorem record_withSlot_id (hhas : o.cls.hasId = true) (v : Value) :
    (o.withSlot "id" v).record = { o.record with id := v } := by
  have hfields : ∀ f ∈ o.cls.keyFields,
      ((o.withSlot "id" v).slots f).getD .null = (o.slots f).getD .null := by
    intro f hf
    have hne : f ≠ "id" := fun heq => o.cls.id_not_mem_keyFields (heq ▸ hf)
    rw [slots_withSlot_of_ne hne]
  rw [record, record, cls_withSlot, List.map_congr_left hfields, slots_withSlot_self, if_pos hhas]
  rfl

/-- **A success to set in place** leaves an object with the record after it. -/
theorem apply_assign_of_ok (h : o.Filled) (hset : o.record.set attr v = .ok r) :
    ∃ o', (assign attr v).apply o = (.ok (), o') ∧ o'.Filled ∧ o'.record = r := by
  rw [apply_assign, h.read_eq_get]
  obtain ⟨hid, rfl⟩ | ⟨habsent, hopen, rfl⟩ := Record.set_ok_iff.mp hset
  · obtain ⟨hhas, rfl, -⟩ := Record.awaits_iff.mp hid
    have hread := Record.get_of_awaits hid
    have hslot : o.slot? (Text.ofString "id") = some "id" :=
      slot?_eq_some_iff.mpr ⟨rfl, RecordClass.mem_fields_iff.mpr (.inl ⟨hhas, rfl⟩)⟩
    have hexempt : (isExempt o.cls (Text.ofString "id") && isNull (.value .null)) = true :=
      (isExempt_and_isNull hread).trans hid
    rw [hread]
    dsimp only
    rw [if_pos hexempt, apply_store, hslot]
    exact ⟨_, rfl, h.withSlot "id" v, record_withSlot_id hhas v⟩
  · have hnew : putExtra attr v o.extras = o.extras ++ [(attr, v)] := by
      have hlookup : o.extras.lookup attr = none := habsent.2
      rw [putExtra, hlookup]
      rfl
    have hopen : o.cls.isOpen = true := hopen
    rw [Record.get_of_absent habsent]
    dsimp only
    rw [apply_store, slot?_of_absent habsent]
    dsimp only
    rw [if_pos hopen, hnew]
    exact ⟨_, rfl, h, rfl⟩

/-! ## Filling new objects -/

/-- Into an empty slot everything is written. -/
theorem apply_assign_empty {f : String} (hf : f ∈ o.cls.fields) (hempty : o.slots f = none)
    (v : Value) : (assign f v).apply o = (.ok (), o.withSlot f v) := by
  have hslot : o.slot? (Text.ofString f) = some f := slot?_eq_some_iff.mpr ⟨rfl, hf⟩
  have hread : o.read f = .error (.noAttribute o.cls f) := by
    rw [read, hslot]
    dsimp only
    rw [hempty]
  rw [apply_assign, hread]
  dsimp only
  rw [apply_store, hslot]

/-- Fields of an object that can be filled one after the other: none twice, and none that has a value. -/
structure CanFill (o : Object) (fs : List String) : Prop where
  nodup : fs.Nodup
  slots : ∀ f ∈ fs, f ∈ o.cls.fields
  empty : ∀ f ∈ fs, o.slots f = none

theorem CanFill.tail {f : String} {fs : List String} (h : o.CanFill (f :: fs)) (v : Value) :
    (o.withSlot f v).CanFill fs where
  nodup := (List.nodup_cons.mp h.nodup).2
  slots _ hf := h.slots _ (List.mem_cons_of_mem _ hf)
  empty g hg := by
    have hne : g ≠ f := fun heq => (List.nodup_cons.mp h.nodup).1 (heq ▸ hg)
    rw [slots_withSlot_of_ne hne]
    exact h.empty g (List.mem_cons_of_mem _ hg)

variable {given : String → Value} {fs : List String} {vs : List Value}

theorem apply_fill_cons {f : String} (h : o.CanFill (f :: fs)) : (fill given (f :: fs)).apply o =
    match Record.kept f (given f) with
    | .ok v => (fill given fs).apply (o.withSlot f v)
    | .error fault => (.error fault, o) := by
  rw [fill]
  cases Record.kept f (given f) with
  | error fault => rfl
  | ok v =>
    show Change.apply (do assign f v; fill given fs) o = _
    rw [apply_bind, apply_assign_empty (h.slots f List.mem_cons_self) (h.empty f List.mem_cons_self)]

/-- **All fields are filled** if all that is given for them can be kept. -/
theorem apply_fill_of_ok (h : o.CanFill fs)
    (hvs : fs.mapM (fun f => Record.kept f (given f)) = .ok vs) :
    ∃ o', (fill given fs).apply o = (.ok (), o') ∧ o'.cls = o.cls ∧ o'.extras = o.extras ∧
      (∀ f, f ∉ fs → o'.slots f = o.slots f) ∧ fs.map o'.slots = vs.map some := by
  -- As long as the slots that remain are empty, nothing can be read that would be in the way.
  induction fs generalizing o vs with
  | nil =>
    cases hvs
    exact ⟨o, rfl, rfl, rfl, fun _ _ => rfl, rfl⟩
  | cons f fs ih =>
    rw [List.mapM_cons] at hvs
    obtain ⟨v, hv, hvs⟩ := bind_eq_ok.mp hvs
    obtain ⟨rest, hrest, hvs⟩ := bind_eq_ok.mp hvs
    cases hvs
    obtain ⟨o', happly, hcls, hextras, hother, hslots⟩ := ih (h.tail v) hrest
    refine ⟨o', ?_, hcls, hextras, fun g hg => ?_, ?_⟩
    · rw [apply_fill_cons h, hv]
      exact happly
    · rw [List.mem_cons, not_or] at hg
      rw [hother g hg.2, slots_withSlot_of_ne hg.1]
    · rw [List.map_cons, List.map_cons, hslots, hother f (List.nodup_cons.mp h.nodup).1,
        slots_withSlot_self]

theorem apply_fill_of_error (h : o.CanFill fs)
    (hfault : fs.mapM (fun f => Record.kept f (given f)) = .error fault) :
    ((fill given fs).apply o).1 = .error fault := by
  induction fs generalizing o with
  | nil => cases hfault
  | cons f fs ih =>
    rw [List.mapM_cons] at hfault
    rw [apply_fill_cons h]
    cases hkept : Record.kept f (given f) with
    | error fault' =>
      rw [hkept] at hfault
      cases hfault
      rfl
    | ok v =>
      refine ih (h.tail v) ?_
      rw [hkept, ok_bind] at hfault
      cases hrest : fs.mapM fun f => Record.kept f (given f) with
      | ok rest =>
        rw [hrest] at hfault
        cases hfault
      | error fault' =>
        rw [hrest] at hfault
        exact hfault

/-! ## New objects hold what is made -/

/-- The outcome of filling a new object: arguments are looked at first. -/
theorem apply_initialise (cls : RecordClass) (arguments : List (String × Value)) (o : Object) :
    (initialise cls arguments).apply o =
      match arguments.findSome? fun a => Record.refuse cls a.1 with
      | some fault => (.error fault, o)
      | none => match Record.missing cls arguments with
        | [] => Change.apply (do
            if cls.hasId then assign "id" .null
            fill (fun f => (arguments.lookup f).getD (.bool false)) cls.keyFields) o
        | absent => (.error (.missing cls absent), o) := by
  rw [initialise]
  cases arguments.findSome? fun a => Record.refuse cls a.1 with
  | some fault => rfl
  | none => cases Record.missing cls arguments <;> rfl

/-- A new object before its fields are filled; its identifier is null if it has one. -/
def begun (cls : RecordClass) : Object :=
  if cls.hasId then withSlot { cls } "id" .null else { cls }

theorem cls_begun (cls : RecordClass) : (begun cls).cls = cls := by
  rw [begun]
  split <;> rfl

theorem extras_begun (cls : RecordClass) : (begun cls).extras = [] := by
  rw [begun]
  split <;> rfl

theorem canFill_begun (cls : RecordClass) : (begun cls).CanFill cls.keyFields where
  nodup := cls.nodup_keyFields
  slots f hf := by
    rw [cls_begun]
    exact RecordClass.mem_fields_iff.mpr (.inr hf)
  empty f hf := by
    have hne : f ≠ "id" := fun heq => cls.id_not_mem_keyFields (heq ▸ hf)
    rw [begun]
    split
    · rw [slots_withSlot_of_ne hne]
    · rfl

theorem apply_begin (cls : RecordClass) (m : Change Unit) : Change.apply (do
    if cls.hasId then assign "id" .null
    m) { cls } = m.apply (begun cls) := by
  rw [begun]
  cases hhas : cls.hasId with
  | false => rfl
  | true =>
    have hid : "id" ∈ cls.fields := RecordClass.mem_fields_iff.mpr (.inl ⟨hhas, rfl⟩)
    show Change.apply (do assign "id" .null; m) { cls } = _
    rw [apply_bind, apply_assign_empty (o := { cls }) hid rfl]
    rfl

/-- The identifier of a new object is null. -/
theorem slots_begun_id {cls : RecordClass} (hhas : cls.hasId = true) :
    (begun cls).slots "id" = some .null := by
  rw [begun, if_pos hhas, slots_withSlot_self]

variable {cls : RecordClass} {arguments : List (String × Value)}

/-- An object whose fields have been filled after it was begun. -/
theorem filled_of_begun (hcls : o.cls = cls) (hextras : o.extras = [])
    (hid : o.slots "id" = (begun cls).slots "id") (hslots : cls.keyFields.map o.slots = vs.map some) :
    o.Filled ∧ o.record = { cls, fields := vs } := by
  subst hcls
  constructor
  · intro f hf
    obtain ⟨hhas, rfl⟩ | hf := RecordClass.mem_fields_iff.mp hf
    · rw [hid, slots_begun_id hhas, Option.isSome_some]
    · have hmem : o.slots f ∈ vs.map some := hslots ▸ List.mem_map_of_mem hf
      obtain ⟨v, -, hv⟩ := List.mem_map.mp hmem
      rw [← hv, Option.isSome_some]
  · have hnull : (if o.cls.hasId then (o.slots "id").getD .null else .null) = .null := by
      split
      · next hhas => rw [hid, slots_begun_id hhas, Option.getD_some]
      · rfl
    have hfields : (o.cls.keyFields.map fun f => (o.slots f).getD .null) = vs := by
      have hgetD := congrArg (List.map fun v => v.getD .null) hslots
      rw [List.map_map, List.map_map] at hgetD
      exact hgetD.trans (List.map_id vs)
    rw [record, hnull, hfields, hextras]

/-- **A new object holds the record that is made**, and has no empty slot. -/
theorem apply_initialise_of_ok (h : Record.make cls arguments = .ok r) :
    ∃ o, (initialise cls arguments).apply { cls } = (.ok (), o) ∧ o.Filled ∧ o.record = r := by
  rw [apply_initialise]
  unfold Record.make at h
  cases hrefuse : arguments.findSome? fun a => Record.refuse cls a.1 with
  | some fault =>
    rw [hrefuse] at h
    cases h
  | none =>
    rw [hrefuse] at h
    dsimp only at h ⊢
    cases hmissing : Record.missing cls arguments with
    | cons f fs =>
      rw [hmissing] at h
      cases h
    | nil =>
      rw [hmissing] at h
      obtain ⟨vs, hvs, h⟩ := bind_eq_ok.mp h
      cases h
      dsimp only
      rw [apply_begin]
      obtain ⟨o, happly, hcls, hextras, hother, hslots⟩ := apply_fill_of_ok (canFill_begun cls) hvs
      exact ⟨o, happly, filled_of_begun (hcls.trans (cls_begun cls)) (hextras.trans (extras_begun cls))
        (hother _ cls.id_not_mem_keyFields) hslots⟩

/-- What cannot be made fails as a new object that is filled does. -/
theorem apply_initialise_of_error (h : Record.make cls arguments = .error fault) :
    ((initialise cls arguments).apply { cls }).1 = .error fault := by
  rw [apply_initialise]
  unfold Record.make at h
  cases hrefuse : arguments.findSome? fun a => Record.refuse cls a.1 with
  | some fault' =>
    rw [hrefuse] at h
    cases h
    rfl
  | none =>
    rw [hrefuse] at h
    dsimp only at h ⊢
    cases hmissing : Record.missing cls arguments with
    | cons f fs =>
      rw [hmissing] at h
      cases h
      rfl
    | nil =>
      rw [hmissing] at h
      dsimp only at h ⊢
      rw [apply_begin]
      refine apply_fill_of_error (canFill_begun cls) ?_
      cases hvs : cls.keyFields.mapM fun f => Record.kept f ((arguments.lookup f).getD (.bool false)) with
      | ok vs =>
        rw [hvs] at h
        cases h
      | error fault' =>
        rw [hvs] at h
        cases h
        rfl

end Object

end Btf
