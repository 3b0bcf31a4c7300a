import Btf.Proofs.Record.InPlace

/-!
# Which decoded records are closed

A class of records inherits from others, and each of them declares its own slots or none at all. The
records of a class have room for further attributes if and only if a class on its path declares none. Such
records can be given an attribute that they did not have, even after they have been decoded; all others are
closed, and no attribute that can be read is ever replaced.

* `Ancestor`, `RecordClass.path`: the classes from which a class inherits;
* `RecordClass.fields_eq_slots`, `RecordClass.keyFields_eq_filter`, **`RecordClass.isOpen_eq_any`**: what
  follows from the declarations along the path;
* `Record.Settled`, `Table.settled_of_mem_records`: the records of a table have their identifiers, and
  everything in them that is computed can be computed;
* **`Table.records_closed`**: all that setting an attribute of such a record can do;
* `decode_leaves_open`: a decoded record that takes an attribute of any name.
-/

namespace Btf

/-! ## Where slots are declared -/

/-- What classes of records have in common, and these classes themselves. -/
inductive Ancestor
  | record
  | type
  | reference
  | composite
  | own (c : RecordClass)

namespace Ancestor

/-- The slots that a class declares of its own; nothing if it declares none at all. -/
def slots? : Ancestor → Option (List String)
  | record => some []
  | type => some ["id"]
  | reference => some ["typ"]
  | composite => some ["name", "size", "kind_flag", "members"]
  | own (.type .ptr) | own (.type .volatile) | own (.type .const) => none
  | own (.type .struct) | own (.type .union) => none
  | own (.type .int) => some ["name", "size", "bits", "bit_offset", "is_signed", "is_char", "is_bool"]
  | own (.type .array) => some ["typ", "index_typ", "nelems"]
  | own (.type .enum) => some ["name", "size", "enumerators"]
  | own (.type .fwd) => some ["name", "is_union"]
  | own (.type .typedef) | own (.type .func) => some ["name", "typ"]
  | own (.type .funcProto) => some ["typ", "params", "variadic"]
  | own .member => some ["name", "typ", "offset", "kind_flag"]
  | own .enumerator => some ["name", "value"]
  | own .param => some ["name", "typ"]

/-- The fields that are neither compared nor hashed, where a class says which ones. -/
def nonKey? : Ancestor → Option (List String)
  | record => some []
  | type => some ["id"]
  | _ => none

end Ancestor

namespace RecordClass

/-- What types of a kind have in common with those of other kinds. -/
def family? : Kind → Option Ancestor
  | .ptr | .volatile | .const => some .reference
  | .struct | .union => some .composite
  | _ => none

/-- The classes from which a class inherits, the most general one first, and then the class itself. -/
def path : RecordClass → List Ancestor
  | type k => [.record, .type] ++ (family? k).toList ++ [.own (type k)]
  | c => [.record, .own c]

/-- What the last class on the path says that says which fields are neither compared nor hashed. -/
def nonKey (c : RecordClass) : List String := (c.path.reverse.findSome? Ancestor.nonKey?).getD []

/-- Every class on the path declares its slots. -/
def IsClosed (c : RecordClass) : Prop := ∀ a ∈ c.path, a.slots?.isSome

variable (c : RecordClass)

/-- The fields are the slots along the path, -/
theorem fields_eq_slots : c.fields = c.path.flatMap fun a => a.slots?.getD [] := by
  cases c with
  | type k => cases k <;> rfl
  | _ => rfl

/-- and of them all are compared and hashed that are not excepted; -/
theorem keyFields_eq_filter : c.keyFields = c.fields.filter fun f => !c.nonKey.contains f := by
  cases c with
  | type k => cases k <;> decide
  | _ => decide

/-- **and there is room for further attributes** if some class declares none. -/
theorem isOpen_eq_any : c.isOpen = c.path.any fun a => a.slots?.isNone := by
  cases c with
  | type k => cases k <;> rfl
  | _ => rfl

variable {c}

theorem isClosed_iff : c.IsClosed ↔ c.isOpen = false := by
  rw [isOpen_eq_any, List.any_eq_false]
  exact forall₂_congr fun a _ => by cases a.slots? <;> simp

theorem not_isClosed_iff : ¬ c.IsClosed ↔ c.isOpen = true := by
  rw [isClosed_iff, Bool.not_eq_false]

end RecordClass

/-! ## The records of a table -/

namespace Record

/-- The records in the fields of a record. -/
def inner (r : Record) : List Record :=
  r.fields.flatMap fun v => match v with
    | .tuple vs => vs.filterMap ofValue
    | _ => []

/-- Nothing of a record is left to be set or cannot be computed. -/
structure Settled (r : Record) : Prop where
  complete : r.Complete
  id : r.cls.hasId = true ↔ r.id ≠ .null
  computes : ∀ name ∈ computed r.cls, ∃ a, r.compute name = .ok a

variable {r : Record} {attr : Text} {v : Value}

theorem Settled.awaits (h : r.Settled) (attr : Text) : r.awaits attr = false := by
  rw [Bool.eq_false_iff, ne_eq, awaits_iff]
  rintro ⟨hhas, -, hid⟩
  exact h.id.mp hhas hid

theorem Settled.own? (h : r.Settled) {name : String} {a : Except RecordFault Attribute}
    (ha : r.own? name = some a) : ∃ b, a = .ok b := by
  unfold Record.own? at ha
  split at ha
  · cases ha
    exact ⟨_, rfl⟩
  · split at ha
    · cases ha
      exact ⟨_, rfl⟩
    · split at ha
      · next hname =>
        obtain ⟨b, hb⟩ := h.computes name (List.contains_iff_mem.mp hname)
        exact ⟨b, (Option.some.inj ha).symm.trans hb⟩
      · obtain ⟨b, -, hb⟩ := Option.map_eq_some_iff.mp ha
        exact ⟨b, hb.symm⟩

/-- **An attribute of a settled record** can be read, or the record does not have it. -/
theorem Settled.not_readable_iff (h : r.Settled) : ¬ r.Readable attr ↔ r.Absent attr := by
  refine ⟨fun hread => ?_, Absent.not_readable⟩
  obtain hread' | habsent | ⟨operator, w, hfault⟩ := r.readable_or_absent attr
  · exact absurd hread' hread
  · exact habsent
  -- What cannot be computed would be an attribute of the class.
  · unfold get at hfault
    split at hfault
    · next a ha =>
      obtain ⟨name, -, hown⟩ := Option.bind_eq_some_iff.mp ha
      obtain ⟨b, rfl⟩ := h.own? hown
      cases hfault
    · split at hfault <;> cases hfault

end Record

/-- The records of a table: its types, and their members, enumerators and parameters. -/
def Table.records (t : Table) : List Record := t.types.flatMap fun e => e.record :: e.record.inner

theorem Member.settled (m : Member) : m.record.Settled where
  complete := rfl
  id := by simp [record, RecordClass.hasId]
  computes := by
    obtain ⟨name, type, offset, flag⟩ := m
    intro attr hattr
    obtain rfl | rfl : attr = "bit_offset" ∨ attr = "bitfield_size" := by
      simpa [record, Record.computed] using hattr
    all_goals cases flag <;> exact ⟨_, rfl⟩

theorem Enumerator.settled (x : Enumerator) : x.record.Settled where
  complete := rfl
  id := by simp [record, RecordClass.hasId]
  computes _ hattr := by cases hattr

theorem Param.settled (p : Param) : p.record.Settled where
  complete := rfl
  id := by simp [record, RecordClass.hasId]
  computes _ hattr := by cases hattr

theorem TypeEntry.settled (e : TypeEntry) : e.record.Settled where
  complete := e.info.length_fields
  id := by simp [record, RecordClass.hasId, natValue]
  computes := by
    obtain ⟨id, info⟩ := e
    intro attr hattr
    cases info with
    | int name size bits bitOffset encoding =>
      obtain rfl | rfl : attr = "encoding" ∨ attr = "is_bitfield" := by
        simpa [record, Record.computed, TypeInfo.kind] using hattr
      · exact ⟨_, rfl⟩
      · exact ⟨_, rfl⟩
    | ref k => cases k <;> cases hattr
    | composite k => cases k <;> cases hattr
    | _ => cases hattr

/-- What stands in the fields of a type are its members, enumerators or parameters. -/
theorem TypeInfo.tuple_mem_fields {info : TypeInfo} {vs : List Value} (h : .tuple vs ∈ info.fields) :
    (∃ ms : List Member, vs = ms.map Member.toValue) ∨
      (∃ xs : List Enumerator, vs = xs.map Enumerator.toValue) ∨
        ∃ ps : List Param, vs = ps.map Param.toValue := by
  have hname : ∀ name, Value.tuple vs ≠ nameValue name := by
    intro name hname
    cases name <;> cases hname
  cases info with
  | composite kind name size flag ms => exact .inl ⟨ms, by simpa [fields, natValue, hname] using h⟩
  | enum name size xs => exact .inr (.inl ⟨xs, by simpa [fields, natValue, hname] using h⟩)
  | funcProto result ps variadic => exact .inr (.inr ⟨ps, by simpa [fields, natValue] using h⟩)
  | _ => simp [fields, natValue, hname] at h

theorem TypeEntry.mem_inner {e : TypeEntry} {r : Record} (h : r ∈ e.record.inner) :
    (∃ m : Member, r = m.record) ∨ (∃ x : Enumerator, r = x.record) ∨ ∃ p : Param, r = p.record := by
  obtain ⟨v, hv, h⟩ := List.mem_flatMap.mp h
  split at h
  · next vs =>
    obtain ⟨w, hw, hr⟩ := List.mem_filterMap.mp h
    obtain ⟨ms, rfl⟩ | ⟨xs, rfl⟩ | ⟨ps, rfl⟩ := TypeInfo.tuple_mem_fields hv
    · obtain ⟨m, -, rfl⟩ := List.mem_map.mp hw
      exact .inl ⟨m, (Option.some.inj hr).symm⟩
    · obtain ⟨x, -, rfl⟩ := List.mem_map.mp hw
      exact .inr (.inl ⟨x, (Option.some.inj hr).symm⟩)
    · obtain ⟨p, -, rfl⟩ := List.mem_map.mp hw
      exact .inr (.inr ⟨p, (Option.some.inj hr).symm⟩)
  · cases h

/-- **The records of a table are settled.** -/
theorem Table.settled_of_mem_records {t : Table} {r : Record} (h : r ∈ t.records) : r.Settled := by
  obtain ⟨e, -, h⟩ := List.mem_flatMap.mp h
  obtain rfl | h := List.mem_cons.mp h
  · exact e.settled
  · obtain ⟨m, rfl⟩ | ⟨x, rfl⟩ | ⟨p, rfl⟩ := TypeEntry.mem_inner h
    · exact m.settled
    · exact x.settled
    · exact p.settled

/-! ## Setting attributes after decoding -/

/-- **What setting an attribute does** to a record of a table, of whatever has been decoded, if the record
is kept in an object:

* an attribute that can be read is read-only;
* any other attribute is refused if the class is closed, and in both cases the object is the very same one;
* if the class is not closed, the attribute is set, and then it is read-only as well. It is the only one
  that becomes readable, and neither the fields nor the identifier change. -/
theorem Table.records_closed {t : Table} {r : Record} (hr : r ∈ t.records) :
    ∃ o : Object, o.Filled ∧ o.record = r ∧ ∀ (attr : Text) (v : Value),
      (r.Readable attr → r.set attr v = .error (.readOnly r.cls attr) ∧
        (Object.assign attr v).apply o = (.error (.readOnly r.cls attr), o)) ∧
      (¬ r.Readable attr → r.cls.IsClosed → r.set attr v = .error (.noAttribute r.cls attr) ∧
        (Object.assign attr v).apply o = (.error (.noAttribute r.cls attr), o)) ∧
      (¬ r.Readable attr → ¬ r.cls.IsClosed → ∃ q o', r.set attr v = .ok q ∧
        (Object.assign attr v).apply o = (.ok (), o') ∧ o'.Filled ∧ o'.record = q ∧
        q.get attr = .ok (.value v) ∧ (∀ w, q.set attr w = .error (.readOnly r.cls attr)) ∧
        (∀ other, other ≠ attr → (q.Readable other ↔ r.Readable other)) ∧
        q.cls = r.cls ∧ q.fields = r.fields ∧ q.id = r.id ∧ q.value = r.value) := by
  have h := settled_of_mem_records hr
  have hid : r.cls.hasId = false → r.id = .null := by
    intro hhas
    by_contra hne
    exact Bool.false_ne_true (hhas.symm.trans (h.id.mpr hne))
  obtain ⟨o, hfilled, rfl⟩ : ∃ o : Object, o.Filled ∧ o.record = r :=
    ⟨_, Object.filled_ofRecord h.complete, Object.record_ofRecord h.complete hid⟩
  refine ⟨o, hfilled, rfl, fun attr v => ⟨fun hread => ?_, fun hread hclosed => ?_,
    fun hread hclosed => ?_⟩⟩
  · have hset := Record.set_of_readable (v := v) hread (h.awaits attr)
    exact ⟨hset, Object.apply_assign_of_error hfilled hset⟩
  · have hset : o.record.set attr v = .error (.noAttribute o.cls attr) := Record.set_error_iff.mpr
      (.inr (.inl ⟨h.not_readable_iff.mp hread, RecordClass.isClosed_iff.mp hclosed, rfl⟩))
    exact ⟨hset, Object.apply_assign_of_error hfilled hset⟩
  · have habsent := h.not_readable_iff.mp hread
    have hset : o.record.set attr v = .ok { o.record with extras := o.extras ++ [(attr, v)] } :=
      Record.set_ok_iff.mpr (.inr ⟨habsent, RecordClass.not_isClosed_iff.mp hclosed, rfl⟩)
    have hnew := Record.get_withExtra habsent v
    obtain ⟨o', happly, hfilled', hrecord⟩ := Object.apply_assign_of_ok hfilled hset
    exact ⟨_, o', hset, happly, hfilled', hrecord, hnew,
      fun w => Record.set_of_readable ⟨_, hnew⟩ (h.awaits attr),
      fun other hne => Record.readable_withExtra_iff hne v, rfl, rfl, rfl, rfl⟩

/-- A member of a structure takes neither another name nor an attribute that it does not have. -/
theorem Table.records_closed_member :
    ((Settings.value .null).decode (.memory partsBlob)).outcome = .ok partsTable ∧
      ∃ r ∈ partsTable.records, ∃ o : Object, o.Filled ∧ o.record = r ∧
        (Object.assign "name" (.int 1)).apply o = (.error (.readOnly .member "name"), o) ∧
        (Object.assign "nope" (.int 1)).apply o = (.error (.noAttribute .member "nope"), o) := by
  have hmem : Member.record ⟨some "f", 1, 0, true⟩ ∈ partsTable.records :=
    List.mem_of_getElem? (i := 2) rfl
  have hname : (Member.record ⟨some "f", 1, 0, true⟩).Readable "name" := ⟨_, Record.get_of_own rfl⟩
  have hnope : ¬ (Member.record ⟨some "f", 1, 0, true⟩).Readable "nope" :=
    Record.Absent.not_readable ⟨rfl, rfl⟩
  have hclosed : (RecordClass.member).IsClosed := RecordClass.isClosed_iff.mpr rfl
  obtain ⟨o, hfilled, hrecord, hset⟩ := Table.records_closed hmem
  exact ⟨toOption_eq_some_iff.mp (by decide +kernel), _, hmem, o, hfilled, hrecord,
    ((hset "name" (.int 1)).1 hname).2, ((hset "nope" (.int 1)).2.1 hnope hclosed).2⟩

/-- A blob with a pointer to nothing. -/
def pointerBlob : Bytes := #[
  0x9F, 0xEB, 1, 0, 24, 0, 0, 0, 0, 0, 0, 0, 12, 0, 0, 0, 12, 0, 0, 0, 1, 0, 0, 0,
  0, 0, 0, 0, 0, 0, 0, 2, 0, 0, 0, 0, 0]

def pointerTable : Table where
  header := ⟨0xEB9F, 1, 0, 24, 0, 12, 12, 1⟩
  types := [⟨1, .ref .ptr 0⟩]

/-- A pointer that has been decoded takes an attribute that it did not have. -/
theorem decode_leaves_open :
    ((Settings.value .null).decode (.memory pointerBlob)).outcome = .ok pointerTable ∧
      ∃ r ∈ pointerTable.records, ∃ q, r.set "nope" (.int 1) = .ok q ∧
        ¬ r.Readable "nope" ∧ q.Readable "nope" := by
  have habsent : (TypeEntry.record ⟨1, .ref .ptr 0⟩).Absent "nope" := ⟨rfl, rfl⟩
  have hset := (Record.set_ok_iff (v := .int 1)).mpr (.inr ⟨habsent, rfl, rfl⟩)
  exact ⟨toOption_eq_some_iff.mp (by decide +kernel), _, List.mem_of_getElem? (i := 0) rfl, _, hset,
    habsent.not_readable, _, Record.get_withExtra habsent (.int 1)⟩

end Btf
