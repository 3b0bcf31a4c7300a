import Btf.Proofs.WellFormed

/-!
# Attributes of records

What can be read from a record and what setting an attribute does, once for all records: the identifier
and the fields of the class come first, then what is computed from fields and what the class tells, and
last the further attributes.

* `Text.ofString_of_toString?`: a text that is a string is the text of that string;
* `RecordClass.nodup_keyFields`, `RecordClass.id_not_mem_keyFields`: the names of fields;
* `Record.Complete`, `Record.get_id`, `Record.get_field`: what stands in fields is read from them;
* `Record.Readable`, `Record.Absent`, **`Record.get_error_cases`**: why an attribute cannot be read;
* **`Record.set_ok_iff`**, `Record.set_error_iff`: all that setting an attribute can do;
* `Record.get_withId_of_ne`, `Record.get_withExtra`, `Record.get_withExtra_of_ne`: what can be read
  afterwards.
-/

namespace Btf

theorem CodePoint.charPoint_of_toChar? {c : CodePoint} {ch : Char} (h : c.toChar? = some ch) :
    charPoint ch = c := by
  obtain ⟨hvalid, h⟩ | ⟨-, h⟩ := dite_eq_iff.mp h
  · cases h
    exact Fin.ext (Nat.mod_eq_of_lt c.isLt)
  · cases h

/-- A text that is a string is the text of that string. -/
theorem Text.ofString_of_toString? {t : Text} {s : String} (h : t.toString? = some s) :
    ofString s = t := by
  have hmap : ∀ (t : Text) (l : List Char), t.mapM CodePoint.toChar? = some l →
      l.map charPoint = t := by
    intro t
    induction t with
    | nil =>
      rintro l ⟨⟩
      rfl
    | cons c t ih =>
      intro l hl
      rw [List.mapM_cons, Option.bind_eq_bind, Option.bind_eq_some_iff] at hl
      obtain ⟨ch, hch, hl⟩ := hl
      obtain ⟨rest, hrest, hl⟩ := Option.bind_eq_some_iff.mp hl
      cases hl
      rw [List.map_cons, CodePoint.charPoint_of_toChar? hch, ih rest hrest]
  obtain ⟨l, hl, rfl⟩ := Option.map_eq_some_iff.mp h
  rw [ofString, String.toList_ofList, hmap t l hl]

/-! ## Fields by their names -/

section Fields

variable {α : Type} {ks : List String} {vs : List α} {k : String}

theorem isSome_lookup_zip_iff (h : vs.length = ks.length) : ((ks.zip vs).lookup k).isSome ↔ k ∈ ks := by
  induction ks generalizing vs with
  | nil => simp
  | cons k' ks ih =>
    obtain ⟨v, vs, rfl⟩ := List.exists_cons_of_length_eq_add_one h
    rw [List.zip_cons_cons, List.lookup_cons, List.mem_cons]
    cases hk : k == k' with
    | true => simpa using .inl (eq_of_beq hk)
    | false => simp [ih (Nat.succ.inj h), ne_of_beq_false hk]

theorem lookup_zip_eq_none (h : k ∉ ks) : (ks.zip vs).lookup k = none := by
  rw [List.lookup_eq_none_iff]
  exact fun p hp => bne_iff_ne.mpr fun heq : k = p.1 => h (heq ▸ (List.of_mem_zip hp).1)

/-- Values that are looked up under their names, one after the other, are the values. -/
theorem map_lookup_zip (hks : ks.Nodup) (h : vs.length = ks.length) (default : α) :
    ks.map (fun k => ((ks.zip vs).lookup k).getD default) = vs := by
  induction ks generalizing vs with
  | nil => exact (List.length_eq_zero_iff.mp h).symm
  | cons k ks ih =>
    obtain ⟨v, vs, rfl⟩ := List.exists_cons_of_length_eq_add_one h
    obtain ⟨hk, hks⟩ := List.nodup_cons.mp hks
    rw [List.map_cons, List.zip_cons_cons, List.lookup_cons_self, Option.getD_some]
    refine congrArg _ ((List.map_congr_left fun k' hk' => ?_).trans (ih hks (Nat.succ.inj h)))
    rw [List.lookup_cons, beq_eq_false_iff_ne.mpr (fun heq : k' = k => hk (heq ▸ hk'))]

theorem lookup_zip_map (hk : k ∈ ks) (g : String → α) : (ks.zip (ks.map g)).lookup k = some (g k) := by
  induction ks with
  | nil => cases hk
  | cons k' ks ih =>
    rw [List.map_cons, List.zip_cons_cons, List.lookup_cons]
    cases heq : k == k' with
    | true => rw [eq_of_beq heq]
    | false => exact ih ((List.mem_cons.mp hk).resolve_left (ne_of_beq_false heq))

end Fields

/-- The attribute that shows all further attributes at once. -/
def Record.extrasName : String := "__dict__"

namespace RecordClass

variable (c : RecordClass)

theorem nodup_keyFields : c.keyFields.Nodup := by
  cases c with
  | type k => cases k <;> decide
  | _ => decide

theorem id_not_mem_keyFields : "id" ∉ c.keyFields := by
  cases c with
  | type k => cases k <;> decide
  | _ => decide

theorem extrasName_not_mem_keyFields : Record.extrasName ∉ c.keyFields := by
  cases c with
  | type k => cases k <;> decide
  | _ => decide

theorem mem_fields_iff {c : RecordClass} {f : String} :
    f ∈ c.fields ↔ c.hasId = true ∧ f = "id" ∨ f ∈ c.keyFields := by
  rw [fields]
  cases c.hasId <;> simp

end RecordClass

namespace Record

variable {r q : Record} {attr other : Text} {f : String} {v : Value} {fault : RecordFault}

/-- A record has a value for each field of its class. -/
def Complete (r : Record) : Prop := r.fields.length = r.cls.keyFields.length

theorem Complete.isSome_field?_iff (h : r.Complete) :
    (r.field? f).isSome ↔ f ∈ r.cls.keyFields := isSome_lookup_zip_iff h

theorem Complete.map_field (h : r.Complete) : r.cls.keyFields.map r.field = r.fields :=
  map_lookup_zip r.cls.nodup_keyFields h .null

/-- The identifier can be read. -/
theorem get_id (h : r.cls.hasId = true) : r.get ("id" : String) = .ok (.value r.id) := by
  refine get_of_own ?_
  rw [own?, h]
  rfl

/-- What stands in a field is read from it. -/
theorem get_field (h : r.Complete) (hf : f ∈ r.cls.keyFields) :
    r.get f = .ok (.value (r.field f)) := by
  have hid : f ≠ "id" := fun heq => r.cls.id_not_mem_keyFields (heq ▸ hf)
  obtain ⟨v, hv⟩ := Option.isSome_iff_exists.mp (h.isSome_field?_iff.mpr hf)
  refine get_of_own ?_
  rw [own?, beq_eq_false_iff_ne.mpr hid, Bool.and_false, if_neg Bool.false_ne_true, hv, field, hv]
  rfl

/-! ## What cannot be read -/

/-- An attribute can be read. -/
def Readable (r : Record) (attr : Text) : Prop := ∃ a, r.get attr = .ok a

/-- A record does not have an attribute: it is none of its class and no further one. -/
def Absent (r : Record) (attr : Text) : Prop :=
  attr.toString?.bind r.own? = none ∧ r.extras.lookup attr = none

theorem get_of_absent (h : r.Absent attr) : r.get attr = .error (.noAttribute r.cls attr) := by
  rw [get, h.1, h.2]

theorem compute_error {name : String} (h : r.compute name = .error fault) :
    ∃ operator v, fault = .operand operator v := by
  have hwhole : ∀ {operator name}, r.whole operator name = .error fault →
      ∃ operator v, fault = .operand operator v := by
    intro operator name h
    unfold whole at h
    split at h
    · cases h
    · cases h
      exact ⟨_, _, rfl⟩
  unfold compute at h
  split at h
  · cases h
  · rw [map_eq_error, isBitfield] at h
    split at h
    · cases h
    · cases h
      exact ⟨_, _, rfl⟩
  · rw [map_eq_error, bitOffset] at h
    split at h
    · exact hwhole (map_eq_error.mp h)
    · cases h
  · rw [map_eq_error, bitfieldSize] at h
    split at h
    · exact hwhole (map_eq_error.mp h)
    · cases h

theorem own?_error {name : String} (h : r.own? name = some (.error fault)) :
    ∃ operator v, fault = .operand operator v := by
  unfold own? at h
  split at h
  · cases h
  · split at h
    · cases h
    · split at h
      · exact compute_error (Option.some.inj h)
      · obtain ⟨a, -, ha⟩ := Option.map_eq_some_iff.mp h
        cases ha

/-- **An attribute that cannot be read** is absent, or it is computed from a field that is no number. -/
theorem get_error_cases (h : r.get attr = .error fault) :
    r.Absent attr ∧ fault = .noAttribute r.cls attr ∨ ∃ operator v, fault = .operand operator v := by
  unfold get at h
  split at h
  · next a ha =>
    obtain ⟨name, -, hown⟩ := Option.bind_eq_some_iff.mp ha
    exact .inr (own?_error (hown.trans (congrArg some h)))
  · next hown =>
    split at h
    · cases h
    · next hextras =>
      cases h
      exact .inl ⟨⟨hown, hextras⟩, rfl⟩

theorem Absent.not_readable (h : r.Absent attr) : ¬ r.Readable attr := by
  rintro ⟨a, ha⟩
  rw [get_of_absent h] at ha
  cases ha

/-- An attribute can be read, or is absent, or is computed from a field that is no number. -/
theorem readable_or_absent (r : Record) (attr : Text) : r.Readable attr ∨ r.Absent attr ∨
    ∃ operator v, r.get attr = .error (.operand operator v) := by
  cases h : r.get attr with
  | ok a => exact .inl ⟨a, h⟩
  | error fault =>
    obtain ⟨habsent, -⟩ | ⟨operator, v, rfl⟩ := get_error_cases h
    · exact .inr (.inl habsent)
    · exact .inr (.inr ⟨operator, v, rfl⟩)

/-! ## Setting attributes -/

theorem awaits_iff : r.awaits attr = true ↔
    r.cls.hasId = true ∧ attr = Text.ofString "id" ∧ r.id = .null := by
  unfold awaits
  cases r.id <;> simp

theorem get_of_awaits (h : r.awaits attr = true) : r.get attr = .ok (.value .null) := by
  obtain ⟨hhas, rfl, hid⟩ := awaits_iff.mp h
  rw [get_id hhas, hid]

theorem set_of_awaits (h : r.awaits attr = true) : r.set attr v = .ok { r with id := v } := by
  rw [set, get_of_awaits h]
  exact if_pos h

theorem set_of_readable (h : r.Readable attr) (hid : r.awaits attr = false) :
    r.set attr v = .error (.readOnly r.cls attr) := by
  obtain ⟨a, ha⟩ := h
  rw [set, ha]
  exact if_neg (Bool.eq_false_iff.mp hid)

theorem set_of_absent (h : r.Absent attr) : r.set attr v =
    if r.cls.isOpen then .ok { r with extras := r.extras ++ [(attr, v)] }
    else .error (.noAttribute r.cls attr) := by
  rw [set, get_of_absent h]

theorem set_of_operand {operator : String} {w : Value}
    (h : r.get attr = .error (.operand operator w)) :
    r.set attr v = .error (.operand operator w) := by
  rw [set, h]

/-- **Setting an attribute succeeds** for an identifier that has not been set, and for an attribute that
the record does not have if its class is open. -/
theorem set_ok_iff : r.set attr v = .ok q ↔
    r.awaits attr = true ∧ q = { r with id := v } ∨
      r.Absent attr ∧ r.cls.isOpen = true ∧ q = { r with extras := r.extras ++ [(attr, v)] } := by
  constructor
  · intro h
    obtain hread | habsent | ⟨operator, w, hfault⟩ := r.readable_or_absent attr
    · cases hid : r.awaits attr with
      | true => exact .inl ⟨rfl, Except.ok.inj (h.symm.trans (set_of_awaits hid))⟩
      | false => cases h.symm.trans (set_of_readable hread hid)
    · rw [set_of_absent habsent] at h
      split at h
      · next hopen => exact .inr ⟨habsent, hopen, (Except.ok.inj h).symm⟩
      · cases h
    · cases h.symm.trans (set_of_operand hfault)
  · rintro (⟨hid, rfl⟩ | ⟨habsent, hopen, rfl⟩)
    · exact set_of_awaits hid
    · rw [set_of_absent habsent, if_pos hopen]

/-- **Setting an attribute fails** for one that can be read, for one that the record does not have if its
class is closed, and as reading it does where this fails. -/
theorem set_error_iff : r.set attr v = .error fault ↔
    r.Readable attr ∧ r.awaits attr = false ∧ fault = .readOnly r.cls attr ∨
      r.Absent attr ∧ r.cls.isOpen = false ∧ fault = .noAttribute r.cls attr ∨
        ∃ operator w, r.get attr = .error (.operand operator w) ∧ fault = .operand operator w := by
  constructor
  · intro h
    obtain hread | habsent | ⟨operator, w, hfault⟩ := r.readable_or_absent attr
    · cases hid : r.awaits attr with
      | true => cases h.symm.trans (set_of_awaits hid)
      | false =>
        exact .inl ⟨hread, rfl, Except.error.inj (h.symm.trans (set_of_readable hread hid))⟩
    · rw [set_of_absent habsent] at h
      split at h
      · cases h
      · next hclosed =>
        exact .inr (.inl ⟨habsent, Bool.eq_false_iff.mpr hclosed, (Except.error.inj h).symm⟩)
    · exact .inr (.inr
        ⟨operator, w, hfault, Except.error.inj (h.symm.trans (set_of_operand hfault))⟩)
  · rintro (⟨hread, hid, rfl⟩ | ⟨habsent, hclosed, rfl⟩ | ⟨operator, w, hfault, rfl⟩)
    · exact set_of_readable hread hid
    · rw [set_of_absent habsent, if_neg (Bool.eq_false_iff.mp hclosed)]
    · exact set_of_operand hfault

/-! ## What can be read afterwards -/

/-- Another identifier changes no other attribute. -/
theorem get_withId_of_ne (h : attr ≠ Text.ofString "id") (v : Value) :
    get { r with id := v } attr = r.get attr := by
  cases hname : attr.toString? with
  | none => rw [get, get, hname, Option.bind_none, Option.bind_none]
  | some name =>
    have hid : name ≠ "id" := fun heq => h (heq ▸ (Text.ofString_of_toString? hname).symm)
    have hown : own? { r with id := v } name = r.own? name := by
      rw [own?, own?, beq_eq_false_iff_ne.mpr hid, Bool.and_false]
      rfl
    rw [get, get, hname, Option.bind_some, Option.bind_some, hown]

theorem openFact?_withExtras {name : String} (h : name ≠ extrasName) (es : List (Text × Value)) :
    openFact? { r with extras := es } name = r.openFact? name := by
  unfold openFact?
  split
  · exact absurd rfl h
  · next hopen =>
    rw [hopen]
    rfl
  · rfl

/-- Further attributes are told by no attribute but one. -/
theorem own?_withExtras {name : String} (h : name ≠ extrasName) (es : List (Text × Value)) :
    own? { r with extras := es } name = r.own? name := by
  have hfact := openFact?_withExtras (r := r) h es
  rw [own?, own?, hfact]
  rfl

theorem own?_extrasName (r : Record) : r.own? extrasName =
    if r.cls.isOpen then some (.ok (.value (.map (r.extras.map fun e => (.str e.1, e.2)))))
    else none := by
  obtain ⟨cls, id, fields, extras⟩ := r
  have hfield : field? ⟨cls, id, fields, extras⟩ extrasName = none :=
    lookup_zip_eq_none cls.extrasName_not_mem_keyFields
  rw [own?, hfield]
  cases cls with
  | type k => cases k <;> rfl
  | _ => rfl

theorem own?_withExtras_eq_none_iff {name : String} (es : List (Text × Value)) :
    own? { r with extras := es } name = none ↔ r.own? name = none := by
  by_cases h : name = extrasName
  · rw [h, own?_extrasName, own?_extrasName]
    cases r.cls.isOpen <;> simp
  · rw [own?_withExtras h]

/-- **A further attribute** can be read once it has been set. -/
theorem get_withExtra (h : r.Absent attr) (v : Value) :
    get { r with extras := r.extras ++ [(attr, v)] } attr = .ok (.value v) := by
  have hown : attr.toString?.bind (own? { r with extras := r.extras ++ [(attr, v)] }) = none := by
    obtain ⟨hown, -⟩ := h
    rw [Option.bind_eq_none_iff] at hown ⊢
    exact fun name hname => (own?_withExtras_eq_none_iff _).mpr (hown name hname)
  rw [get, hown]
  dsimp only
  rw [List.lookup_append, h.2, Option.none_or, List.lookup_cons_self]

/-- It changes no other attribute than the one that shows it. -/
theorem get_withExtra_of_ne (h : other ≠ attr)
    (hdict : other = Text.ofString extrasName → r.cls.isOpen = false) (v : Value) :
    get { r with extras := r.extras ++ [(attr, v)] } other = r.get other := by
  have hown : other.toString?.bind (own? { r with extras := r.extras ++ [(attr, v)] }) =
      other.toString?.bind r.own? := by
    cases hname : other.toString? with
    | none => rfl
    | some name =>
      by_cases hne : name = extrasName
      · have hclosed := hdict (hne ▸ (Text.ofString_of_toString? hname).symm)
        rw [hne, Option.bind_some, Option.bind_some, own?_extrasName, own?_extrasName, hclosed]
        rfl
      · exact own?_withExtras hne _
  have hextras : (r.extras ++ [(attr, v)]).lookup other = r.extras.lookup other := by
    rw [List.lookup_append, List.lookup_cons, beq_eq_false_iff_ne.mpr h]
    exact Option.or_none
  rw [get, get, hown]
  dsimp only
  rw [hextras]

/-- No other attribute becomes readable. -/
theorem readable_withExtra_iff (h : other ≠ attr) (v : Value) :
    Readable { r with extras := r.extras ++ [(attr, v)] } other ↔ r.Readable other := by
  by_cases hdict : other = Text.ofString extrasName ∧ r.cls.isOpen = true
  · obtain ⟨rfl, hopen⟩ := hdict
    have hread : ∀ q : Record, q.cls.isOpen = true → q.Readable extrasName :=
      fun q hq => ⟨_, get_of_own ((own?_extrasName q).trans (if_pos hq))⟩
    exact iff_of_true (hread _ hopen) (hread r hopen)
  · have hclosed : other = Text.ofString extrasName → r.cls.isOpen = false :=
      fun heq => Bool.eq_false_iff.mpr fun hopen => hdict ⟨heq, hopen⟩
    rw [Readable, Readable, get_withExtra_of_ne h hclosed]

end Record

end Btf
