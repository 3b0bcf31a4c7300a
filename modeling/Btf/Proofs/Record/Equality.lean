import Btf.Proofs.Record.Attributes

/-!
# Equality of records

Records of plain values are equal if and only if they have the same canonical form, in which truth values
are whole numbers and no record has an identifier; and hashes are made of nothing else. That equality is
an equivalence which goes with hashing follows from it.

* `Value.Plain`: values of fields, and records of them at any depth;
* `Value.canonical`, **`Value.Plain.equal_iff`**: equality is equality of canonical forms, by induction on
  the nesting;
* `Value.Plain.digest?_canonical`, `Value.Plain.exists_digest?`: every plain value has a hash, which is
  that of its canonical form;
* `Value.withoutIds`: a value without identifiers has the same canonical form;
* `Record.equals?`, `Record.isEqual`, `Record.isDifferent`: comparisons that may give no answer, and what
  is made of them;
* **`Record.equality_lawful`**: the laws of equality.
-/

namespace Btf

namespace Value

/-- Plain values: null, truth values, whole numbers, texts and bytes, and tuples and records of plain
values. -/
inductive Plain : Value → Prop
  | null : Plain .null
  | bool (b : Bool) : Plain (.bool b)
  | int (n : Int) : Plain (.int n)
  | str (t : Text) : Plain (.str t)
  | bytes (bs : List UInt8) : Plain (.bytes bs)
  | tuple {vs : List Value} (h : ∀ v ∈ vs, Plain v) : Plain (.tuple vs)
  | record {cls : RecordClass} {id : Value} {vs : List Value} (h : ∀ v ∈ vs, Plain v) :
      Plain (.record cls id vs)

/-! ## Canonical forms -/

mutual

/-- A plain value in its canonical form. -/
def canonical : Value → Value
  | bool b => .int b.toNat
  | tuple vs => .tuple (canonicalAll vs)
  | record cls _ vs => .record cls .null (canonicalAll vs)
  | v => v

def canonicalAll : List Value → List Value
  | [] => []
  | v :: vs => canonical v :: canonicalAll vs

end

mutual

/-- A plain value in which no record has an identifier. -/
def withoutIds : Value → Value
  | tuple vs => .tuple (withoutIdsAll vs)
  | record cls _ vs => .record cls .null (withoutIdsAll vs)
  | v => v

def withoutIdsAll : List Value → List Value
  | [] => []
  | v :: vs => withoutIds v :: withoutIdsAll vs

end

variable {v w : Value} {vs ws : List Value}

theorem canonicalAll_eq_map (vs : List Value) : canonicalAll vs = vs.map canonical := by
  induction vs with
  | nil => rfl
  | cons v vs ih => rw [canonicalAll, ih, List.map_cons]

theorem withoutIdsAll_eq_map (vs : List Value) : withoutIdsAll vs = vs.map withoutIds := by
  induction vs with
  | nil => rfl
  | cons v vs ih => rw [withoutIdsAll, ih, List.map_cons]

theorem equalAll_iff : equalAll vs ws = true ↔ List.Forall₂ (fun v w => v.equal w = true) vs ws := by
  induction vs generalizing ws with
  | nil => cases ws <;> simp [equalAll]
  | cons v vs ih => cases ws <;> simp [equalAll, ih]

theorem equalAll_iff_canonicalAll
    (h : ∀ v ∈ vs, ∀ w ∈ ws, v.equal w = true ↔ v.canonical = w.canonical) :
    equalAll vs ws = true ↔ canonicalAll vs = canonicalAll ws := by
  induction vs generalizing ws with
  | nil => cases ws <;> simp [equalAll, canonicalAll]
  | cons v vs ih =>
    cases ws with
    | nil => simp [equalAll, canonicalAll]
    | cons w ws =>
      have hhead := h v List.mem_cons_self w List.mem_cons_self
      have htail := ih fun v' hv' w' hw' =>
        h v' (List.mem_cons_of_mem _ hv') w' (List.mem_cons_of_mem _ hw')
      rw [equalAll, canonicalAll, canonicalAll, Bool.and_eq_true, hhead, htail, List.cons.injEq]

/-- **Equal plain values** are those with the same canonical form. -/
theorem Plain.equal_iff (hv : v.Plain) (hw : w.Plain) :
    v.equal w = true ↔ v.canonical = w.canonical := by
  induction hv generalizing w with
  | null => cases hw <;> simp [equal, scalarEqual, whole?, canonical]
  | bool b => cases hw <;> simp [equal, scalarEqual, whole?, canonical]
  | int n => cases hw <;> simp [equal, scalarEqual, whole?, canonical]
  | str t => cases hw <;> simp [equal, scalarEqual, whole?, canonical]
  | bytes bs => cases hw <;> simp [equal, scalarEqual, whole?, canonical]
  | tuple h ih =>
    cases hw with
    | tuple hws =>
      rw [equal, canonical, canonical, tuple.injEq]
      exact equalAll_iff_canonicalAll fun v hv w hw => ih v hv (hws w hw)
    | _ => simp [equal, canonical]
  | record h ih =>
    cases hw with
    | record hws =>
      rw [equal, canonical, canonical, record.injEq, Bool.and_eq_true, beq_iff_eq]
      refine and_congr_right fun _ => ?_
      rw [equalAll_iff_canonicalAll fun v hv w hw => ih v hv (hws w hw)]
      exact (and_iff_right rfl).symm
    | _ => simp [equal, canonical]

theorem Plain.equal_self (h : v.Plain) : v.equal v = true := (h.equal_iff h).mpr rfl

/-! ## Hashes -/

theorem digestAll?_canonicalAll (h : ∀ v ∈ vs, v.canonical.digest? = v.digest?) :
    digestAll? (canonicalAll vs) = digestAll? vs := by
  induction vs with
  | nil => rfl
  | cons v vs ih =>
    rw [canonicalAll, digestAll?, digestAll?, h v List.mem_cons_self,
      ih fun w hw => h w (List.mem_cons_of_mem _ hw)]

/-- **Hashes are made of canonical forms.** -/
theorem Plain.digest?_canonical (h : v.Plain) : v.canonical.digest? = v.digest? := by
  induction h with
  | bool b => rw [canonical, digest?, digest?]
  | tuple h ih => rw [canonical, digest?, digest?, digestAll?_canonicalAll ih]
  | record h ih => rw [canonical, digest?, digest?, digestAll?_canonicalAll ih]
  | _ => rw [canonical] <;> simp

theorem exists_digestAll? (h : ∀ v ∈ vs, ∃ d, v.digest? = .ok d ∧ d.Plain) :
    ∃ ds, digestAll? vs = .ok ds ∧ ∀ d ∈ ds, d.Plain := by
  induction vs with
  | nil => exact ⟨[], rfl, fun _ hd => by cases hd⟩
  | cons v vs ih =>
    obtain ⟨d, hd, hplain⟩ := h v List.mem_cons_self
    obtain ⟨ds, hds, hall⟩ := ih fun w hw => h w (List.mem_cons_of_mem _ hw)
    refine ⟨d :: ds, ?_, List.forall_mem_cons.mpr ⟨hplain, hall⟩⟩
    rw [digestAll?, hd, hds]
    rfl

/-- **Every plain value has a hash.** -/
theorem Plain.exists_digest? (h : v.Plain) : ∃ d, v.digest? = .ok d ∧ d.Plain := by
  induction h with
  | null => exact ⟨_, rfl, .null⟩
  | bool b => exact ⟨_, rfl, .int _⟩
  | int n => exact ⟨_, rfl, .int _⟩
  | str t =>
    refine ⟨_, rfl, ?_⟩
    split
    · exact .int 0
    · exact .bytes _
  | bytes bs =>
    refine ⟨_, rfl, ?_⟩
    split
    · exact .int 0
    · exact .bytes _
  | tuple h ih =>
    obtain ⟨ds, hds, hall⟩ := exists_digestAll? ih
    refine ⟨.tuple ds, ?_, .tuple hall⟩
    rw [digest?, hds]
    rfl
  | @record cls id vs h ih =>
    obtain ⟨ds, hds, hall⟩ := exists_digestAll? ih
    refine ⟨.record cls .null ds, ?_, .record hall⟩
    rw [digest?, hds]
    rfl

theorem Plain.digest?_eq (hv : v.Plain) (hw : w.Plain) (h : v.equal w = true) :
    v.digest? = w.digest? := by
  rw [← hv.digest?_canonical, ← hw.digest?_canonical, (hv.equal_iff hw).mp h]

/-! ## Identifiers -/

theorem canonicalAll_withoutIdsAll (h : ∀ v ∈ vs, v.withoutIds.canonical = v.canonical) :
    canonicalAll (withoutIdsAll vs) = canonicalAll vs := by
  rw [canonicalAll_eq_map, canonicalAll_eq_map, withoutIdsAll_eq_map, List.map_map]
  exact List.map_congr_left h

/-- Identifiers are no part of canonical forms. -/
theorem Plain.canonical_withoutIds (h : v.Plain) : v.withoutIds.canonical = v.canonical := by
  induction h with
  | tuple h ih => rw [withoutIds, canonical, canonical, canonicalAll_withoutIdsAll ih]
  | record h ih => rw [withoutIds, canonical, canonical, canonicalAll_withoutIdsAll ih]
  | _ => rfl

theorem Plain.withoutIds (h : v.Plain) : v.withoutIds.Plain := by
  induction h with
  | null => exact .null
  | bool b => exact .bool b
  | int n => exact .int n
  | str t => exact .str t
  | bytes bs => exact .bytes bs
  | tuple h ih =>
    rw [Value.withoutIds, withoutIdsAll_eq_map]
    exact .tuple (List.forall_mem_map.mpr ih)
  | record h ih =>
    rw [Value.withoutIds, withoutIdsAll_eq_map]
    exact .record (List.forall_mem_map.mpr ih)

theorem Plain.equal_withoutIds (hv : v.Plain) (hw : w.Plain) :
    v.withoutIds.equal w.withoutIds = v.equal w := by
  rw [Bool.eq_iff_iff, hv.withoutIds.equal_iff hw.withoutIds, hv.equal_iff hw,
    hv.canonical_withoutIds, hw.canonical_withoutIds]

theorem Plain.digest?_withoutIds (h : v.Plain) : v.withoutIds.digest? = v.digest? := by
  rw [← h.withoutIds.digest?_canonical, h.canonical_withoutIds, h.digest?_canonical]

end Value

/-! ## Comparing records -/

namespace Record

/-- A record of plain values, with one for each field of its class. -/
structure Plain (r : Record) : Prop where
  complete : r.Complete
  fields : ∀ v ∈ r.fields, v.Plain

/-- The fields other than the identifier, in their order. -/
def parts (r : Record) : List Value := r.cls.keyFields.map r.field

/-- What a record answers when it is compared with another one: nothing if this is of another class. -/
def equals? (r q : Record) : Option Bool :=
  if r.cls = q.cls then some (Value.equalAll r.parts q.parts) else none

/-- The other answer, if there is one. -/
def differs? (r q : Record) : Option Bool := (r.equals? q).map not

/-- Two records are equal: the first answers, and if it does not, the second; and if neither of them does,
they have to be the very same one. -/
def isEqual (identical : Bool) (r q : Record) : Bool := (r.equals? q <|> q.equals? r).getD identical

def isDifferent (identical : Bool) (r q : Record) : Bool :=
  (r.differs? q <|> q.differs? r).getD !identical

variable {r q p : Record}

theorem Plain.value (h : r.Plain) : r.value.Plain := .record h.fields

/-- **Being different is not being equal.** -/
theorem isDifferent_eq_not (identical : Bool) (r q : Record) :
    isDifferent identical r q = !isEqual identical r q := by
  rw [isDifferent, isEqual, differs?, differs?]
  cases r.equals? q with
  | some b => rfl
  | none => cases q.equals? r <;> rfl

theorem equal_value_iff : r.value.equal q.value = true ↔
    r.cls = q.cls ∧ Value.equalAll r.fields q.fields = true := by
  rw [value, value, Value.equal, Bool.and_eq_true, beq_iff_eq]

/-- **How records are compared**, in terms of their values. -/
theorem isEqual_eq (hr : r.Complete) (hq : q.Complete) {identical : Bool}
    (hidentical : identical = true → r = q) : isEqual identical r q = r.value.equal q.value := by
  rw [Bool.eq_iff_iff, equal_value_iff, isEqual, equals?, equals?, parts, parts, hr.map_field,
    hq.map_field]
  by_cases hcls : r.cls = q.cls
  · rw [if_pos hcls]
    exact (and_iff_right hcls).symm
  · have hne : identical = false :=
      Bool.eq_false_iff.mpr fun h => hcls (congrArg Record.cls (hidentical h))
    rw [if_neg hcls, if_neg fun h => hcls h.symm, hne]
    exact iff_of_false Bool.false_ne_true fun h => hcls h.1

/-- **Equal records** are those of one class with equal fields. -/
theorem equal_iff_fields (hr : r.Complete) (hq : q.Complete) : r.value.equal q.value = true ↔
    r.cls = q.cls ∧ ∀ f ∈ r.cls.keyFields, (r.field f).equal (q.field f) = true := by
  rw [equal_value_iff]
  refine and_congr_right fun hcls => ?_
  rw [← hr.map_field, ← hq.map_field, ← hcls, Value.equalAll_iff, List.forall₂_map_left_iff,
    List.forall₂_map_right_iff, List.forall₂_same]

/-- Equal records among others have the same hash. -/
theorem sameHash_of_equal (hr : r.Plain) (hq : q.Plain) (h : r.value.equal q.value = true)
    {rs : List Record} {i j : Nat} (hi : rs[i]? = some r) (hj : rs[j]? = some q) :
    sameHash rs i j = .ok true := by
  obtain ⟨d, hd, hplain⟩ := hq.value.exists_digest?
  rw [sameHash, hi, hj]
  dsimp only
  rw [hr.value.digest?_eq hq.value h, hd, ok_bind, ok_bind, hplain.equal_self, Bool.or_true]
  rfl

theorem same_eq (hr : r.Plain) {rs : List Record} {i j : Nat} (hi : rs[i]? = some r)
    (hj : rs[j]? = some q) : same rs i j = r.value.equal q.value := by
  rw [same, hi, hj]
  by_cases h : i = j
  · have hrq : r = q := Option.some.inj (hi.symm.trans (h ▸ hj))
    rw [beq_iff_eq.mpr h, Bool.true_or, ← hrq, hr.value.equal_self]
  · rw [beq_eq_false_iff_ne.mpr h, Bool.false_or]

/-- **The laws of equality**, for records of plain values, which may be records themselves at any depth:

* equality is reflexive, symmetric and transitive;
* equal records are those of one class from which equal values are read in all fields other than the
  identifier;
* comparing asks the one, then the other, and being different is the opposite of being equal;
* equal records have equal hashes, and all have one;
* no identifier at any depth counts in either;
* and so it is for records among others. -/
theorem equality_lawful (hr : r.Plain) (hq : q.Plain) (hp : p.Plain) :
    r.value.equal r.value = true ∧
      r.value.equal q.value = q.value.equal r.value ∧
      (r.value.equal q.value = true → q.value.equal p.value = true → r.value.equal p.value = true) ∧
      (r.value.equal q.value = true ↔ r.cls = q.cls ∧ ∀ f ∈ r.cls.fields, f ≠ "id" →
        ∃ v w : Value, r.get f = .ok (.value v) ∧ q.get f = .ok (.value w) ∧ v.equal w = true) ∧
      (∀ identical : Bool, (identical = true → r = q) →
        isEqual identical r q = r.value.equal q.value ∧
        isDifferent identical r q = !r.value.equal q.value) ∧
      (∃ d, r.value.digest? = .ok d) ∧
      (r.value.equal q.value = true → r.value.digest? = q.value.digest?) ∧
      r.value.withoutIds.equal q.value.withoutIds = r.value.equal q.value ∧
      r.value.withoutIds.digest? = r.value.digest? ∧
      ∀ (rs : List Record) (i j : Nat), rs[i]? = some r → rs[j]? = some q →
        same rs i j = r.value.equal q.value ∧ (same rs i j = true → sameHash rs i j = .ok true) := by
  have hrq := hr.value.equal_iff hq.value
  have hqr := hq.value.equal_iff hr.value
  have hqp := hq.value.equal_iff hp.value
  have hrp := hr.value.equal_iff hp.value
  refine ⟨hr.value.equal_self, ?_, fun h h' => ?_, ?_, fun identical hidentical => ?_, ?_,
    hr.value.digest?_eq hq.value, hr.value.equal_withoutIds hq.value, hr.value.digest?_withoutIds,
    fun rs i j hi hj => ?_⟩
  · rw [Bool.eq_iff_iff, hrq, hqr]
    exact eq_comm
  · exact hrp.mpr ((hrq.mp h).trans (hqp.mp h'))
  · rw [equal_iff_fields hr.complete hq.complete]
    refine and_congr_right fun hcls => ⟨fun h f hf hne => ?_, fun h f hf => ?_⟩
    · have hkey : f ∈ r.cls.keyFields :=
        (RecordClass.mem_fields_iff.mp hf).resolve_left fun hid => hne hid.2
      exact ⟨_, _, get_field hr.complete hkey, get_field hq.complete (hcls ▸ hkey), h f hkey⟩
    · have hne : f ≠ "id" := fun heq => r.cls.id_not_mem_keyFields (heq ▸ hf)
      obtain ⟨v, w, hv, hw, hvw⟩ := h f (RecordClass.mem_fields_iff.mpr (.inr hf)) hne
      rw [get_field hr.complete hf] at hv
      rw [get_field hq.complete (hcls ▸ hf)] at hw
      cases hv
      cases hw
      exact hvw
  · rw [isDifferent_eq_not, isEqual_eq hr.complete hq.complete hidentical]
    exact ⟨rfl, rfl⟩
  · obtain ⟨d, hd, -⟩ := hr.value.exists_digest?
    exact ⟨d, hd⟩
  · have hsame := same_eq hr hi hj
    exact ⟨hsame, fun h => sameHash_of_equal hr hq (hsame ▸ h) hi hj⟩

/-- A composite with one member, which has a truth value or a whole number for its flag. -/
def pairOf (cls : RecordClass) (id flag : Value) : Record where
  cls := cls
  id := id
  fields := ["pair", .int 8, flag, .tuple [.record .member id ["first", .int 1, .int 0, flag]]]

theorem plain_pairOf {cls : RecordClass} {flag : Value} (h : cls.keyFields.length = 4) (id : Value)
    (hflag : flag.Plain) : (pairOf cls id flag).Plain where
  complete := h.symm
  fields := by
    have hmember : (Value.record .member id ["first", .int 1, .int 0, flag]).Plain := .record
      (List.forall_mem_cons.mpr ⟨.str _, List.forall_mem_cons.mpr ⟨.int 1, List.forall_mem_cons.mpr
        ⟨.int 0, List.forall_mem_singleton.mpr hflag⟩⟩⟩)
    exact List.forall_mem_cons.mpr ⟨.str _, List.forall_mem_cons.mpr ⟨.int 8, List.forall_mem_cons.mpr
      ⟨hflag, List.forall_mem_singleton.mpr (.tuple (List.forall_mem_singleton.mpr hmember))⟩⟩⟩

/-- The same structure with other identifiers and with one for true, and a union. -/
theorem equality_lawful_pairOf :
    let r := pairOf (.type .struct) .null (.bool true)
    let q := pairOf (.type .struct) (.int 5) (.int 1)
    let p := pairOf (.type .union) .null (.bool true)
    isEqual false q r = true ∧ q.value.digest? = r.value.digest? ∧ isDifferent false q p = true := by
  intro r q p
  have hr : r.Plain := plain_pairOf rfl .null (.bool true)
  have hq : q.Plain := plain_pairOf rfl (.int 5) (.int 1)
  have hp : p.Plain := plain_pairOf rfl .null (.bool true)
  obtain ⟨-, -, -, -, hoperators, -, hhash, -⟩ := equality_lawful hq hr hp
  obtain ⟨-, -, -, hfields, hothers, -⟩ := equality_lawful hq hp hr
  have hequal : q.value.equal r.value = true := rfl
  have hunequal : q.value.equal p.value = false :=
    Bool.eq_false_iff.mpr fun h => absurd (hfields.mp h).1 (by decide)
  refine ⟨?_, hhash hequal, ?_⟩
  · rw [(hoperators false fun h => by cases h).1, hequal]
  · rw [(hothers false fun h => by cases h).2, hunequal]
    rfl

end Record

end Btf
