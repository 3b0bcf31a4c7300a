import Btf.Proofs.Config.Layers
import Btf.Proofs.Hint

/-!
# Which entries are taken

An addition is checked entry by entry before anything is changed. An entry is taken if its key is one of
the schema, its value has one of the types of the key, and the validator of the key does not fail; the
first entry that is not taken says what is wrong with the addition.

* `Addition.IsMapping`, `Addition.remaining`: additions of entries, and those that are not dropped;
* `Key.Takes`, `Schema.Takes`: what is taken; `Key.Refuses`, `Schema.Offends`: what is not, and why;
* `Key.takes_iff`, `Key.takes_or_refuses`, `Key.Refuses.validate`: the check of one value;
* `Schema.takes_or_offends`, `Schema.Takes.not_offends`, `Schema.validateKey_ok_iff`: the check of one
  entry;
* **`Schema.validateEntries_error_iff`**: the check of all entries, by induction on them;
* **`Config.add_ok_iff`**, **`Config.add_error_iff`**: when an addition succeeds, and how it fails.
-/

namespace Btf

namespace Addition

/-- An addition of nothing or of the entries of a mapping. -/
def IsMapping (a : Addition) : Prop := a.value = .null ∨ ∃ es, a.value.entries? = some es

/-- The entries of an addition but for those that are dropped. -/
def remaining (a : Addition) : List (Value × Value) :=
  match a.value.entries? with
  | some es =>
    if a.dropNull then es.filter fun e => match e.2 with
      | .null => false
      | _ => true
    else es
  | none => []

/-- What an addition of entries says is a mapping with those that remain. -/
theorem IsMapping.exists_entriesOf {a : Addition} (h : a.IsMapping) :
    ∃ v, Config.entriesOf a.value a.dropNull = .ok v ∧ v.entries? = some a.remaining := by
  obtain ⟨layer, v, dropNull, fallback⟩ := a
  rcases h with h | ⟨es, h⟩
  · cases h
    cases dropNull <;> exact ⟨_, rfl, rfl⟩
  · cases v <;> cases h <;> cases dropNull <;> exact ⟨_, rfl, rfl⟩

theorem IsMapping.given {a : Addition} (h : a.IsMapping) :
    a.given = Config.textEntries a.remaining := by
  obtain ⟨v, hsaid, hentries⟩ := h.exists_entriesOf
  exact Config.given_of_entriesOf hsaid hentries

end Addition

/-! ## Values of a key -/

namespace Key

/-- A key takes a value: it has one of the types of the key, and the validator of the key, if there is one,
does not fail. -/
structure Takes (k : Key) (v : Value) : Prop where
  type : k.checker.isInstance v (.anyOf .tuple k.types) = .ok true
  validator : ∀ validator, k.validator? = some validator → validator v = .ok ()

/-- Why a key of the schema with the given name does not take a value. A failure that neither says that
the value has the wrong type nor that it is invalid is passed on. -/
inductive Refuses (schema : Text) (k : Key) (v : Value) : ConfigFault → Prop
  | wrongType {failure : Failure}
      (h : k.checker.checkType v (.anyOf .tuple k.types) = .error failure)
      (htype : failure.sort = .type) :
      Refuses schema k v (.wrongType (k.labelIn schema) k.types v failure.message)
  | unchecked {failure : Failure}
      (h : k.checker.checkType v (.anyOf .tuple k.types) = .error failure)
      (htype : failure.sort ≠ .type) : Refuses schema k v (.passed failure)
  | invalid {validator : Validator} {failure : Failure}
      (htype : k.checker.isInstance v (.anyOf .tuple k.types) = .ok true)
      (hk : k.validator? = some validator) (h : validator v = .error failure)
      (hinvalid : failure.sort = .value ∨ failure.sort = .lookup) :
      Refuses schema k v (.rejected (k.labelIn schema) v failure.message)
  | failed {validator : Validator} {failure : Failure}
      (htype : k.checker.isInstance v (.anyOf .tuple k.types) = .ok true)
      (hk : k.validator? = some validator) (h : validator v = .error failure)
      (hinvalid : ¬ (failure.sort = .value ∨ failure.sort = .lookup)) :
      Refuses schema k v (.passed failure)

variable {schema : Text} {k : Key} {v : Value} {fault : ConfigFault}

theorem isInvalid_iff {failure : Failure} :
    failure.isInvalid = true ↔ failure.sort = .value ∨ failure.sort = .lookup := by
  rw [Failure.isInvalid, Bool.or_eq_true, beq_iff_eq, beq_iff_eq]

/-- The check of a value that has one of the types of a key with a validator. -/
theorem validate_of_validator {validator : Validator}
    (htype : k.checker.isInstance v (.anyOf .tuple k.types) = .ok true)
    (hk : k.validator? = some validator) : k.validate schema v =
      (validator v).mapError fun failure =>
        if failure.isInvalid then .rejected (k.labelIn schema) v failure.message
        else .passed failure := by
  rw [validate, validateType, TypeChecker.isInstance_eq_true_iff.mp htype, hk]
  rfl

theorem takes_iff : k.Takes v ↔ k.validate schema v = .ok () := by
  rw [validate_ok_iff, ← TypeChecker.isInstance_eq_true_iff]
  exact ⟨fun h => ⟨h.type, h.validator⟩, fun h => ⟨h.1, h.2⟩⟩

theorem Takes.validate (h : k.Takes v) : k.validate schema v = .ok () := takes_iff.mp h

theorem Refuses.validate (h : k.Refuses schema v fault) : k.validate schema v = .error fault := by
  cases h with
  | wrongType h htype =>
    rw [Key.validate, validateType, h, mapError_error, if_pos htype]
    rfl
  | unchecked h htype =>
    rw [Key.validate, validateType, h, mapError_error, if_neg htype]
    rfl
  | invalid htype hk h hinvalid =>
    rw [validate_of_validator htype hk, h, mapError_error, if_pos (isInvalid_iff.mpr hinvalid)]
  | failed htype hk h hinvalid =>
    rw [validate_of_validator htype hk, h, mapError_error, if_neg (mt isInvalid_iff.mp hinvalid)]

/-- **A value is taken or refused.** -/
theorem takes_or_refuses (schema : Text) (k : Key) (v : Value) :
    k.Takes v ∨ ∃ fault, k.Refuses schema v fault := by
  cases hcheck : k.checker.checkType v (.anyOf .tuple k.types) with
  | error failure =>
    by_cases hsort : failure.sort = .type
    · exact .inr ⟨_, .wrongType hcheck hsort⟩
    · exact .inr ⟨_, .unchecked hcheck hsort⟩
  | ok _ =>
    have htype := TypeChecker.isInstance_eq_true_iff.mpr hcheck
    cases hk : k.validator? with
    | none => exact .inl ⟨htype, fun validator h => by cases hk.symm.trans h⟩
    | some validator =>
      cases hvalidator : validator v with
      | ok _ =>
        refine .inl ⟨htype, fun validator' h => ?_⟩
        cases hk.symm.trans h
        exact hvalidator
      | error failure =>
        by_cases hinvalid : failure.sort = .value ∨ failure.sort = .lookup
        · exact .inr ⟨_, .invalid htype hk hvalidator hinvalid⟩
        · exact .inr ⟨_, .failed htype hk hvalidator hinvalid⟩

end Key

/-! ## Entries -/

namespace Schema

/-- An entry has a key of the schema that takes its value. -/
def Takes (s : Schema) (e : Value × Value) : Prop :=
  ∃ name k, e.1 = .str name ∧ s.find? name = some k ∧ k.Takes e.2

/-- Why an entry is not taken. -/
inductive Offends (s : Schema) : Value × Value → ConfigFault → Prop
  | notAllowed {key v : Value} (hkey : ∀ name, key = .str name → s.find? name = none)
      (hhash : ∃ d, key.digest? = .ok d) : Offends s (key, v) (.notAllowed s.name key s.allowed)
  | unhashable {key v : Value} {u : Value.Unhashable} (h : key.digest? = .error u) :
      Offends s (key, v) (.unhashable u)
  | refused {name : Text} {k : Key} {v : Value} {fault : ConfigFault} (hk : s.find? name = some k)
      (h : k.Refuses s.name v fault) : Offends s (.str name, v) fault

variable {s : Schema} {e : Value × Value} {es : List (Value × Value)} {fault : ConfigFault}

theorem lookup_str {name : Text} {k : Key} (h : s.find? name = some k) :
    s.lookup (.str name) = .ok k := by
  rw [lookup, h]

theorem lookup_of_ne_str {key : Value} (h : ∀ name, key ≠ .str name) : s.lookup key =
    match key.digest? with
    | .ok _ => .error (.notAllowed s.name key s.allowed)
    | .error u => .error (.unhashable u) := by
  cases key with
  | str name => exact absurd rfl (h name)
  | _ => rfl

theorem Takes.validateKey (h : s.Takes e) : s.validateKey e.1 e.2 = .ok () := by
  obtain ⟨name, k, hname, hk, htakes⟩ := h
  rw [Schema.validateKey, hname, lookup_str hk, ok_bind, htakes.validate]

theorem Offends.validateKey (h : s.Offends e fault) : s.validateKey e.1 e.2 = .error fault := by
  cases h with
  | @notAllowed key v hkey hhash =>
    have hlookup : s.lookup key = .error (.notAllowed s.name key s.allowed) := by
      by_cases hstr : ∃ name, key = .str name
      · obtain ⟨name, rfl⟩ := hstr
        rw [lookup, hkey name rfl]
      · obtain ⟨d, hd⟩ := hhash
        rw [lookup_of_ne_str fun name hname => hstr ⟨name, hname⟩, hd]
    rw [Schema.validateKey, hlookup, error_bind]
  | @unhashable key v u h =>
    have hlookup : s.lookup key = .error (.unhashable u) := by
      rw [lookup_of_ne_str, h]
      rintro name rfl
      cases h
    rw [Schema.validateKey, hlookup, error_bind]
  | refused hk h => rw [Schema.validateKey, lookup_str hk, ok_bind, h.validate]

/-- **An entry is taken or offends.** -/
theorem takes_or_offends (s : Schema) (e : Value × Value) :
    s.Takes e ∨ ∃ fault, s.Offends e fault := by
  obtain ⟨key, v⟩ := e
  by_cases hkey : ∃ name k, key = .str name ∧ s.find? name = some k
  · obtain ⟨name, k, rfl, hk⟩ := hkey
    rcases k.takes_or_refuses s.name v with htakes | ⟨fault, hrefuses⟩
    · exact .inl ⟨name, k, rfl, hk, htakes⟩
    · exact .inr ⟨fault, .refused hk hrefuses⟩
  · cases hhash : key.digest? with
    | error u => exact .inr ⟨_, .unhashable hhash⟩
    | ok d =>
      refine .inr ⟨_, .notAllowed (fun name hname => ?_) ⟨d, hhash⟩⟩
      cases hfind : s.find? name with
      | none => rfl
      | some k => exact absurd ⟨name, k, hname, hfind⟩ hkey

theorem Takes.not_offends (h : s.Takes e) : ¬ s.Offends e fault := by
  intro hoffends
  cases h.validateKey.symm.trans hoffends.validateKey

theorem validateKey_ok_iff : s.validateKey e.1 e.2 = .ok () ↔ s.Takes e := by
  refine ⟨fun h => ?_, Takes.validateKey⟩
  rcases s.takes_or_offends e with htakes | ⟨fault, hoffends⟩
  · exact htakes
  · cases h.symm.trans hoffends.validateKey

theorem validateEntries_ok_iff_takes : s.validateEntries es = .ok () ↔ ∀ e ∈ es, s.Takes e := by
  rw [validateEntries_ok_iff]
  exact forall₂_congr fun e _ => validateKey_ok_iff

/-- **The check of all entries** fails as the first entry that is not taken. -/
theorem validateEntries_error_iff : s.validateEntries es = .error fault ↔ ∃ before e after,
    es = before ++ e :: after ∧ (∀ e' ∈ before, s.Takes e') ∧ s.Offends e fault := by
  induction es with
  | nil =>
    refine ⟨fun h => (by cases h), ?_⟩
    rintro ⟨before, e, after, h, -⟩
    exact absurd h.symm (List.append_ne_nil_of_right_ne_nil _ (List.cons_ne_nil _ _))
  | cons e es ih =>
    rw [validateEntries]
    rcases s.takes_or_offends e with htakes | ⟨fault', hoffends⟩
    · rw [htakes.validateKey, ok_bind, ih]
      constructor
      · rintro ⟨before, e', after, rfl, hbefore, hoffends⟩
        exact ⟨e :: before, e', after, rfl, List.forall_mem_cons.mpr ⟨htakes, hbefore⟩, hoffends⟩
      · rintro ⟨before, e', after, hsplit, hbefore, hoffends⟩
        cases before with
        | nil =>
          cases hsplit
          exact absurd hoffends htakes.not_offends
        | cons b before =>
          cases hsplit
          exact ⟨before, e', after, rfl, (List.forall_mem_cons.mp hbefore).2, hoffends⟩
    · rw [hoffends.validateKey, error_bind]
      constructor
      · intro h
        cases h
        exact ⟨[], e, es, rfl, List.forall_mem_nil _, hoffends⟩
      · rintro ⟨before, e', after, hsplit, hbefore, hoffends'⟩
        cases before with
        | nil =>
          cases hsplit
          exact hoffends.validateKey.symm.trans hoffends'.validateKey
        | cons b before =>
          cases hsplit
          have htakes := hbefore e List.mem_cons_self
          exact absurd hoffends htakes.not_offends

end Schema

namespace Config

variable {c : Config} {a : Addition}

/-- **An addition of entries** is the check of those that remain, and then their layer. -/
theorem add_of_isMapping (ha : a.IsMapping) : c.add a =
    c.kind.schema.validateEntries a.remaining >>= fun _ =>
      .ok { c with layers := putLayer a.layer (textEntries a.remaining) a.fallback c.layers } := by
  obtain ⟨v, hsaid, hentries⟩ := ha.exists_entriesOf
  rw [add, outcome_addLayer, hsaid, ok_bind, Schema.validate, hentries]
  dsimp only
  cases c.kind.schema.validateEntries a.remaining <;> rfl

/-- **An addition succeeds** if all its entries are taken. -/
theorem add_ok_iff (ha : a.IsMapping) :
    (∃ c', c.add a = .ok c') ↔ ∀ e ∈ a.remaining, c.kind.schema.Takes e := by
  rw [add_of_isMapping ha, ← Schema.validateEntries_ok_iff_takes]
  cases c.kind.schema.validateEntries a.remaining with
  | ok _ => exact ⟨fun _ => rfl, fun _ => ⟨_, rfl⟩⟩
  | error fault => exact ⟨fun ⟨_, h⟩ => (by cases h), fun h => by cases h⟩

/-- **An addition fails** as its first entry that is not taken. -/
theorem add_error_iff (ha : a.IsMapping) {fault : ConfigFault} : c.add a = .error fault ↔
    ∃ before e after, a.remaining = before ++ e :: after ∧
      (∀ e' ∈ before, c.kind.schema.Takes e') ∧ c.kind.schema.Offends e fault := by
  rw [add_of_isMapping ha, ← Schema.validateEntries_error_iff]
  cases c.kind.schema.validateEntries a.remaining with
  | ok _ => exact ⟨fun h => (by cases h), fun h => by cases h⟩
  | error fault' => exact ⟨fun h => by cases h; rfl, fun h => by cases h; rfl⟩

end Config

end Btf
