import Btf.Proofs.Record.InPlace

/-!
# Records are written once

Whatever is done to the attributes of a record, one after the other and whether it fails or not, its
fields stay as they were made, its identifier is what was first set, and no comparison and no hash tells
the record from what it was.

* `RecordStep`, `Record.perform`, `Record.attempt`: an attribute is set or deleted, which may fail;
* `Record.Keeps`: what stays, **`Record.keeps_attempt`** after one step and **`Record.keeps_attemptAll`**
  after any steps;
* `Record.id_attemptAll`: the identifier is the first one that was set;
* `Object.Filled.attempt`, `Object.Filled.attemptAll`: the same steps in place;
* `Value.Alike`, `Record.same_congr`, `Record.sameHash_congr`, `Record.distinct_congr`: values that are
  told apart by nothing, and collections of such records;
* **`Record.make_writeOnce`**: a record that is made is written once.
-/

namespace Btf

/-- What is done to an attribute of a record. -/
inductive RecordStep
  | assign (attr : Text) (v : Value)
  | delete (attr : Text)

namespace RecordStep

/-- The identifier that a step sets on a record without one. -/
def identifier? : RecordStep → Option Value
  | assign _ .null => none
  | assign attr v => if attr = Text.ofString "id" then some v else none
  | delete _ => none

/-- The first value other than null that is given to the identifier; null if there is none. -/
def identifier (steps : List RecordStep) : Value := (steps.findSome? identifier?).getD .null

theorem identifier?_assign {v : Value} (h : v ≠ .null) (attr : Text) :
    (assign attr v).identifier? = if attr = Text.ofString "id" then some v else none := by
  cases v with
  | null => exact absurd rfl h
  | _ => rfl

theorem identifier_cons_of_none {s : RecordStep} (h : s.identifier? = none) (steps : List RecordStep) :
    identifier (s :: steps) = identifier steps := by
  rw [identifier, List.findSome?_cons, h]
  rfl

end RecordStep

/-! ## Steps that may fail -/

namespace Record

/-- The outcome of a step. -/
def perform (r : Record) : RecordStep → Except RecordFault Record
  | .assign attr v => r.set attr v
  | .delete attr => r.delete attr

/-- The record after a step, which may have failed. -/
def attempt (r : Record) (s : RecordStep) : Record :=
  match r.perform s with
  | .ok q => q
  | .error _ => r

def attemptAll (r : Record) (steps : List RecordStep) : Record := steps.foldl attempt r

variable {r q p : Record} {s : RecordStep} {attr : Text} {v : Value} {fault : RecordFault}

theorem attempt_of_ok (h : r.perform s = .ok q) : r.attempt s = q := by rw [attempt, h]

theorem attempt_of_error (h : r.perform s = .error fault) : r.attempt s = r := by rw [attempt, h]

theorem attemptAll_append (r : Record) (steps later : List RecordStep) :
    r.attemptAll (steps ++ later) = (r.attemptAll steps).attemptAll later := List.foldl_append

/-! ## What stays -/

/-- A record later on: it has the same fields, and the same identifier if it had one; and all that could
be read can still be read and is the same, apart from the identifier and from the attribute that shows
all further ones. -/
structure Keeps (r q : Record) : Prop where
  cls : q.cls = r.cls
  fields : q.fields = r.fields
  id : r.id = .null ∨ q.id = r.id
  get : ∀ {attr a}, attr ≠ Text.ofString "id" → attr ≠ Text.ofString extrasName →
    r.get attr = .ok a → q.get attr = .ok a

theorem Keeps.refl (r : Record) : r.Keeps r := ⟨rfl, rfl, .inr rfl, fun _ _ h => h⟩

theorem Keeps.trans (h : r.Keeps q) (h' : q.Keeps p) : r.Keeps p where
  cls := h'.cls.trans h.cls
  fields := h'.fields.trans h.fields
  id := by
    obtain hid | hid := h.id
    · exact .inl hid
    · exact h'.id.imp (fun hq => hid.symm.trans hq) (fun hp => hp.trans hid)
  get hid hextras hread := h'.get hid hextras (h.get hid hextras hread)

theorem keeps_set (h : r.set attr v = .ok q) : r.Keeps q := by
  obtain ⟨hawaits, rfl⟩ | ⟨habsent, -, rfl⟩ := set_ok_iff.mp h
  · obtain ⟨-, -, hid⟩ := awaits_iff.mp hawaits
    exact ⟨rfl, rfl, .inl hid, fun hne _ hread => (get_withId_of_ne hne v).trans hread⟩
  · refine ⟨rfl, rfl, .inr rfl, fun {other a} _ hextras hread => ?_⟩
    have hne : other ≠ attr := fun heq => habsent.not_readable (heq ▸ ⟨a, hread⟩)
    exact (get_withExtra_of_ne hne (fun heq => absurd heq hextras) v).trans hread

/-- **What stays after one step**, whether or not it fails. -/
theorem keeps_attempt (r : Record) (s : RecordStep) : r.Keeps (r.attempt s) := by
  cases s with
  | delete attr => exact .refl r
  | assign attr v =>
    cases h : r.perform (.assign attr v) with
    | ok q =>
      rw [attempt_of_ok h]
      exact keeps_set h
    | error fault =>
      rw [attempt_of_error h]
      exact .refl r

/-- **What stays after any steps**, by induction on them. -/
theorem keeps_attemptAll (r : Record) (steps : List RecordStep) : r.Keeps (r.attemptAll steps) := by
  induction steps generalizing r with
  | nil => exact .refl r
  | cons s steps ih => exact (r.keeps_attempt s).trans (ih (r.attempt s))

theorem Complete.keeps (h : r.Complete) (hkeeps : r.Keeps q) : q.Complete := by
  rw [Complete, hkeeps.fields, hkeeps.cls]
  exact h

theorem Keeps.field (h : r.Keeps q) (f : String) : q.field f = r.field f := by
  rw [Record.field, Record.field, field?, field?, h.cls, h.fields]

/-! ## The identifier -/

theorem id_attempt_of_none (hid : r.id = .null) (h : s.identifier? = none) :
    (r.attempt s).id = .null := by
  cases s with
  | delete attr => exact hid
  | assign attr v =>
    cases hset : r.perform (.assign attr v) with
    | error fault =>
      rw [attempt_of_error hset]
      exact hid
    | ok q =>
      rw [attempt_of_ok hset]
      obtain ⟨hawaits, rfl⟩ | ⟨-, -, rfl⟩ := set_ok_iff.mp hset
      · obtain ⟨-, hattr, -⟩ := awaits_iff.mp hawaits
        by_contra hv
        rw [RecordStep.identifier?_assign hv, if_pos hattr] at h
        cases h
      · exact hid

theorem id_attempt_of_some (hhas : r.cls.hasId = true) (hid : r.id = .null)
    (h : s.identifier? = some v) : (r.attempt s).id = v ∧ v ≠ .null := by
  cases s with
  | delete attr => cases h
  | assign attr w =>
    have hw : w ≠ .null := by
      rintro rfl
      cases h
    rw [RecordStep.identifier?_assign hw] at h
    split at h
    · next hattr =>
      cases h
      have hset : r.perform (.assign attr v) = .ok { r with id := v } :=
        set_of_awaits (awaits_iff.mpr ⟨hhas, hattr, hid⟩)
      rw [attempt_of_ok hset]
      exact ⟨rfl, hw⟩
    · cases h

/-- **The identifier is the first one that was set**, by induction on the steps: as long as none sets it,
it stays null. -/
theorem id_attemptAll (hhas : r.cls.hasId = true) (hid : r.id = .null) (steps : List RecordStep) :
    (r.attemptAll steps).id = RecordStep.identifier steps := by
  induction steps generalizing r with
  | nil => exact hid
  | cons s steps ih =>
    cases hs : s.identifier? with
    | none =>
      have hcls : (r.attempt s).cls = r.cls := (r.keeps_attempt s).cls
      rw [RecordStep.identifier_cons_of_none hs]
      exact ih (hcls ▸ hhas) (id_attempt_of_none hid hs)
    | some v =>
      obtain ⟨hv, hne⟩ := id_attempt_of_some hhas hid hs
      have hlater := ((r.attempt s).keeps_attemptAll steps).id.resolve_left fun h => hne (hv ▸ h)
      rw [RecordStep.identifier, List.findSome?_cons, hs, Option.getD_some, ← hv]
      exact hlater

end Record

/-! ## Steps in place -/

namespace Object

/-- A step in place. -/
def perform : RecordStep → Change Unit
  | .assign attr v => assign attr v
  | .delete attr => remove attr

/-- The object after a step in place, which may have failed. -/
def attempt (o : Object) (s : RecordStep) : Object := ((perform s).apply o).2

def attemptAll (o : Object) (steps : List RecordStep) : Object := steps.foldl attempt o

variable {o : Object} {r : Record} {s : RecordStep} {fault : RecordFault}

/-- **A step that fails** leaves the very same object. -/
theorem apply_perform_of_error (h : o.Filled) (hs : o.record.perform s = .error fault) :
    (perform s).apply o = (.error fault, o) := by
  cases s with
  | assign attr v => exact apply_assign_of_error h hs
  | delete attr =>
    cases hs
    rfl

theorem apply_perform_of_ok (h : o.Filled) (hs : o.record.perform s = .ok r) :
    (perform s).apply o = (.ok (), o.attempt s) ∧ (o.attempt s).Filled ∧ (o.attempt s).record = r := by
  cases s with
  | assign attr v =>
    obtain ⟨o', happly, hfilled, hrecord⟩ := apply_assign_of_ok h hs
    have hattempt : o.attempt (.assign attr v) = o' := congrArg Prod.snd happly
    rw [hattempt]
    exact ⟨happly, hfilled, hrecord⟩
  | delete attr => cases hs

/-- **A step in place** is the step of the record that the object holds. -/
theorem Filled.attempt (h : o.Filled) (s : RecordStep) :
    (o.attempt s).Filled ∧ (o.attempt s).record = o.record.attempt s := by
  cases hs : o.record.perform s with
  | ok r =>
    rw [Record.attempt_of_ok hs]
    exact (apply_perform_of_ok h hs).2
  | error fault =>
    rw [Record.attempt_of_error hs, Object.attempt, apply_perform_of_error h hs]
    exact ⟨h, rfl⟩

/-- **Any steps in place**, by induction on them. -/
theorem Filled.attemptAll (h : o.Filled) (steps : List RecordStep) :
    (o.attemptAll steps).Filled ∧ (o.attemptAll steps).record = o.record.attemptAll steps := by
  induction steps generalizing o with
  | nil => exact ⟨h, rfl⟩
  | cons s steps ih =>
    obtain ⟨hfilled, hrecord⟩ := h.attempt s
    have hrest := ih hfilled
    rw [hrecord] at hrest
    exact hrest

/-- All that a step in place does: it fails and leaves the very same object, or it does not fail. -/
theorem Filled.apply_perform (h : o.Filled) (s : RecordStep) :
    (perform s).apply o = match o.record.perform s with
      | .ok _ => (.ok (), o.attempt s)
      | .error fault => (.error fault, o) := by
  cases hs : o.record.perform s with
  | ok r => exact (apply_perform_of_ok h hs).1
  | error fault => exact apply_perform_of_error h hs

end Object

/-! ## Values that nothing tells apart -/

/-- No comparison with a value on either side and no hash tells two values apart. -/
structure Value.Alike (v w : Value) : Prop where
  left : ∀ u : Value, v.equal u = w.equal u
  right : ∀ u : Value, u.equal v = u.equal w
  digest : v.digest? = w.digest?

theorem Value.Alike.refl (v : Value) : v.Alike v := ⟨fun _ => rfl, fun _ => rfl, rfl⟩

/-- Identifiers are neither compared nor hashed. -/
theorem Value.alike_record (cls : RecordClass) (i j : Value) (vs : List Value) :
    Alike (.record cls i vs) (.record cls j vs) where
  left u := by cases u <;> rfl
  right u := by cases u <;> rfl
  digest := by rw [digest?, digest?]

namespace Record

variable {r q : Record} {rs qs : List Record}

theorem Keeps.alike (h : r.Keeps q) : q.value.Alike r.value := by
  rw [value, value, h.cls, h.fields]
  exact Value.alike_record ..

/-- Collections of records that nothing tells apart one by one. -/
abbrev AllAlike (qs rs : List Record) : Prop := List.Forall₂ (fun q r => q.value.Alike r.value) qs rs

theorem AllAlike.refl (rs : List Record) : AllAlike rs rs :=
  List.forall₂_same.mpr fun r _ => Value.Alike.refl r.value

theorem allAlike_append_cons (h : q.value.Alike r.value) (before behind : List Record) :
    AllAlike (before ++ q :: behind) (before ++ r :: behind) :=
  List.rel_append (AllAlike.refl before) (.cons h (AllAlike.refl behind))

theorem AllAlike.getElem? (h : AllAlike qs rs) (i : Nat) :
    Option.Rel (fun q r => q.value.Alike r.value) qs[i]? rs[i]? := by
  induction h generalizing i with
  | nil => exact .none
  | cons hqr _ ih =>
    cases i with
    | zero => exact .some hqr
    | succ i => exact ih i

/-- What is asked of two of them has the same answer, as long as it does not tell their values apart. -/
theorem AllAlike.both {β : Type} (h : AllAlike qs rs) {f : Value → Value → β}
    (hf : ∀ {v v' w w' : Value}, v.Alike v' → w.Alike w' → f v w = f v' w') (otherwise : β)
    (i j : Nat) :
    (match qs[i]?, qs[j]? with
      | some q, some q' => f q.value q'.value
      | _, _ => otherwise) =
    match rs[i]?, rs[j]? with
      | some r, some r' => f r.value r'.value
      | _, _ => otherwise := by
  have hi := h.getElem? i
  have hj := h.getElem? j
  generalize qs[i]? = qi, rs[i]? = ri at hi ⊢
  generalize qs[j]? = qj, rs[j]? = rj at hj ⊢
  cases hi with
  | none => rfl
  | some hi =>
    cases hj with
    | none => rfl
    | some hj => exact hf hi hj

/-- No comparison in collections tells them apart, -/
theorem same_congr (h : AllAlike qs rs) : same qs = same rs := by
  funext i j
  exact congrArg (i == j || ·) (h.both (fun hv hw => (hv.left _).trans (hw.right _)) false i j)

/-- nor do hashes, -/
theorem sameHash_congr (h : AllAlike qs rs) : sameHash qs = sameHash rs := by
  funext i j
  refine h.both (f := fun v w => do
    let a ← v.digest?
    let b ← w.digest?
    return i == j || a.equal b) (fun hv hw => ?_) (return false) i j
  rw [hv.digest, hw.digest]

theorem mapM_digest_congr (h : AllAlike qs rs) :
    (qs.mapM fun q => q.value.digest?) = rs.mapM fun r => r.value.digest? := by
  induction h with
  | nil => rfl
  | cons hqr _ ih => rw [List.mapM_cons, List.mapM_cons, hqr.digest, ih]

theorem any_equal_congr {v w : Value} {vs ws : List Value} (h : v.Alike w)
    (hs : List.Forall₂ Value.Alike vs ws) : vs.any v.equal = ws.any w.equal := by
  induction hs with
  | nil => rfl
  | cons hvw _ ih => rw [List.any_cons, List.any_cons, h.left, hvw.right, ih]

/-- and as many of them are different. -/
theorem distinct_congr (h : AllAlike qs rs) : distinct qs = distinct rs := by
  -- What has been kept so far is alike as well, so that the same records are kept.
  have hfold : ∀ {vs ws : List Value}, List.Forall₂ Value.Alike vs ws →
      List.Forall₂ Value.Alike
        (qs.foldl (fun kept q => if kept.any q.value.equal then kept else kept ++ [q.value]) vs)
        (rs.foldl (fun kept r => if kept.any r.value.equal then kept else kept ++ [r.value]) ws) := by
    induction h with
    | nil => exact fun hvs => hvs
    | cons hqr _ ih =>
      intro vs ws hvs
      rw [List.foldl_cons, List.foldl_cons, any_equal_congr hqr hvs]
      refine ih ?_
      split
      · exact hvs
      · exact List.rel_append hvs (.cons hqr .nil)
  rw [distinct, distinct, mapM_digest_congr h, (hfold .nil).length_eq]

end Record

/-! ## Records that are made -/

theorem forall₂_of_mapM_eq_ok {ε α β : Type} {f : α → Except ε β} {xs : List α} {ys : List β}
    (h : xs.mapM f = .ok ys) : List.Forall₂ (fun x y => f x = .ok y) xs ys := by
  induction xs generalizing ys with
  | nil =>
    cases h
    exact .nil
  | cons x xs ih =>
    rw [List.mapM_cons] at h
    obtain ⟨y, hy, h⟩ := bind_eq_ok.mp h
    obtain ⟨ys, hys, h⟩ := bind_eq_ok.mp h
    cases h
    exact .cons hy (ih hys)

theorem exists_lookup_zip {α : Type} {R : String → α → Prop} {ks : List String} {vs : List α}
    {k : String} (h : List.Forall₂ R ks vs) (hk : k ∈ ks) :
    ∃ v, (ks.zip vs).lookup k = some v ∧ R k v := by
  induction h with
  | nil => cases hk
  | @cons k' v' ks vs hR _ ih =>
    rw [List.zip_cons_cons, List.lookup_cons]
    cases heq : k == k' with
    | true =>
      refine ⟨v', rfl, ?_⟩
      rw [eq_of_beq heq]
      exact hR
    | false => exact ih ((List.mem_cons.mp hk).resolve_left (ne_of_beq_false heq))

namespace Record

variable {cls : RecordClass} {arguments : List (String × Value)} {r : Record}

/-- **What is made** has the class that was asked for and keeps what was given for its fields, and its
identifier has not been set. -/
theorem made (h : make cls arguments = .ok r) : r.cls = cls ∧ r.id = .null ∧
    List.Forall₂ (fun f v => kept f ((arguments.lookup f).getD (.bool false)) = .ok v) cls.keyFields
      r.fields := by
  unfold make at h
  split at h
  · cases h
  · split at h
    · obtain ⟨vs, hvs, h⟩ := bind_eq_ok.mp h
      cases h
      exact ⟨rfl, rfl, forall₂_of_mapM_eq_ok hvs⟩
    · cases h

/-- **A record that is made is written once.** Filled as a new object, it goes through any steps, in each
of which an attribute of any name is set or deleted, and then

* in place everything is read as from the record, and a step that fails leaves the very same object;
* each field is what was given for it, and the identifier is the first one that was set;
* all that can be read stays as it is whatever comes later, and every deletion fails;
* nothing tells the record from what it was, be it alone or among others. -/
theorem make_writeOnce (h : make cls arguments = .ok r) :
    ∃ o : Object, (Object.initialise cls arguments).apply { cls } = (.ok (), o) ∧
      ∀ steps : List RecordStep,
        (∀ attr, (o.attemptAll steps).read attr = (r.attemptAll steps).get attr) ∧
        (∀ s, (Object.perform s).apply (o.attemptAll steps) = match (r.attemptAll steps).perform s with
          | .ok _ => (.ok (), o.attemptAll (steps ++ [s]))
          | .error fault => (.error fault, o.attemptAll steps)) ∧
        (∀ f ∈ cls.fields, f ≠ "id" →
          ∃ v, kept f ((arguments.lookup f).getD (.bool false)) = .ok v ∧
            (r.attemptAll steps).get f = .ok (.value v)) ∧
        (cls.hasId = true →
          (r.attemptAll steps).get "id" = .ok (.value (RecordStep.identifier steps))) ∧
        (∀ later, (r.attemptAll steps).Keeps (r.attemptAll (steps ++ later))) ∧
        (∀ attr, (r.attemptAll steps).perform (.delete attr) = .error (.readOnly cls attr)) ∧
        (r.attemptAll steps).value.Alike r.value ∧
        ∀ before behind,
          same (before ++ r.attemptAll steps :: behind) = same (before ++ r :: behind) ∧
          sameHash (before ++ r.attemptAll steps :: behind) = sameHash (before ++ r :: behind) ∧
          distinct (before ++ r.attemptAll steps :: behind) = distinct (before ++ r :: behind) := by
  obtain ⟨o, hinit, hfilled, rfl⟩ := Object.apply_initialise_of_ok h
  obtain ⟨hcls, hid, hfields⟩ := made h
  refine ⟨o, hinit, fun steps => ?_⟩
  have hkeeps := o.record.keeps_attemptAll steps
  have hnow : (o.record.attemptAll steps).cls = cls := hkeeps.cls.trans hcls
  obtain ⟨hfilled', hrecord⟩ := hfilled.attemptAll steps
  have halike := hkeeps.alike
  have hall := allAlike_append_cons halike
  refine ⟨fun attr => ?_, fun s => ?_, fun f hf hne => ?_, fun hhas => ?_, fun later => ?_, fun attr => ?_,
    halike, fun before behind => ⟨same_congr (hall _ _), sameHash_congr (hall _ _),
      distinct_congr (hall _ _)⟩⟩
  · rw [hfilled'.read_eq_get, hrecord]
  · have hlast : o.attemptAll (steps ++ [s]) = (o.attemptAll steps).attempt s := List.foldl_append
    rw [hfilled'.apply_perform, hrecord, hlast]
  · have hkey : f ∈ cls.keyFields :=
      (RecordClass.mem_fields_iff.mp hf).resolve_left fun hid => hne hid.2
    obtain ⟨v, hlookup, hv⟩ := exists_lookup_zip hfields hkey
    have hfield : o.record.field f = v := by rw [field, field?, hcls, hlookup, Option.getD_some]
    refine ⟨v, hv, ?_⟩
    rw [get_field (o.complete_record.keeps hkeeps) (hnow ▸ hkey), hkeeps.field, hfield]
  · rw [get_id (hnow ▸ hhas), id_attemptAll (hcls ▸ hhas) hid]
  · rw [attemptAll_append]
    exact keeps_attemptAll _ later
  · rw [← hnow]
    rfl

/-- A structure without members, whose identifier is set twice and whose size is set and deleted. -/
theorem make_writeOnce_struct :
    let given : List (String × Value) := [("name", "pair"), ("size", .int 8), ("members", .list [])]
    let steps : List RecordStep := [.assign "id" .null, .assign "id" (.int 3), .assign "id" (.int 4),
      .assign "size" (.int 9), .delete "size"]
    ∃ r o, make (.type .struct) given = .ok r ∧
      (Object.initialise (.type .struct) given).apply { cls := .type .struct } = (.ok (), o) ∧
      (o.attemptAll steps).read "id" = .ok (.value (.int 3)) ∧
      (o.attemptAll steps).read "size" = .ok (.value (.int 8)) ∧
      distinct [r.attemptAll steps, r] = distinct [r, r] := by
  intro given steps
  have hmake : make (.type .struct) given =
      .ok ⟨.type .struct, .null, ["pair", .int 8, .bool false, .tuple []], []⟩ := rfl
  obtain ⟨o, hinit, hsteps⟩ := make_writeOnce hmake
  obtain ⟨hread, -, hfields, hid, -, -, -, hothers⟩ := hsteps steps
  obtain ⟨v, hv, hsize⟩ := hfields "size" (by decide) (by decide)
  cases hv
  exact ⟨_, o, hmake, hinit, (hread "id").trans (hid rfl), (hread "size").trans hsize,
    (hothers [] _).2.2⟩

end Record

end Btf
