import Btf.Hint.Standard
import Btf.Proofs.Hint

/-!
# The standard checker is lawful

The standard checker does what is documented of checkers. Its verdict on a value with parts comes to an
end at the first part that fails, and only a literal can keep it from coming to an end at all.

* `Hint.Fits`, `Hint.Defined`: when a value fits, and hints that every check comes to an end with;
* `Hint.checkItems_fits_iff`, `Hint.checkEntries_fits_iff`, `Hint.verdictEach_fits_iff`,
  `Hint.verdictSome_fits_iff`: parts of values, and alternatives;
* `Hint.Plain.defined`: a check against a plain hint comes to an end;
* `Hint.fits_listOf`, `Hint.fits_dictOf`, `Hint.fits_tupleOf`, `Hint.fits_union`: values with parts;
* **`TypeChecker.lawful_standard`**: the laws.
-/

namespace Btf

/-! ## Parts of values -/

namespace Verdict

theorem andThen_fits_iff {x : Verdict} {next : Unit → Verdict} :
    x.andThen next = .fits ↔ x = .fits ∧ next () = .fits := by
  cases x <;> simp [andThen]

theorem inside_fits_iff {x : Verdict} {part : Part} : x.inside part = .fits ↔ x = .fits := by
  cases x <;> simp [inside]

theorem require_fits_iff {p : Bool} {m : Mismatch} : require p m = .fits ↔ p = true := by
  cases p <;> simp [require]

theorem require_ne_undefined {p : Bool} {m : Mismatch} (failure : Failure) :
    require p m ≠ .undefined failure := by
  cases p <;> simp [require]

theorem inside_ne_undefined {x : Verdict} {part : Part} (h : ∀ failure, x ≠ .undefined failure)
    (failure : Failure) : x.inside part ≠ .undefined failure := by
  cases x with
  | fits | fails => exact nofun
  | undefined failure' => exact absurd rfl (h failure')

theorem andThen_ne_undefined {x : Verdict} {next : Unit → Verdict}
    (h : ∀ failure, x ≠ .undefined failure) (hnext : ∀ failure, next () ≠ .undefined failure)
    (failure : Failure) : x.andThen next ≠ .undefined failure := by
  cases x with
  | fits => exact hnext failure
  | fails => exact nofun
  | undefined failure' => exact absurd rfl (h failure')

end Verdict

namespace Hint

open Verdict

/-- A value fits a hint. -/
def Fits (strategy : CheckStrategy) (h : Hint) (v : Value) : Prop := h.verdict strategy v = .fits

/-- Every check against a hint comes to an end. -/
def Defined (strategy : CheckStrategy) (h : Hint) : Prop :=
  ∀ v failure, h.verdict strategy v ≠ .undefined failure

attribute [local simp] verdict verdictEach verdictSome

variable {strategy : CheckStrategy} {h a b : Hint} {hs as bs : List Hint} {v w : Value}

theorem checkItems_fits_iff {check : Value → Verdict} {i : Nat} {vs : List Value} :
    checkItems check i vs = .fits ↔ ∀ v ∈ vs, check v = .fits := by
  induction vs generalizing i with
  | nil => simp [checkItems]
  | cons v vs ih => rw [checkItems, andThen_fits_iff, inside_fits_iff, ih, List.forall_mem_cons]

theorem checkItems_ne_undefined {check : Value → Verdict} {vs : List Value}
    (h : ∀ v failure, check v ≠ .undefined failure) (i : Nat) (failure : Failure) :
    checkItems check i vs ≠ .undefined failure := by
  induction vs generalizing i failure with
  | nil => exact nofun
  | cons v vs ih => exact andThen_ne_undefined (inside_ne_undefined (h v)) (ih (i + 1)) failure

theorem checkEntries_fits_iff {key value : Value → Verdict} {es : List (Value × Value)} :
    checkEntries key value es = .fits ↔ ∀ e ∈ es, key e.1 = .fits ∧ value e.2 = .fits := by
  induction es with
  | nil => simp [checkEntries]
  | cons e es ih =>
    rw [checkEntries, andThen_fits_iff, andThen_fits_iff, inside_fits_iff, inside_fits_iff, ih,
      List.forall_mem_cons, and_assoc]

theorem checkEntries_ne_undefined {key value : Value → Verdict} {es : List (Value × Value)}
    (hkey : ∀ v failure, key v ≠ .undefined failure)
    (hvalue : ∀ v failure, value v ≠ .undefined failure) (failure : Failure) :
    checkEntries key value es ≠ .undefined failure := by
  induction es generalizing failure with
  | nil => exact nofun
  | cons e es ih =>
    exact andThen_ne_undefined (inside_ne_undefined (hkey e.1))
      (andThen_ne_undefined (inside_ne_undefined (hvalue e.2)) ih) failure

/-- Values fit the hints at the same places, as far as there are both. -/
theorem verdictEach_fits_iff {i : Nat} {vs : List Value} (hlength : vs.length = hs.length) :
    verdictEach strategy hs i vs = .fits ↔ List.Forall₂ (Fits strategy) hs vs := by
  induction hs generalizing i vs with
  | nil =>
    rw [List.eq_nil_of_length_eq_zero hlength]
    simp
  | cons h hs ih =>
    obtain ⟨v, vs, rfl⟩ := List.exists_cons_of_length_eq_add_one hlength
    rw [verdictEach, andThen_fits_iff, inside_fits_iff, ih (Nat.succ.inj hlength),
      List.forall₂_cons]
    rfl

theorem verdictEach_ne_undefined (h : ∀ a ∈ hs, a.Defined strategy) (i : Nat) (vs : List Value)
    (failure : Failure) : verdictEach strategy hs i vs ≠ .undefined failure := by
  induction hs generalizing i vs failure with
  | nil => simp
  | cons a hs ih =>
    obtain ⟨ha, hrest⟩ := List.forall_mem_cons.mp h
    cases vs with
    | nil => simp
    | cons v vs =>
      rw [verdictEach]
      exact andThen_ne_undefined (inside_ne_undefined (ha v)) (ih hrest (i + 1) vs) failure

/-- A value fits one of some alternatives, if the check of each comes to an end. -/
theorem verdictSome_fits_iff (h : ∀ a ∈ hs, a.Defined strategy)
    (failures : List (Text × Mismatch)) :
    verdictSome strategy hs v failures = .fits ↔ ∃ a ∈ hs, a.Fits strategy v := by
  induction hs generalizing failures with
  | nil => simp
  | cons a hs ih =>
    obtain ⟨ha, hrest⟩ := List.forall_mem_cons.mp h
    rw [verdictSome, List.exists_mem_cons_iff]
    cases hverdict : a.verdict strategy v with
    | fits => exact ⟨fun _ => .inl hverdict, fun _ => rfl⟩
    | fails m =>
      have hnot : ¬ a.Fits strategy v := fun hfits => by
        cases hverdict.symm.trans hfits
      rw [or_iff_right hnot]
      exact ih hrest _
    | undefined failure => exact absurd hverdict (ha v failure)

theorem verdictSome_ne_undefined (h : ∀ a ∈ hs, a.Defined strategy) (v : Value)
    (failures : List (Text × Mismatch)) (failure : Failure) :
    verdictSome strategy hs v failures ≠ .undefined failure := by
  induction hs generalizing failures with
  | nil => simp
  | cons a hs ih =>
    obtain ⟨ha, hrest⟩ := List.forall_mem_cons.mp h
    rw [verdictSome]
    cases hverdict : a.verdict strategy v with
    | fits => exact nofun
    | fails m => exact ih hrest _
    | undefined failure' => exact absurd hverdict (ha v failure')

/-! ## Checks that come to an end -/

theorem defined_of_atomName (hname : h.atomName?.isSome) : h.Defined strategy := by
  intro v failure
  cases h with
  | listOf | dictOf | tupleOf | union | literal => cases hname
  | anyDict =>
    rw [verdict]
    exact require_ne_undefined failure
  | _ => cases v <;> simp

/-- **A check against a plain hint comes to an end.** -/
theorem Plain.defined (strategy : CheckStrategy) (h : a.Plain) : a.Defined strategy := by
  induction h with
  | atom hname => exact defined_of_atomName hname
  | @listOf a _ ih =>
    intro v failure
    cases v with
    | list vs =>
      rw [verdict]
      exact checkItems_ne_undefined ih 0 failure
    | _ => simp
  | dictOf _ _ ihkey ihvalue =>
    intro v failure
    rw [verdict]
    cases v.entries? with
    | some es => exact checkEntries_ne_undefined ihkey ihvalue failure
    | none => exact nofun
  | tupleOf _ ih =>
    intro v failure
    cases v with
    | tuple vs =>
      rw [verdict]
      split
      · exact require_ne_undefined failure
      · split
        · exact verdictEach_ne_undefined ih 0 vs failure
        · exact nofun
    | _ => simp
  | union _ ih =>
    intro v failure
    rw [verdict]
    exact verdictSome_ne_undefined ih v [] failure

/-! ## Values with parts -/

/-- Of a list the elements count that the strategy tells. -/
theorem fits_listOf : (listOf a).Fits strategy v ↔
    ∃ vs, v = .list vs ∧ ∀ w ∈ strategy.items vs, a.Fits strategy w := by
  cases v with
  | list vs =>
    rw [Fits, verdict]
    simp only [checkItems_fits_iff, Value.list.injEq, exists_eq_left']
    exact Iff.rfl
  | _ => simp [Fits]

theorem fits_dictOf : (dictOf a b).Fits strategy v ↔ ∃ es, v.entries? = some es ∧
    ∀ e ∈ strategy.items es, a.Fits strategy e.1 ∧ b.Fits strategy e.2 := by
  rw [Fits, verdict]
  cases v.entries? with
  | some es =>
    simp only [checkEntries_fits_iff, Option.some.injEq, exists_eq_left']
    exact Iff.rfl
  | none => simp

/-- A tuple fits element by element, also if it has none. -/
theorem fits_tupleOf : (tupleOf as).Fits strategy v ↔
    ∃ vs, v = .tuple vs ∧ List.Forall₂ (Fits strategy) as vs := by
  cases v with
  | tuple vs =>
    rw [Fits, verdict]
    simp only [Value.tuple.injEq, exists_eq_left']
    by_cases hlength : vs.length = as.length
    · rw [if_pos hlength, ← verdictEach_fits_iff (i := 0) hlength]
      cases as with
      | nil =>
        rw [List.eq_nil_of_length_eq_zero hlength]
        simp [require]
      | cons => rfl
    · have hnot : ¬ List.Forall₂ (Fits strategy) as vs := fun h => hlength h.length_eq.symm
      rw [if_neg hlength, iff_false_right hnot]
      cases as with
      | nil => cases vs <;> simp_all [require]
      | cons => exact nofun
  | _ => simp [Fits]

theorem fits_union (h : ∀ a ∈ as, a.Defined strategy) :
    (union as).Fits strategy v ↔ ∃ a ∈ as, a.Fits strategy v := by
  rw [Fits, verdict]
  exact verdictSome_fits_iff h []

end Hint

namespace TypeChecker

variable {strategy : CheckStrategy} {policy : ReferencePolicy}

/-- What passes is what fits, whatever the policy. -/
theorem standard_passes : standard.Passes policy strategy = Hint.Fits strategy := by
  funext h v
  rw [eq_iff_iff]
  unfold Passes standard Hint.Fits
  dsimp only
  cases h.verdict strategy v <;> simp

section lawful_standard

attribute [local simp] standard_passes Hint.Fits Hint.verdict

/-- **The standard checker is lawful.** -/
theorem lawful_standard : standard.Lawful where
  ends policy strategy h v hplain := by
    unfold Passes standard
    dsimp only
    cases hverdict : h.verdict strategy v with
    | fits => exact .inl rfl
    | fails m => exact .inr ⟨_, rfl⟩
    | undefined failure => exact absurd hverdict (hplain.defined strategy v failure)
  any _ _ _ := rfl
  null _ _ v := by cases v <;> simp
  nullType _ _ v := by cases v <;> simp
  int _ _ v := by cases v <;> simp
  str _ _ v := by cases v <;> simp
  bool _ _ v := by cases v <;> simp
  float _ _ v := by cases v <;> simp
  bytes _ _ v := by cases v <;> simp
  anyList _ _ v := by cases v <;> simp
  anyDict _ _ v := by
    rw [standard_passes, Hint.Fits, Hint.verdict, Verdict.require_fits_iff,
      Option.isSome_iff_exists]
  listOf _ _ a v := by rw [standard_passes, Hint.fits_listOf]
  dictOf _ _ a b v := by rw [standard_passes, Hint.fits_dictOf]
  tupleOf _ _ as v := by rw [standard_passes, Hint.fits_tupleOf]
  union _ strategy as v hplain := by
    rw [standard_passes, Hint.fits_union fun a ha => (hplain a ha).defined strategy]

end lawful_standard

end TypeChecker

end Btf
