import Mathlib.Data.List.Forall2
import Btf.Hint.Checker
import Btf.Proofs.Outcome

/-!
# What hints without literals accept

Of a checker it is documented what a hint says of a value and its elements, one level at a time, and that
a value is found not to match where it does not pass. Only a literal can keep a check from coming to such
an end. So a union accepts what some of its alternatives accepts; the alternatives that it drops, since
they say the same as another one, accept nothing that this does not.

* `Hint.Plain`: hints without literals;
* `TypeChecker.Passes`, **`TypeChecker.Lawful`**: what is documented of a checker;
* **`TypeChecker.Lawful.passes_of_alike`**: what a hint accepts, every hint that says the same accepts;
* `Hint.mem_distinct`, `Hint.exists_mem_distinct`: which alternatives a union has;
* **`TypeChecker.Lawful.passes_unionOf`**: a union accepts what some of its hints accepts;
* `TypeChecker.isInstance_eq_true_iff`, `TypeChecker.isInstance_eq_false_iff`: a check as a question;
* `TypeChecker.isInstance_one_iff_passes`, `TypeChecker.Lawful.isInstance_one_eq_false_iff`: the answer
  for a hint;
* **`TypeChecker.Lawful.isInstance_anyOf_iff`**: the answer for a collection of hints.
-/

namespace Btf

/-- A hint without literals. -/
inductive Hint.Plain : Hint → Prop
  | atom {h : Hint} (name : h.atomName?.isSome) : Plain h
  | listOf {a : Hint} (element : Plain a) : Plain (.listOf a)
  | dictOf {a b : Hint} (key : Plain a) (value : Plain b) : Plain (.dictOf a b)
  | tupleOf {as : List Hint} (elements : ∀ a ∈ as, Plain a) : Plain (.tupleOf as)
  | union {as : List Hint} (alternatives : ∀ a ∈ as, Plain a) : Plain (.union as)

namespace TypeChecker

/-- A value passes the check against a hint. -/
def Passes (checker : TypeChecker) (policy : ReferencePolicy) (strategy : CheckStrategy) (h : Hint)
    (v : Value) : Prop :=
  checker.check v h policy strategy = .ok ()

/-- **What is documented of a checker.** A check against a hint without literals ends with a value that
passes or does not match. A truth value is a whole number, too, and both are floating-point numbers; of
lists and mappings those elements count that the strategy tells, and of tuples all of them. -/
structure Lawful (checker : TypeChecker) : Prop where
  ends : ∀ policy strategy {h : Hint} (v : Value), h.Plain → checker.Passes policy strategy h v ∨
    ∃ message, checker.check v h policy strategy = .error (.mismatch message)
  any : ∀ policy strategy (v : Value), checker.Passes policy strategy .any v
  null : ∀ policy strategy (v : Value), checker.Passes policy strategy .null v ↔ v = .null
  nullType : ∀ policy strategy (v : Value), checker.Passes policy strategy .nullType v ↔ v = .null
  int : ∀ policy strategy (v : Value), checker.Passes policy strategy .int v ↔
    (∃ n, v = .int n) ∨ ∃ b, v = .bool b
  str : ∀ policy strategy (v : Value), checker.Passes policy strategy .str v ↔ ∃ t, v = .str t
  bool : ∀ policy strategy (v : Value), checker.Passes policy strategy .bool v ↔ ∃ b, v = .bool b
  float : ∀ policy strategy (v : Value), checker.Passes policy strategy .float v ↔
    (∃ x, v = .float x) ∨ (∃ n, v = .int n) ∨ ∃ b, v = .bool b
  bytes : ∀ policy strategy (v : Value), checker.Passes policy strategy .bytes v ↔
    ∃ bs, v = .bytes bs
  anyList : ∀ policy strategy (v : Value), checker.Passes policy strategy .anyList v ↔
    ∃ vs, v = .list vs
  anyDict : ∀ policy strategy (v : Value), checker.Passes policy strategy .anyDict v ↔
    ∃ es, v.entries? = some es
  listOf : ∀ policy strategy (a : Hint) (v : Value), checker.Passes policy strategy (.listOf a) v ↔
    ∃ vs, v = .list vs ∧ ∀ w ∈ strategy.items vs, checker.Passes policy strategy a w
  dictOf : ∀ policy strategy (a b : Hint) (v : Value),
    checker.Passes policy strategy (.dictOf a b) v ↔ ∃ es, v.entries? = some es ∧
      ∀ e ∈ strategy.items es, checker.Passes policy strategy a e.1 ∧
        checker.Passes policy strategy b e.2
  tupleOf : ∀ policy strategy (as : List Hint) (v : Value),
    checker.Passes policy strategy (.tupleOf as) v ↔
      ∃ vs, v = .tuple vs ∧ List.Forall₂ (checker.Passes policy strategy) as vs
  union : ∀ policy strategy {as : List Hint} (v : Value), (∀ a ∈ as, a.Plain) →
    (checker.Passes policy strategy (.union as) v ↔ ∃ a ∈ as, checker.Passes policy strategy a v)

end TypeChecker

namespace Hint

attribute [local simp] alike alikeEach alikeSome

variable {h a b : Hint} {hs as bs : List Hint} {v w : Value}

/-! ## Hints that say the same -/

theorem alikeSome_iff : alikeSome as bs = true ↔ ∀ a ∈ as, ∃ b ∈ bs, alike a b = true := by
  induction as with
  | nil => simp
  | cons a as ih => rw [alikeSome, Bool.and_eq_true, List.any_eq_true, ih, List.forall_mem_cons]

theorem alikeEach_iff :
    alikeEach as bs = true ↔ List.Forall₂ (fun a b => alike a b = true) as bs := by
  induction as generalizing bs with
  | nil => cases bs <;> simp
  | cons a as ih =>
    cases bs with
    | nil => simp
    | cons b bs => rw [alikeEach, Bool.and_eq_true, ih, List.forall₂_cons]

/-- Only a hint itself says the same as one without parts. -/
theorem eq_of_alike_atom (hname : a.atomName?.isSome) (h : alike a b = true) : a = b := by
  cases a with
  | listOf | dictOf | tupleOf | union | literal => cases hname
  | _ => cases b <;> first | rfl | simp [atomName?] at h

/-- Elements that pass against some hints pass against others that say the same and accept what these
do. -/
theorem forall₂_of_alikeEach {Passes : Hint → Value → Prop} {vs : List Value}
    (h : alikeEach as bs = true) (hpasses : List.Forall₂ Passes as vs)
    (hkeep : ∀ a ∈ as, ∀ b ∈ bs, ∀ v, alike a b = true → Passes a v → Passes b v) :
    List.Forall₂ Passes bs vs := by
  rw [alikeEach_iff] at h
  induction h generalizing vs with
  | nil =>
    cases hpasses
    exact .nil
  | cons hab _ ih =>
    cases hpasses with
    | cons hv hrest =>
      refine .cons (hkeep _ List.mem_cons_self _ List.mem_cons_self _ hab hv) (ih hrest ?_)
      exact fun a ha b hb => hkeep a (List.mem_cons_of_mem _ ha) b (List.mem_cons_of_mem _ hb)

namespace Plain

theorem of_listOf (h : (Hint.listOf a).Plain) : a.Plain := by
  cases h with
  | atom hname => cases hname
  | listOf h => exact h

theorem of_dictOf (h : (Hint.dictOf a b).Plain) : a.Plain ∧ b.Plain := by
  cases h with
  | atom hname => cases hname
  | dictOf ha hb => exact ⟨ha, hb⟩

theorem of_tupleOf (h : (Hint.tupleOf as).Plain) : ∀ a ∈ as, a.Plain := by
  cases h with
  | atom hname => cases hname
  | tupleOf h => exact h

theorem of_union (h : (Hint.union as).Plain) : ∀ a ∈ as, a.Plain := by
  cases h with
  | atom hname => cases hname
  | union h => exact h

theorem inner (h : a.Plain) : a.inner.Plain := by
  cases a with
  | null => exact .atom rfl
  | _ => exact h

theorem alternatives (h : a.Plain) : ∀ b ∈ a.alternatives, b.Plain := by
  cases a with
  | union => exact h.of_union
  | _ => exact List.forall_mem_singleton.mpr h

end Plain

/-! ## Alternatives -/

/-- Keep a hint unless one that says the same has been kept. -/
def keep (kept : List Hint) (h : Hint) : List Hint :=
  if kept.any (alike h) then kept else kept ++ [h]

theorem mem_keep_of_mem {kept : List Hint} (h : a ∈ kept) (b : Hint) : a ∈ keep kept b := by
  unfold keep
  split
  · exact h
  · exact List.mem_append_left _ h

theorem mem_of_mem_keep {kept : List Hint} (h : a ∈ keep kept b) : a ∈ kept ∨ a = b := by
  unfold keep at h
  split at h
  · exact .inl h
  · rw [List.mem_append, List.mem_singleton] at h
    exact h

theorem exists_mem_keep (kept : List Hint) (h : Hint) :
    ∃ b ∈ keep kept h, h = b ∨ alike h b = true := by
  unfold keep
  split
  · next hany =>
    obtain ⟨b, hb, halike⟩ := List.any_eq_true.mp hany
    exact ⟨b, hb, .inr halike⟩
  · exact ⟨h, List.mem_append_right _ (List.mem_singleton_self h), .inl rfl⟩

theorem mem_foldl_keep_of_mem {kept : List Hint} (h : a ∈ kept) : a ∈ hs.foldl keep kept := by
  induction hs generalizing kept with
  | nil => exact h
  | cons b hs ih => exact ih (mem_keep_of_mem h b)

theorem mem_of_mem_foldl_keep {kept : List Hint} (h : a ∈ hs.foldl keep kept) :
    a ∈ kept ∨ a ∈ hs := by
  induction hs generalizing kept with
  | nil => exact .inl h
  | cons b hs ih =>
    rcases ih h with hkept | hrest
    · rcases mem_of_mem_keep hkept with hkept | rfl
      · exact .inl hkept
      · exact .inr List.mem_cons_self
    · exact .inr (List.mem_cons_of_mem _ hrest)

theorem exists_mem_foldl_keep (kept : List Hint) (h : a ∈ hs) :
    ∃ b ∈ hs.foldl keep kept, a = b ∨ alike a b = true := by
  induction hs generalizing kept with
  | nil => cases h
  | cons c hs ih =>
    rcases List.mem_cons.mp h with rfl | hrest
    · obtain ⟨b, hb, hsame⟩ := exists_mem_keep kept a
      have hkept : b ∈ hs.foldl keep (keep kept a) := mem_foldl_keep_of_mem hb
      exact ⟨b, hkept, hsame⟩
    · exact ih (keep kept c) hrest

/-- **The distinct ones of some hints** are among them, and each of them says the same as one of
these. -/
theorem mem_distinct (h : a ∈ distinct hs) : a ∈ hs :=
  (mem_of_mem_foldl_keep h).resolve_left List.not_mem_nil

theorem exists_mem_distinct (h : a ∈ hs) : ∃ b ∈ distinct hs, a = b ∨ alike a b = true :=
  exists_mem_foldl_keep [] h

/-! ## Unions -/

theorem unionOf_eq (hs : List Hint) :
    (∃ h, distinct ((hs.map inner).flatMap alternatives) = [h] ∧ unionOf hs = h) ∨
      unionOf hs = .union (distinct ((hs.map inner).flatMap alternatives)) := by
  unfold unionOf
  split
  · next h heq => exact .inl ⟨h, heq, rfl⟩
  · exact .inr rfl

section unionOf

variable (hplain : ∀ a ∈ hs, a.Plain)
include hplain

theorem plain_of_mem_flatMap : ∀ a ∈ (hs.map inner).flatMap alternatives, a.Plain := by
  intro a ha
  obtain ⟨b, hb, hab⟩ := List.mem_flatMap.mp ha
  obtain ⟨c, hc, rfl⟩ := List.mem_map.mp hb
  exact (hplain c hc).inner.alternatives a hab

theorem plain_unionOf : (unionOf hs).Plain := by
  have hdistinct : ∀ a ∈ distinct ((hs.map inner).flatMap alternatives), a.Plain := fun a ha =>
    plain_of_mem_flatMap hplain a (mem_distinct ha)
  rcases unionOf_eq hs with ⟨a, heq, hunion⟩ | hunion
  · rw [hunion]
    exact hdistinct a (heq ▸ List.mem_singleton_self a)
  · rw [hunion]
    exact .union hdistinct

end unionOf

theorem firstUnhashable?_eq_none (h : ∀ a ∈ hs, a.unhashable? = none) :
    firstUnhashable? hs = none := by
  induction hs with
  | nil => rfl
  | cons a hs ih =>
    obtain ⟨ha, hrest⟩ := List.forall_mem_cons.mp h
    rw [firstUnhashable?, ha]
    exact ih hrest

/-- Only a literal has no hash. -/
theorem Plain.unhashable?_eq_none (h : a.Plain) : a.unhashable? = none := by
  induction h with
  | @atom a hname =>
    cases a with
    | listOf | dictOf | tupleOf | union | literal => cases hname
    | _ => rfl
  | listOf _ ih => rw [unhashable?, ih]
  | dictOf _ _ ihkey ihvalue => rw [unhashable?, ihkey, ihvalue]
  | tupleOf _ ih => rw [unhashable?, Hint.firstUnhashable?_eq_none ih]
  | union _ ih => rw [unhashable?, Hint.firstUnhashable?_eq_none ih]

/-- **Plain hints have a union**, if there are any. -/
theorem union?_eq_ok (h : ∀ a ∈ hs, a.Plain) (hne : hs ≠ []) : union? hs = .ok (unionOf hs) := by
  have hnone := firstUnhashable?_eq_none fun a ha => (h a ha).unhashable?_eq_none
  unfold union?
  split
  · exact absurd rfl hne
  · next hsome => cases hnone.symm.trans hsome
  · rfl

end Hint

namespace TypeChecker

open Hint

variable {checker : TypeChecker} {policy : ReferencePolicy} {strategy : CheckStrategy}
variable {h a b : Hint} {hs as bs : List Hint} {v : Value}

/-! ## Unions of a lawful checker -/

namespace Lawful

variable (hchecker : checker.Lawful)
include hchecker

/-- **What a hint accepts, every hint that says the same accepts.** -/
theorem passes_of_alike (ha : a.Plain) (hb : b.Plain) (h : alike a b = true)
    (hv : checker.Passes policy strategy a v) : checker.Passes policy strategy b v := by
  induction ha generalizing b v with
  | atom hname => exact eq_of_alike_atom hname h ▸ hv
  | listOf _ ih =>
    cases b with
    | listOf b =>
      rw [alike] at h
      obtain ⟨vs, rfl, hvs⟩ := (hchecker.listOf ..).mp hv
      exact (hchecker.listOf ..).mpr ⟨vs, rfl, fun w hw => ih hb.of_listOf h (hvs w hw)⟩
    | _ => simp [alike] at h
  | dictOf _ _ ihkey ihvalue =>
    cases b with
    | dictOf c d =>
      rw [alike, Bool.and_eq_true] at h
      obtain ⟨hc, hd⟩ := hb.of_dictOf
      obtain ⟨es, hentries, hes⟩ := (hchecker.dictOf ..).mp hv
      exact (hchecker.dictOf ..).mpr ⟨es, hentries, fun e he =>
        ⟨ihkey hc h.1 (hes e he).1, ihvalue hd h.2 (hes e he).2⟩⟩
    | _ => simp [alike] at h
  | tupleOf _ ih =>
    cases b with
    | tupleOf bs =>
      rw [alike] at h
      obtain ⟨vs, rfl, hvs⟩ := (hchecker.tupleOf ..).mp hv
      exact (hchecker.tupleOf ..).mpr ⟨vs, rfl, forall₂_of_alikeEach h hvs fun a ha b hmem v =>
        ih a ha (hb.of_tupleOf b hmem)⟩
    | _ => simp [alike] at h
  | union hplain ih =>
    cases b with
    | union bs =>
      rw [alike, Bool.and_eq_true, alikeSome_iff] at h
      obtain ⟨a, ha, hpasses⟩ := (hchecker.union _ _ _ hplain).mp hv
      obtain ⟨b, hmem, hab⟩ := h.2 a ha
      exact (hchecker.union _ _ _ hb.of_union).mpr
        ⟨b, hmem, ih a ha (hb.of_union b hmem) hab hpasses⟩
    | _ => simp [alike] at h

theorem exists_distinct_passes_iff (h : ∀ a ∈ hs, a.Plain) :
    (∃ a ∈ distinct hs, checker.Passes policy strategy a v) ↔
      ∃ a ∈ hs, checker.Passes policy strategy a v := by
  constructor
  · rintro ⟨a, ha, hv⟩
    exact ⟨a, mem_distinct ha, hv⟩
  · rintro ⟨a, ha, hv⟩
    obtain ⟨b, hb, rfl | hsame⟩ := exists_mem_distinct ha
    · exact ⟨a, hb, hv⟩
    · exact ⟨b, hb, hchecker.passes_of_alike (h a ha) (h b (mem_distinct hb)) hsame hv⟩

/-- Null and its type are the same where there is nothing but values. -/
theorem passes_inner :
    checker.Passes policy strategy a.inner v ↔ checker.Passes policy strategy a v := by
  cases a with
  | null => exact (hchecker.nullType policy strategy v).trans (hchecker.null policy strategy v).symm
  | _ => exact Iff.rfl

theorem exists_alternatives_passes_iff (h : a.Plain) :
    (∃ b ∈ a.alternatives, checker.Passes policy strategy b v) ↔
      checker.Passes policy strategy a v := by
  cases a with
  | union => exact (hchecker.union _ _ _ h.of_union).symm
  | _ => simp [Hint.alternatives]

/-- **A union accepts what some of its hints accepts**, however it is written. -/
theorem passes_unionOf (hplain : ∀ a ∈ hs, a.Plain) :
    checker.Passes policy strategy (unionOf hs) v ↔
      ∃ a ∈ hs, checker.Passes policy strategy a v := by
  have hflatMap := plain_of_mem_flatMap hplain
  have hflat : (∃ a ∈ (hs.map inner).flatMap alternatives, checker.Passes policy strategy a v) ↔
      ∃ a ∈ hs, checker.Passes policy strategy a v := by
    constructor
    · rintro ⟨a, ha, hv⟩
      obtain ⟨b, hb, hab⟩ := List.mem_flatMap.mp ha
      obtain ⟨c, hc, rfl⟩ := List.mem_map.mp hb
      have hinner := (hchecker.exists_alternatives_passes_iff (hplain c hc).inner).mp ⟨a, hab, hv⟩
      exact ⟨c, hc, hchecker.passes_inner.mp hinner⟩
    · rintro ⟨c, hc, hv⟩
      obtain ⟨a, ha, hpasses⟩ := (hchecker.exists_alternatives_passes_iff (hplain c hc).inner).mpr
        (hchecker.passes_inner.mpr hv)
      exact ⟨a, List.mem_flatMap.mpr ⟨c.inner, List.mem_map_of_mem hc, ha⟩, hpasses⟩
  rw [← hflat, ← hchecker.exists_distinct_passes_iff hflatMap]
  rcases unionOf_eq hs with ⟨a, heq, hunion⟩ | hunion
  · rw [hunion, heq]
    simp
  · rw [hunion]
    exact hchecker.union _ _ _ fun a ha => hflatMap a (mem_distinct ha)

end Lawful

/-! ## Checks as questions -/

variable {e : Expected} {c : HintCollection}

/-- A check of its own is what is asked. -/
theorem isInstance_eq_true_iff :
    checker.isInstance v e = .ok true ↔ checker.checkType v e = .ok () := by
  unfold isInstance
  cases checker.checkType v e with
  | ok _ => simp
  | error failure =>
    dsimp only
    split <;> simp

/-- **The answer is no** if and only if the check fails since the value has the wrong type. -/
theorem isInstance_eq_false_iff : checker.isInstance v e = .ok false ↔
    ∃ failure, checker.checkType v e = .error failure ∧ failure.sort = .type := by
  unfold isInstance
  cases checker.checkType v e with
  | ok _ => simp
  | error failure =>
    dsimp only
    split <;> simp [*]

theorem checkType_one : checker.checkType v (.one h) =
    (checker.check v h .error .allItems).mapError failureOf := rfl

theorem checkType_empty :
    checker.checkType v (.anyOf c []) = .error (.ofType Hint.UnionFault.empty.message) := rfl

/-- A collection that has hints is checked as their union. -/
theorem checkType_anyOf (hplain : ∀ a ∈ hs, a.Plain) (hne : hs ≠ []) :
    checker.checkType v (.anyOf c hs) = checker.checkType v (.one (unionOf (hs.map inner))) := by
  have hinner : ∀ a ∈ hs.map inner, a.Plain :=
    List.forall_mem_map.mpr fun a ha => (hplain a ha).inner
  rw [checkType, Expected.hint?, union?_eq_ok hinner (mt List.map_eq_nil_iff.mp hne)]
  rfl

theorem isInstance_one_iff_passes :
    checker.isInstance v (.one h) = .ok true ↔ checker.Passes .error .allItems h v := by
  rw [isInstance_eq_true_iff, checkType_one, mapError_eq_ok]
  exact Iff.rfl

theorem isInstance_congr {e' : Expected} (h : checker.checkType v e = checker.checkType v e') :
    checker.isInstance v e = checker.isInstance v e' := by
  rw [isInstance, isInstance, h]

namespace Lawful

variable (hchecker : checker.Lawful)
include hchecker

/-- Where the answer is not yes, it is no. -/
theorem isInstance_one_eq_false_iff (hplain : h.Plain) :
    checker.isInstance v (.one h) = .ok false ↔ ¬ checker.Passes .error .allItems h v := by
  rw [isInstance_eq_false_iff, checkType_one]
  rcases hchecker.ends .error .allItems v hplain with hpasses | ⟨message, hmismatch⟩
  · have hcheck : checker.check v h .error .allItems = .ok () := hpasses
    simp [hcheck, hpasses]
  · have hnot : ¬ checker.Passes .error .allItems h v := fun hpasses => by
      cases hmismatch.symm.trans hpasses
    rw [hmismatch, mapError_error]
    exact iff_of_true ⟨_, rfl, rfl⟩ hnot

/-- **A collection accepts what some of its hints accepts**, which is nothing if it is empty. -/
theorem isInstance_anyOf_iff (hplain : ∀ a ∈ hs, a.Plain) :
    (checker.isInstance v (.anyOf c hs) = .ok true ↔
      ∃ a ∈ hs, checker.Passes .error .allItems a v) ∧
    (checker.isInstance v (.anyOf c hs) = .ok false ↔
      ¬ ∃ a ∈ hs, checker.Passes .error .allItems a v) := by
  cases hs with
  | nil =>
    rw [isInstance_eq_true_iff, isInstance_eq_false_iff, checkType_empty]
    simp [Failure.ofType]
  | cons a hs =>
    have hinner : ∀ b ∈ (a :: hs).map inner, b.Plain :=
      List.forall_mem_map.mpr fun b hb => (hplain b hb).inner
    have hunion : checker.Passes .error .allItems (unionOf ((a :: hs).map inner)) v ↔
        ∃ b ∈ a :: hs, checker.Passes .error .allItems b v := by
      rw [hchecker.passes_unionOf hinner]
      simp only [List.mem_map, exists_exists_and_eq_and, hchecker.passes_inner]
    rw [isInstance_congr (checkType_anyOf hplain (List.cons_ne_nil a hs)), isInstance_one_iff_passes,
      hchecker.isInstance_one_eq_false_iff (plain_unionOf hinner), hunion]
    exact ⟨Iff.rfl, Iff.rfl⟩

end Lawful

end TypeChecker

end Btf
