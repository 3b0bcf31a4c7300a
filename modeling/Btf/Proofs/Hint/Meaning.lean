import Btf.Proofs.Hint.Standard

/-!
# What hints mean

A hint is written from types of values, from types of lists, mappings and tuples with hints for their
parts, and from alternatives. What it means is told by recursion on how it is written. The hint that is
made of it has its alternatives flattened and without repetitions, and with a lawful checker it accepts
the very same values; a collection of hints accepts what some of them means, whatever their order and
however often each stands there.

* `HintForm`, `HintForm.hint`: hints as they are written, and what is made of them;
* `HintForm.Admits`: **what a hint means**;
* `HintForm.Made`: a hint that accepts what a written one means;
* `TypeChecker.Lawful.exists_made`, `TypeChecker.Lawful.exists_allMade`: every hint that is written is made
  such, by induction on how it is written;
* **`TypeChecker.Lawful.isInstance_iff_admits`**: checks against hints and against collections of them.
-/

namespace Btf

/-- A hint as it is written. A union has at least one alternative. -/
inductive HintForm
  | any
  | null
  | int
  | str
  | bool
  | float
  | bytes
  | anyList
  | anyDict
  | list (element : HintForm)
  | dict (key value : HintForm)
  | tuple (elements : List HintForm)
  | optional (form : HintForm)
  | union (first : HintForm) (others : List HintForm)

namespace HintForm

mutual

/-- The hint that is made of what is written. -/
def hint : HintForm → Except Hint.UnionFault Hint
  | any => .ok .any
  | null => .ok .null
  | int => .ok .int
  | str => .ok .str
  | bool => .ok .bool
  | float => .ok .float
  | bytes => .ok .bytes
  | anyList => .ok .anyList
  | anyDict => .ok .anyDict
  | list element => do return Hint.list (← hint element)
  | dict key value => do return Hint.dict (← hint key) (← hint value)
  | tuple elements => do return Hint.tuple (← hints elements)
  | optional form => do Hint.optional? (← hint form)
  | union first others => do Hint.union? ((← hint first) :: (← hints others))

/-- The hints that are made, one after the other. -/
def hints : List HintForm → Except Hint.UnionFault (List Hint)
  | [] => .ok []
  | f :: fs => do return (← hint f) :: (← hints fs)

end

mutual

/-- **What a hint means**: a truth value is a whole number, too, and both are floating-point numbers. -/
def Admits : HintForm → Value → Prop
  | any, _ => True
  | null, v => v = .null
  | int, v => (∃ n, v = .int n) ∨ ∃ b, v = .bool b
  | str, v => ∃ t, v = .str t
  | bool, v => ∃ b, v = .bool b
  | float, v => (∃ x, v = .float x) ∨ (∃ n, v = .int n) ∨ ∃ b, v = .bool b
  | bytes, v => ∃ bs, v = .bytes bs
  | anyList, v => ∃ vs, v = .list vs
  | anyDict, v => ∃ es, v.entries? = some es
  | list element, v => ∃ vs, v = .list vs ∧ ∀ w ∈ vs, Admits element w
  | dict key value, v => ∃ es, v.entries? = some es ∧ ∀ e ∈ es, Admits key e.1 ∧ Admits value e.2
  | tuple elements, v => ∃ vs, v = .tuple vs ∧ AdmitsEach elements vs
  | optional form, v => Admits form v ∨ v = .null
  | union first others, v => Admits first v ∨ AdmitsSome others v

/-- There are as many values as hints, and each is one of those that the hint at its place means. -/
def AdmitsEach : List HintForm → List Value → Prop
  | [], vs => vs = []
  | f :: fs, vs => ∃ w ws, Admits f w ∧ AdmitsEach fs ws ∧ vs = w :: ws

/-- A value is one of those that some hint means. -/
def AdmitsSome : List HintForm → Value → Prop
  | [], _ => False
  | f :: fs, v => Admits f v ∨ AdmitsSome fs v

end

variable {checker : TypeChecker} {f : HintForm} {fs : List HintForm} {h : Hint} {hs : List Hint}
variable {v : Value}

theorem admitsEach_iff {vs : List Value} : AdmitsEach fs vs ↔ List.Forall₂ Admits fs vs := by
  induction fs generalizing vs with
  | nil => simp [AdmitsEach]
  | cons f fs ih => simp only [AdmitsEach, ih, List.forall₂_cons_left_iff]

theorem admitsSome_iff : AdmitsSome fs v ↔ ∃ f ∈ fs, f.Admits v := by
  induction fs with
  | nil => simp [AdmitsSome]
  | cons f fs ih => rw [AdmitsSome, ih, List.exists_mem_cons_iff]

/-- A hint that accepts what a written one means, if all elements count. -/
structure Made (checker : TypeChecker) (f : HintForm) (h : Hint) : Prop where
  plain : h.Plain
  passes : ∀ v, checker.Passes .error .allItems h v ↔ f.Admits v

theorem exists_passes_iff (h : List.Forall₂ (Made checker) fs hs) :
    (∃ a ∈ hs, checker.Passes .error .allItems a v) ↔ ∃ f ∈ fs, f.Admits v := by
  induction h with
  | nil => simp
  | cons hmade _ ih => rw [List.exists_mem_cons_iff, List.exists_mem_cons_iff, ih, hmade.passes]

theorem plain_of_made (h : List.Forall₂ (Made checker) fs hs) : ∀ a ∈ hs, a.Plain := by
  induction h with
  | nil => exact List.forall_mem_nil _
  | cons hmade _ ih => exact List.forall_mem_cons.mpr ⟨hmade.plain, ih⟩

theorem forall₂_passes_iff {vs : List Value} (h : List.Forall₂ (Made checker) fs hs) :
    List.Forall₂ (checker.Passes .error .allItems) hs vs ↔ List.Forall₂ Admits fs vs := by
  induction h generalizing vs with
  | nil => simp
  | cons hmade _ ih => simp only [List.forall₂_cons_left_iff, ih, hmade.passes]

end HintForm

/-! ## Every form is made into a hint -/

namespace TypeChecker.Lawful

open HintForm

variable {checker : TypeChecker} {f g : HintForm} {fs : List HintForm} {h k : Hint} {hs : List Hint}

section

variable (hchecker : checker.Lawful)
include hchecker

theorem made_list (hmade : f.Made checker h) : (HintForm.list f).Made checker (Hint.list h) where
  plain := .listOf hmade.plain.inner
  passes v := by
    rw [Hint.list, hchecker.listOf, Admits]
    simp only [CheckStrategy.items, hchecker.passes_inner, hmade.passes]

theorem made_dict (hkey : f.Made checker h) (hvalue : g.Made checker k) :
    (HintForm.dict f g).Made checker (Hint.dict h k) where
  plain := .dictOf hkey.plain.inner hvalue.plain.inner
  passes v := by
    rw [Hint.dict, hchecker.dictOf, Admits]
    simp only [CheckStrategy.items, hchecker.passes_inner, hkey.passes, hvalue.passes]

theorem made_tuple (hmade : List.Forall₂ (Made checker) fs hs) :
    (HintForm.tuple fs).Made checker (Hint.tuple hs) where
  plain := .tupleOf (List.forall_mem_map.mpr fun a ha => (plain_of_made hmade a ha).inner)
  passes v := by
    rw [Hint.tuple, hchecker.tupleOf, Admits]
    simp only [List.forall₂_map_left_iff, hchecker.passes_inner, admitsEach_iff]
    exact exists_congr fun vs => and_congr_right' (forall₂_passes_iff hmade)

/-- The type of null stands beside the hint that null is added to. -/
theorem exists_made_optional (hmade : f.Made checker h) :
    ∃ k, Hint.optional? h = .ok k ∧ (HintForm.optional f).Made checker k := by
  have hplain : ∀ a ∈ [h, .nullType], a.Plain :=
    List.forall_mem_cons.mpr ⟨hmade.plain, List.forall_mem_singleton.mpr (.atom rfl)⟩
  refine ⟨_, Hint.union?_eq_ok hplain (List.cons_ne_nil _ _), Hint.plain_unionOf hplain, fun v => ?_⟩
  rw [hchecker.passes_unionOf hplain, Admits, ← hmade.passes, List.exists_mem_cons_iff,
    List.exists_mem_cons_iff, hchecker.nullType]
  simp

theorem exists_made_union (hmade : List.Forall₂ (Made checker) (f :: fs) hs) :
    ∃ k, Hint.union? hs = .ok k ∧ (HintForm.union f fs).Made checker k := by
  have hplain := plain_of_made hmade
  have hne : hs ≠ [] := by
    rintro rfl
    cases hmade
  refine ⟨_, Hint.union?_eq_ok hplain hne, Hint.plain_unionOf hplain, fun v => ?_⟩
  rw [hchecker.passes_unionOf hplain, exists_passes_iff hmade, Admits, admitsSome_iff,
    List.exists_mem_cons_iff]

end

mutual

/-- **Every hint that is written is made** such that it accepts what is meant. -/
theorem exists_made (hchecker : checker.Lawful) :
    ∀ f : HintForm, ∃ h, f.hint = .ok h ∧ f.Made checker h
  | .any => ⟨_, rfl, .atom rfl, fun v => iff_of_true (hchecker.any _ _ v) (by rw [Admits]; trivial)⟩
  | .null => ⟨_, rfl, .atom rfl, fun v => by rw [hchecker.null, Admits]⟩
  | .int => ⟨_, rfl, .atom rfl, fun v => by rw [hchecker.int, Admits]⟩
  | .str => ⟨_, rfl, .atom rfl, fun v => by rw [hchecker.str, Admits]⟩
  | .bool => ⟨_, rfl, .atom rfl, fun v => by rw [hchecker.bool, Admits]⟩
  | .float => ⟨_, rfl, .atom rfl, fun v => by rw [hchecker.float, Admits]⟩
  | .bytes => ⟨_, rfl, .atom rfl, fun v => by rw [hchecker.bytes, Admits]⟩
  | .anyList => ⟨_, rfl, .atom rfl, fun v => by rw [hchecker.anyList, Admits]⟩
  | .anyDict => ⟨_, rfl, .atom rfl, fun v => by rw [hchecker.anyDict, Admits]⟩
  | .list element => by
    obtain ⟨h, hh, hmade⟩ := hchecker.exists_made element
    exact ⟨_, by rw [hint, hh]; rfl, hchecker.made_list hmade⟩
  | .dict key value => by
    obtain ⟨h, hh, hkey⟩ := hchecker.exists_made key
    obtain ⟨k, hk, hvalue⟩ := hchecker.exists_made value
    exact ⟨_, by rw [hint, hh, hk]; rfl, hchecker.made_dict hkey hvalue⟩
  | .tuple elements => by
    obtain ⟨hs, hhs, hmade⟩ := hchecker.exists_allMade elements
    exact ⟨_, by rw [hint, hhs]; rfl, hchecker.made_tuple hmade⟩
  | .optional form => by
    obtain ⟨h, hh, hmade⟩ := hchecker.exists_made form
    obtain ⟨k, hk, hmade⟩ := hchecker.exists_made_optional hmade
    exact ⟨k, by rw [hint, hh]; exact hk, hmade⟩
  | .union first others => by
    obtain ⟨h, hh, hmade⟩ := hchecker.exists_made first
    obtain ⟨hs, hhs, hothers⟩ := hchecker.exists_allMade others
    obtain ⟨k, hk, hmade⟩ := hchecker.exists_made_union (.cons hmade hothers)
    exact ⟨k, by rw [hint, hh, hhs]; exact hk, hmade⟩

theorem exists_allMade (hchecker : checker.Lawful) :
    ∀ fs : List HintForm, ∃ hs, hints fs = .ok hs ∧ List.Forall₂ (Made checker) fs hs
  | [] => ⟨[], rfl, .nil⟩
  | f :: fs => by
    obtain ⟨h, hh, hmade⟩ := hchecker.exists_made f
    obtain ⟨hs, hhs, hrest⟩ := hchecker.exists_allMade fs
    exact ⟨h :: hs, by rw [hints, hh, hhs]; rfl, .cons hmade hrest⟩

end

/-! ## What is accepted -/

/-- The hints of a collection are made, and it accepts what some of them means. -/
theorem exists_hints (hchecker : checker.Lawful) (fs : List HintForm) :
    ∃ hs, hints fs = .ok hs ∧ (∀ a ∈ hs, a.Plain) ∧ ∀ c v,
      (checker.isInstance v (.anyOf c hs) = .ok true ↔ ∃ f ∈ fs, f.Admits v) ∧
      (checker.isInstance v (.anyOf c hs) = .ok false ↔ ¬ ∃ f ∈ fs, f.Admits v) := by
  obtain ⟨hs, hhs, hmade⟩ := hchecker.exists_allMade fs
  have hplain := plain_of_made hmade
  refine ⟨hs, hhs, hplain, fun c v => ?_⟩
  rw [← exists_passes_iff hmade]
  exact hchecker.isInstance_anyOf_iff hplain

/-- **Checks mean what the hints say**, with every checker that does what is documented. Every hint that is
written is made, and the answer is yes for exactly the values that it means, and no for every other one. A
collection of hints accepts what some of them means, which is what some of them accepts; so it does
whichever collection it is, in any order and with any repetitions, and if it is empty it accepts nothing.
The answer is no exactly where the check fails since the value has the wrong type. -/
theorem isInstance_iff_admits (hchecker : checker.Lawful) :
    (∀ f : HintForm, ∃ h, f.hint = .ok h ∧ ∀ v,
      (checker.isInstance v (.one h) = .ok true ↔ f.Admits v) ∧
      (checker.isInstance v (.one h) = .ok false ↔ ¬ f.Admits v)) ∧
    (∀ fs : List HintForm, ∃ hs, hints fs = .ok hs ∧ ∀ c v,
      (checker.isInstance v (.anyOf c hs) = .ok true ↔ ∃ f ∈ fs, f.Admits v) ∧
      (checker.isInstance v (.anyOf c hs) = .ok false ↔ ¬ ∃ f ∈ fs, f.Admits v) ∧
      (checker.isInstance v (.anyOf c hs) = .ok true ↔
        ∃ h ∈ hs, checker.isInstance v (.one h) = .ok true)) ∧
    (∀ fs gs : List HintForm, (∀ f, f ∈ fs ↔ f ∈ gs) → ∃ hs ks, hints fs = .ok hs ∧
      hints gs = .ok ks ∧ ∀ c c' v,
        checker.isInstance v (.anyOf c hs) = checker.isInstance v (.anyOf c' ks)) ∧
    (∀ c v, checker.isInstance v (.anyOf c []) = .ok false) ∧
    ∀ v e, checker.isInstance v e = .ok false ↔
      ∃ failure, checker.checkType v e = .error failure ∧ failure.sort = .type := by
  refine ⟨fun f => ?_, fun fs => ?_, fun fs gs hsame => ?_, fun c v => rfl,
    fun v e => isInstance_eq_false_iff⟩
  · obtain ⟨h, hh, hmade⟩ := hchecker.exists_made f
    refine ⟨h, hh, fun v => ⟨isInstance_one_iff_passes.trans (hmade.passes v), ?_⟩⟩
    rw [hchecker.isInstance_one_eq_false_iff hmade.plain, hmade.passes]
  · obtain ⟨hs, hhs, hplain, hanswers⟩ := hchecker.exists_hints fs
    refine ⟨hs, hhs, fun c v => ⟨(hanswers c v).1, (hanswers c v).2, ?_⟩⟩
    simp only [(hchecker.isInstance_anyOf_iff hplain).1, isInstance_one_iff_passes]
  · obtain ⟨hs, hhs, -, hanswers⟩ := hchecker.exists_hints fs
    obtain ⟨ks, hks, -, hanswers'⟩ := hchecker.exists_hints gs
    refine ⟨hs, ks, hhs, hks, fun c c' v => ?_⟩
    have hmeant : (∃ f ∈ gs, f.Admits v) ↔ ∃ f ∈ fs, f.Admits v := by simp only [hsame]
    by_cases hadmits : ∃ f ∈ fs, f.Admits v
    · rw [(hanswers c v).1.mpr hadmits, (hanswers' c' v).1.mpr (hmeant.mpr hadmits)]
    · rw [(hanswers c v).2.mpr hadmits, (hanswers' c' v).2.mpr (mt hmeant.mp hadmits)]

end TypeChecker.Lawful

/-- Lists of numbers by name, or nothing. -/
def numbersByName : HintForm := .optional (.dict .str (.list .int))

/-- The last number is none. -/
def misnumbered : Value := .map [("a", .list [.int 1, .bool true]), ("b", .list [.int 2, .str "3"])]

/-- The standard checker finds the wrong number, which it would not if it looked at first elements
only. -/
theorem isInstance_iff_admits_misnumbered : TypeChecker.standard.Lawful ∧
    ∃ h, numbersByName.hint = .ok h ∧ ¬ numbersByName.Admits misnumbered ∧ numbersByName.Admits .null ∧
    TypeChecker.standard.isInstance misnumbered (.one h) = .ok false ∧
    TypeChecker.standard.Passes .error .firstItem h misnumbered ∧
    (∀ f, f ∈ [HintForm.str, numbersByName] ↔ f ∈ [numbersByName, .str, .str]) ∧
    ∃ hs ks, HintForm.hints [.str, numbersByName] = .ok hs ∧
      HintForm.hints [numbersByName, .str, .str] = .ok ks ∧ ∀ c c' v,
        TypeChecker.standard.isInstance v (.anyOf c hs) =
          TypeChecker.standard.isInstance v (.anyOf c' ks) := by
  obtain ⟨hform, -, hsame, -, -⟩ :=
    TypeChecker.Lawful.isInstance_iff_admits TypeChecker.lawful_standard
  obtain ⟨h, hh, hadmits⟩ := hform numbersByName
  have hmade : numbersByName.hint = .ok (.union [.dictOf .str (.listOf .int), .nullType]) := rfl
  have hmem : ∀ f, f ∈ [HintForm.str, numbersByName] ↔ f ∈ [numbersByName, .str, .str] := fun f => by
    simp only [List.mem_cons, List.not_mem_nil]
    tauto
  cases hmade.symm.trans hh
  refine ⟨TypeChecker.lawful_standard, _, hmade, ?_, (hadmits _).1.mp rfl, rfl, rfl, hmem,
    hsame _ _ hmem⟩
  exact (hadmits _).2.mp rfl

end Btf
