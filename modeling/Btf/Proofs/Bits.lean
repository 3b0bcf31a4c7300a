/-!
# Fields of words

Some bits of a word mean nothing. Two words say the same if they agree on the fields that the other
bits make up.

* `Agree`: two words differ only in the bits of a mask;
* `bitField`: the number that successive bits of a word stand for;
* **`agree_iff_bitFields`**: words agree outside of a mask if they agree on the fields around it.
-/

namespace Btf

/-- Two words differ only in the bits of `mask`. -/
def Agree (mask a b : Nat) : Prop := a ||| mask = b ||| mask

instance (mask a b : Nat) : Decidable (Agree mask a b) := inferInstanceAs (Decidable (_ = _))

/-- The number that the `width` bits of a word from bit `low` on stand for. -/
def bitField (low width w : Nat) : Nat := w / Nat.pow 2 low % Nat.pow 2 width

theorem Agree.trans {mask a b c : Nat} (h : Agree mask a b) (h' : Agree mask b c) :
    Agree mask a c := Eq.trans h h'

theorem agree_zero_iff {a b : Nat} : Agree 0 a b ↔ a = b := by
  rw [Agree, Nat.or_zero, Nat.or_zero]

theorem agree_iff_testBit {mask a b : Nat} :
    Agree mask a b ↔ ∀ i, mask.testBit i = false → a.testBit i = b.testBit i := by
  constructor
  · intro h i hi
    have := congrArg (·.testBit i) h
    simpa only [Nat.testBit_or, hi, Bool.or_false] using this
  · intro h
    refine Nat.eq_of_testBit_eq fun i => ?_
    rw [Nat.testBit_or, Nat.testBit_or]
    cases hi : mask.testBit i with
    | true => rw [Bool.or_true, Bool.or_true]
    | false => rw [h i hi]

theorem testBit_bitField (low width w i : Nat) :
    (bitField low width w).testBit i = (decide (i < width) && w.testBit (i + low)) := by
  have h := Nat.testBit_mod_two_pow (w / Nat.pow 2 low) width i
  rw [← Nat.testBit_div_two_pow w i]
  exact h

theorem bitField_eq_iff {low width a b : Nat} : bitField low width a = bitField low width b ↔
    ∀ i, low ≤ i → i < low + width → a.testBit i = b.testBit i := by
  constructor
  · intro h i hlow hwidth
    have := congrArg (·.testBit (i - low)) h
    have hlt : i - low < width := by omega
    simpa only [testBit_bitField, hlt, decide_true, Bool.true_and, Nat.sub_add_cancel hlow] using this
  · intro h
    refine Nat.eq_of_testBit_eq fun i => ?_
    rw [testBit_bitField, testBit_bitField]
    by_cases hi : i < width
    · rw [h (i + low) (by omega) (by omega)]
    · rw [decide_eq_false hi, Bool.false_and, Bool.false_and]

/-- **Words agree outside of a mask if they agree on the fields around it.** -/
theorem agree_iff_bitFields {mask : Nat} (fields : List (Nat × Nat))
    (hcover : ∀ i < 32, mask.testBit i = false ↔ ∃ f ∈ fields, f.1 ≤ i ∧ i < f.1 + f.2)
    (hwidth : ∀ f ∈ fields, f.1 + f.2 ≤ 32) {a b : Nat} (ha : a < 0x100000000)
    (hb : b < 0x100000000) :
    Agree mask a b ↔ ∀ f ∈ fields, bitField f.1 f.2 a = bitField f.1 f.2 b := by
  rw [agree_iff_testBit]
  constructor
  · intro h f hf
    refine bitField_eq_iff.mpr fun i hlow hi => h i ?_
    have := hwidth f hf
    exact (hcover i (by omega)).mpr ⟨f, hf, hlow, hi⟩
  · intro h i hi
    by_cases hlt : i < 32
    · obtain ⟨f, hf, hlow, hw⟩ := (hcover i hlt).mp hi
      exact bitField_eq_iff.mp (h f hf) i hlow hw
    · -- Above the width of a word there are no bits at all.
      have hpow : Nat.pow 2 32 ≤ Nat.pow 2 i := Nat.pow_le_pow_right (by decide) (by omega)
      rw [Nat.testBit_lt_two_pow (Nat.lt_of_lt_of_le ha hpow),
        Nat.testBit_lt_two_pow (Nat.lt_of_lt_of_le hb hpow)]

end Btf
