import Btf.Source

/-!
# How much a read consumes

An action **consumes** `n` bytes if it leaves the cursor `n` bytes further on when it succeeds, and
nowhere outside those bytes when it fails. Byte order and mapping stay as they are, and a cursor that
is within the blob stays there.

* `Read.Consumes`, with a rule for each way to build an action: `Consumes.pure`, `Consumes.throw`,
  `Consumes.bind`, `Consumes.skip`, `Consumes.mapError`, `Consumes.ite`, `Consumes.times`;
* **`consumes_word`**: a word consumes its width.
-/

namespace Btf.Read

variable {ε ε' α β : Type}

/-- The action consumes `n` bytes. -/
structure Consumes (n : Nat) (m : Read ε α) : Prop where
  ok : ∀ {s c a c'}, m.run s c = (.ok a, c') → c' = { c with offset := c.offset + n }
  error : ∀ {s c e c'}, m.run s c = (.error e, c') →
    ∃ k ≤ n, c' = { c with offset := c.offset + k }
  within : ∀ {s c a c'}, c.offset ≤ s.bytes.size → m.run s c = (.ok a, c') →
    c'.offset ≤ s.bytes.size

namespace Consumes

theorem pure (a : α) : Consumes 0 (Pure.pure a : Read ε α) where
  ok h := by rw [run_pure] at h; cases h; rfl
  error h := by rw [run_pure] at h; cases h
  within hc h := by rw [run_pure] at h; cases h; exact hc

theorem throw (n : Nat) (e : ε) : Consumes n (MonadExcept.throw e : Read ε α) where
  ok h := by cases h
  error h := by cases h; exact ⟨0, Nat.zero_le n, rfl⟩
  within _ h := by cases h

theorem bind {n k : Nat} {m : Read ε α} {f : α → Read ε β} (hm : Consumes n m)
    (hf : ∀ a, Consumes k (f a)) : Consumes (n + k) (m >>= f) where
  ok {s c b c'} h := by
    rw [run_bind] at h
    split at h
    · next a c₁ h₁ =>
      rw [(hf a).ok h, hm.ok h₁]
      simp [Nat.add_assoc]
    · cases h
  error {s c e c'} h := by
    rw [run_bind] at h
    split at h
    · next a c₁ h₁ =>
      obtain ⟨j, hj, rfl⟩ := (hf a).error h
      rw [hm.ok h₁]
      exact ⟨n + j, by omega, by simp [Nat.add_assoc]⟩
    · next e' c₁ h₁ =>
      cases h
      obtain ⟨j, hj, rfl⟩ := hm.error h₁
      exact ⟨j, by omega, rfl⟩
  within {s c b c'} hc h := by
    rw [run_bind] at h
    split at h
    · next a c₁ h₁ => exact (hf a).within (hm.within hc h₁) h
    · cases h

theorem skip {k : Nat} {m : Read ε α} {f : α → Read ε β} (hm : Consumes 0 m)
    (hf : ∀ a, Consumes k (f a)) : Consumes k (m >>= f) :=
  k.zero_add ▸ hm.bind hf

theorem mapError {n : Nat} {m : Read ε α} (f : ε → ε') (hm : Consumes n m) :
    Consumes n (m.mapError f) where
  ok {s c a c'} h := by
    simp only [Read.mapError, run_ofRun] at h
    split at h <;> cases h
    exact hm.ok ‹_›
  error {s c e c'} h := by
    simp only [Read.mapError, run_ofRun] at h
    split at h <;> cases h
    exact hm.error ‹_›
  within {s c a c'} hc h := by
    simp only [Read.mapError, run_ofRun] at h
    split at h <;> cases h
    exact hm.within hc ‹_›

theorem ite {n : Nat} {m m' : Read ε α} (p : Prop) [Decidable p] (hm : p → Consumes n m)
    (hm' : ¬ p → Consumes n m') : Consumes n (if p then m else m') := by
  split
  · exact hm ‹_›
  · exact hm' ‹_›

theorem timesFrom {k : Nat} {m : Read ε α} (hm : Consumes k m) :
    ∀ (n : Nat) (done : List α), Consumes (k * n) (m.timesFrom n done)
  | 0, _ => pure _
  | n + 1, done => by
    rw [Nat.mul_succ, Nat.add_comm]
    exact hm.bind fun a => timesFrom hm n (a :: done)

theorem times {k : Nat} {m : Read ε α} (n : Nat) (hm : Consumes k m) : Consumes (k * n) (m.times n) :=
  hm.timesFrom n []

end Consumes

theorem consumes_word (width : Nat) : Consumes width (word width) where
  ok {s c a c'} h := by
    simp only [word, run_ofRun] at h
    split at h
    · cases h
    · split at h <;> cases h
      rfl
  error {s c e c'} h := by
    simp only [word, run_ofRun] at h
    split at h
    · cases h; exact ⟨0, Nat.zero_le _, rfl⟩
    · split at h <;> cases h
      exact ⟨0, Nat.zero_le _, rfl⟩
  within {s c a c'} _ h := by
    simp only [word, run_ofRun] at h
    split at h
    · cases h
    · split at h <;> cases h
      exact Nat.not_lt.mp ‹_›

end Btf.Read
