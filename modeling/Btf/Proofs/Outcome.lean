import Btf.Proofs.Words
import Btf.Source.Consumption

/-!
# Outcomes of reads

Where it is known how much an action consumes, its outcome can be told without following the cursor:
the outcome of two actions is that of the first and then that of the second as many bytes further on.

* `Cursor.skip`, `Cursor.IsOpen`: the cursor some bytes further on, and one whose bytes are there;
* `Read.outcome`: what an action gives; `outcome_bind`, `outcome_mapError`, `outcome_word`;
* **`Read.outcome_bind_ok_iff`**: when two actions succeed;
* **`Read.outcome_times_succ`**: the outcome of an action repeated.
-/

namespace Btf

@[simp] theorem ok_bind {ε α β : Type} (a : α) (f : α → Except ε β) : .ok a >>= f = f a := rfl

@[simp] theorem error_bind {ε α β : Type} (e : ε) (f : α → Except ε β) :
    .error e >>= f = .error e := rfl

@[simp] theorem mapError_ok {ε ε' α : Type} (f : ε → ε') (a : α) :
    (Except.ok a).mapError f = .ok a := rfl

@[simp] theorem mapError_error {ε ε' α : Type} (f : ε → ε') (e : ε) :
    (Except.error e : Except ε α).mapError f = .error (f e) := rfl

theorem bind_eq_ok {ε α β : Type} {x : Except ε α} {f : α → Except ε β} {b : β} :
    x >>= f = .ok b ↔ ∃ a, x = .ok a ∧ f a = .ok b := by
  cases x with
  | ok a =>
    constructor
    · intro h
      exact ⟨a, rfl, h⟩
    · rintro ⟨_, ha, h⟩
      cases ha
      exact h
  | error e =>
    constructor
    · intro h
      cases h
    · rintro ⟨_, ha, -⟩
      cases ha

theorem mapError_eq_ok {ε ε' α : Type} {f : ε → ε'} {x : Except ε α} {a : α} :
    x.mapError f = .ok a ↔ x = .ok a := by
  cases x with
  | ok b => exact ⟨fun h => by cases h; rfl, fun h => by cases h; rfl⟩
  | error e => exact ⟨fun h => (by cases h), fun h => by cases h⟩

theorem mapError_eq_error {ε ε' α : Type} {f : ε → ε'} {x : Except ε α} {e' : ε'} :
    x.mapError f = .error e' ↔ ∃ e, x = .error e ∧ f e = e' := by
  cases x with
  | ok a =>
    constructor
    · intro h
      cases h
    · rintro ⟨_, he, -⟩
      cases he
  | error e =>
    constructor
    · intro h
      exact ⟨e, rfl, Except.error.inj h⟩
    · rintro ⟨_, he, rfl⟩
      cases he
      rfl

theorem map_eq_ok {ε α β : Type} {f : α → β} {x : Except ε α} {b : β} :
    x.map f = .ok b ↔ ∃ a, x = .ok a ∧ f a = b := by
  cases x with
  | ok a =>
    constructor
    · intro h
      exact ⟨a, rfl, Except.ok.inj h⟩
    · rintro ⟨_, ha, rfl⟩
      cases ha
      rfl
  | error e =>
    constructor
    · intro h
      cases h
    · rintro ⟨_, ha, -⟩
      cases ha

theorem map_eq_error {ε α β : Type} {f : α → β} {x : Except ε α} {e : ε} :
    x.map f = .error e ↔ x = .error e := by
  cases x with
  | ok a => exact ⟨fun h => (by cases h), fun h => by cases h⟩
  | error e' => exact ⟨fun h => by cases h; rfl, fun h => by cases h; rfl⟩

theorem toOption_eq_some_iff {ε α : Type} {x : Except ε α} {a : α} :
    x.toOption = some a ↔ x = .ok a := by
  cases x with
  | ok b => exact ⟨fun h => by cases h; rfl, fun h => by cases h; rfl⟩
  | error e => exact ⟨fun h => (by cases h), fun h => by cases h⟩

namespace Cursor

/-- The cursor `n` bytes further on. -/
def skip (c : Cursor) (n : Nat) : Cursor := { c with offset := c.offset + n }

/-- The bytes of the blob have not been released. -/
def IsOpen (c : Cursor) : Prop := c.holding ≠ .released

@[simp] theorem skip_offset (c : Cursor) (n : Nat) : (c.skip n).offset = c.offset + n := rfl

@[simp] theorem skip_order (c : Cursor) (n : Nat) : (c.skip n).order = c.order := rfl

@[simp] theorem skip_zero (c : Cursor) : c.skip 0 = c := rfl

theorem skip_skip (c : Cursor) (m n : Nat) : (c.skip m).skip n = c.skip (m + n) := by
  rw [skip, skip, skip, Nat.add_assoc]

theorem isOpen_start : IsOpen {} := by
  intro h
  cases h

theorem IsOpen.skip {c : Cursor} (h : c.IsOpen) (n : Nat) : (c.skip n).IsOpen := h

end Cursor

namespace Read

variable {ε ε' α β : Type} {s : Source} {c : Cursor}

/-- What an action gives. -/
def outcome (m : Read ε α) (s : Source) (c : Cursor) : Except ε α := (m.run s c).1

theorem outcome_pure (a : α) : (pure a : Read ε α).outcome s c = .ok a := rfl

theorem outcome_mapError (f : ε → ε') (m : Read ε α) :
    (m.mapError f).outcome s c = (m.outcome s c).mapError f := by
  rw [outcome, outcome, Read.mapError, run_ofRun]
  rcases m.run s c with ⟨_ | _, _⟩ <;> rfl

/-- An action that gives a result leaves the cursor behind what it consumes. -/
theorem Consumes.run_eq {n : Nat} {m : Read ε α} (hm : Consumes n m) {a : α}
    (h : m.outcome s c = .ok a) : m.run s c = (.ok a, c.skip n) := by
  have hrun : m.run s c = (.ok a, (m.run s c).2) := by rw [← h, outcome]
  rw [hrun, hm.ok hrun]; rfl

/-- **The second of two actions begins behind what the first one consumes.** -/
theorem outcome_bind {n : Nat} {m : Read ε α} (hm : Consumes n m) (f : α → Read ε β) :
    (m >>= f).outcome s c = m.outcome s c >>= fun a => (f a).outcome s (c.skip n) := by
  cases h : m.outcome s c with
  | ok a =>
    rw [outcome, run_bind, hm.run_eq h]
    rfl
  | error e =>
    have hrun : m.run s c = (.error e, (m.run s c).2) := by rw [← h, outcome]
    rw [outcome, run_bind, hrun]
    rfl

theorem outcome_bind_ok_iff {n : Nat} {m : Read ε α} (hm : Consumes n m) (f : α → Read ε β) {b : β} :
    (m >>= f).outcome s c = .ok b ↔
      ∃ a, m.outcome s c = .ok a ∧ (f a).outcome s (c.skip n) = .ok b := by
  rw [outcome_bind hm, bind_eq_ok]

theorem outcome_word (hc : c.IsOpen) {width : Nat} (h : c.offset + width ≤ s.bytes.size) :
    (word width).outcome s c = .ok (c.order.value (s.slice c.offset width)) := by
  rw [outcome, word, run_ofRun, if_neg (Nat.not_lt.mpr h), if_neg hc]
  rfl

theorem outcome_word_past {width : Nat} (h : s.bytes.size < c.offset + width) :
    (word width).outcome s c = .error (.pastEnd c.offset width) := by
  rw [outcome, word, run_ofRun, if_pos h]

theorem outcome_word_ok_iff (hc : c.IsOpen) {width n : Nat} :
    (word width).outcome s c = .ok n ↔
      c.offset + width ≤ s.bytes.size ∧ c.order.value (s.slice c.offset width) = n := by
  by_cases h : c.offset + width ≤ s.bytes.size
  · rw [outcome_word hc h]
    constructor
    · intro hn
      cases hn
      exact ⟨h, rfl⟩
    · rintro ⟨-, rfl⟩
      rfl
  · rw [outcome_word_past (Nat.lt_of_not_le h)]
    exact ⟨fun hn => (by cases hn), fun hn => absurd hn.1 h⟩

/-! ## Repetition -/

theorem outcome_timesFrom {k : Nat} {m : Read ε α} (hm : Consumes k m) (n : Nat) (done : List α)
    (c : Cursor) : (timesFrom m n done).outcome s c =
      (timesFrom m n []).outcome s c >>= fun as => .ok (done.reverse ++ as) := by
  induction n generalizing done c with
  | zero =>
    rw [timesFrom, timesFrom, outcome_pure, outcome_pure]
    change _ = Except.ok (done.reverse ++ [])
    rw [List.append_nil]
  | succ n ih =>
    rw [timesFrom, timesFrom, outcome_bind hm, outcome_bind hm]
    cases m.outcome s c with
    | error e => rfl
    | ok a =>
      change (timesFrom m n (a :: done)).outcome s (c.skip k) =
        (timesFrom m n [a]).outcome s (c.skip k) >>= _
      rw [ih (a :: done), ih [a]]
      cases (timesFrom m n []).outcome s (c.skip k) with
      | error e => rfl
      | ok as =>
        change Except.ok _ = Except.ok (done.reverse ++ ([a] ++ as))
        rw [List.reverse_cons, List.append_assoc]

theorem outcome_times_zero (m : Read ε α) : (m.times 0).outcome s c = .ok [] := rfl

/-- **An action repeated once more** gives its own result before those of the repetitions behind
it. -/
theorem outcome_times_succ {k : Nat} {m : Read ε α} (hm : Consumes k m) (n : Nat) :
    (m.times (n + 1)).outcome s c = m.outcome s c >>= fun a =>
      (m.times n).outcome s (c.skip k) >>= fun as => .ok (a :: as) := by
  rw [times, timesFrom, outcome_bind hm]
  congr 1
  funext a
  rw [outcome_timesFrom hm]
  rfl

theorem outcome_times_succ_ok_iff {k : Nat} {m : Read ε α} (hm : Consumes k m) {n : Nat}
    {as : List α} : (m.times (n + 1)).outcome s c = .ok as ↔
      ∃ b bs, m.outcome s c = .ok b ∧ (m.times n).outcome s (c.skip k) = .ok bs ∧ as = b :: bs := by
  rw [outcome_times_succ hm, bind_eq_ok]
  constructor
  · rintro ⟨b, hb, h⟩
    obtain ⟨bs, hbs, h⟩ := bind_eq_ok.mp h
    cases h
    exact ⟨b, bs, hb, hbs, rfl⟩
  · rintro ⟨b, bs, hb, hbs, rfl⟩
    exact ⟨b, hb, bind_eq_ok.mpr ⟨bs, hbs, rfl⟩⟩

end Read

end Btf
