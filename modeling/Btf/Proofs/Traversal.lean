import Btf.Decode.Section

/-!
# Relations between entries that are read in two ways

Entries are built from words, names, refusals and the ways to put actions together. A relation between
actions that these ways keep relates two readings of an entry as soon as it relates their words, their
refusals and their names; no kind of entry has to be looked at again.

* `Read.Congruence`: a relation between actions that use up a number of bytes, kept by every way to put
  actions together;
* `Read.Congruence.skip`, `Read.Congruence.times`: the ways that follow from these;
* `Entry.congruence_infoOf`, by cases on the kind, and **`Entry.congruence_info`**: two readings of an
  entry whose names are looked up in two ways.
-/

namespace Btf

/-- A relation between two actions that use up a number of bytes, which is kept by every way to put
actions together. -/
structure Read.Congruence (P : (α : Type) → Nat → Read Fault α → Read Fault α → Prop) : Prop where
  pure : ∀ {α : Type} (a : α), P α 0 (pure a) (pure a)
  bind : ∀ {α β : Type} {n k : Nat} {m m' : Read Fault α} {f f' : α → Read Fault β},
    P α n m m' → (∀ a, P β k (f a) (f' a)) → P β (n + k) (m >>= f) (m' >>= f')

namespace Read.Congruence

variable {P : (α : Type) → Nat → Read Fault α → Read Fault α → Prop} {α β : Type} {k : Nat}
  {m m' : Read Fault α} {f f' : α → Read Fault β}

/-- An action that uses up nothing before another one. -/
theorem skip (h : Congruence P) (hm : P α 0 m m') (hf : ∀ a, P β k (f a) (f' a)) :
    P β k (m >>= f) (m' >>= f') := by
  have hbind := h.bind hm hf
  rwa [Nat.zero_add] at hbind

theorem timesFrom (h : Congruence P) (hm : P α k m m') (n : Nat) (done : List α) :
    P (List α) (k * n) (m.timesFrom n done) (m'.timesFrom n done) := by
  induction n generalizing done with
  | zero => exact h.pure _
  | succ n ih =>
    rw [Nat.mul_succ, Nat.add_comm]
    exact h.bind hm fun a => ih (a :: done)

/-- **Repetitions**, by induction on their number. -/
theorem times (h : Congruence P) (hm : P α k m m') (n : Nat) :
    P (List α) (k * n) (m.times n) (m'.times n) := h.timesFrom hm n []

end Read.Congruence

namespace Entry

variable {P : (α : Type) → Nat → Read Fault α → Read Fault α → Prop} (h : Read.Congruence P)
  {names names' : Names} {offset : Nat} {head : TypeHeader}
  (hrefuse : ∀ (α : Type) (n : Nat) (what : Violation),
    P α n (throw (.invalid offset head what)) (throw (.invalid offset head what)))
  (hu32 : P Nat 4 u32 u32) (hget : ∀ o, P Text 0 (names.get o) (names'.get o))

include h hget in
theorem congruence_get? (o : Nat) : P (Option Text) 0 (names.get? o) (names'.get? o) := by
  unfold Names.get?
  split
  · exact h.pure none
  · exact h.skip (hget o) fun t => h.pure (some t)

include h hrefuse in
theorem congruence_require (p : Prop) [Decidable p] (what : Violation) :
    P Unit 0 (require ⟨names, offset, head⟩ p what) (require ⟨names', offset, head⟩ p what) := by
  unfold require
  split
  · exact h.pure ()
  · exact hrefuse Unit 0 what

include h hrefuse in
theorem congruence_intOf (name : Option Text) (word : Nat) :
    P TypeInfo 0 (intOf ⟨names, offset, head⟩ name word) (intOf ⟨names', offset, head⟩ name word) := by
  unfold intOf
  dsimp only
  split
  · exact hrefuse TypeInfo 0 _
  · exact h.skip (congruence_require h hrefuse _ _) fun _ =>
      h.skip (congruence_require h hrefuse _ _) fun _ => h.pure _

include h hrefuse hu32 hget in
/-- **Two readings of an entry of a kind.** -/
theorem congruence_infoOf (k : Kind) : P TypeInfo (k.payloadSize head.vlen)
    (infoOf ⟨names, offset, head⟩ k) (infoOf ⟨names', offset, head⟩ k) := by
  have hname := congruence_get? h hget
  have hrequire : ∀ (p : Prop) [Decidable p] (what : Violation),
      P Unit 0 (require ⟨names, offset, head⟩ p what) (require ⟨names', offset, head⟩ p what) :=
    fun p _ what => congruence_require h hrefuse p what
  have href : ∀ kind, P TypeInfo 0 (ref ⟨names, offset, head⟩ kind)
      (ref ⟨names', offset, head⟩ kind) := fun _ => h.skip (hrequire _ _) fun _ => h.pure _
  have hmember : P Member 12 (member ⟨names, offset, head⟩) (member ⟨names', offset, head⟩) :=
    h.bind hu32 fun _ => h.skip (hname _) fun _ => h.bind hu32 fun _ => h.bind hu32 fun _ => h.pure _
  have hparam : P Param 8 (param ⟨names, offset, head⟩) (param ⟨names', offset, head⟩) :=
    h.bind hu32 fun _ => h.skip (hname _) fun _ => h.bind hu32 fun _ => h.pure _
  have henumerator : P Enumerator 8 (enumerator ⟨names, offset, head⟩)
      (enumerator ⟨names', offset, head⟩) :=
    h.bind hu32 fun _ => h.skip (hrequire _ _) fun _ => h.skip (hget _) fun _ =>
      h.bind hu32 fun _ => h.pure _
  have hcomposite : ∀ kind, P TypeInfo (12 * head.vlen) (composite ⟨names, offset, head⟩ kind)
      (composite ⟨names', offset, head⟩ kind) := fun _ =>
    h.skip (hname _) fun _ => h.bind (h.times hmember _) fun _ => h.pure _
  cases k with
  | int =>
    exact h.skip (hrequire _ _) fun _ => h.skip (hrequire _ _) fun _ => h.skip (hname _) fun _ =>
      h.bind hu32 fun _ => congruence_intOf h hrefuse _ _
  | ptr => exact href .ptr
  | const => exact href .const
  | volatile => exact href .volatile
  | array =>
    exact h.skip (hrequire _ _) fun _ => h.bind hu32 fun _ => h.bind hu32 fun _ =>
      h.bind hu32 fun _ => h.pure _
  | typedef => exact h.skip (hrequire _ _) fun _ => h.skip (hget _) fun _ => h.pure _
  | func => exact h.skip (hrequire _ _) fun _ => h.skip (hget _) fun _ => h.pure _
  | fwd => exact h.skip (hrequire _ _) fun _ => h.skip (hget _) fun _ => h.pure _
  | enum =>
    exact h.skip (hrequire _ _) fun _ => h.skip (hrequire _ _) fun _ => h.skip (hrequire _ _) fun _ =>
      h.skip (hname _) fun _ => h.bind (h.times henumerator _) fun _ => h.pure _
  | funcProto =>
    exact h.skip (hrequire _ _) fun _ => h.bind (h.times hparam _) fun _ => h.pure _
  | struct => exact hcomposite .struct
  | union => exact hcomposite .union

variable (names names') in
include h hrefuse hu32 hget in
/-- **Two readings of an entry** whose names are looked up in two ways. -/
theorem congruence_info : P TypeInfo head.payloadSize (info ⟨names, offset, head⟩)
    (info ⟨names', offset, head⟩) := by
  unfold info TypeHeader.payloadSize
  dsimp only
  cases head.kind? with
  | some k => exact congruence_infoOf h hrefuse hu32 hget k
  | none => exact hrefuse TypeInfo 0 _

end Entry

end Btf
