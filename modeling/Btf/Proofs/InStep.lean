import Btf.Proofs.Section.Split
import Btf.Proofs.Settings
import Btf.Proofs.Traversal

/-!
# Runs that stay together

An action is run on two blobs. As long as the two cursors are related, both runs give the same result
or fail with the same fault; only at some faults of the first run may they part. The relation can ask
for a number of bytes that are still ahead, of which each step uses up its own.

* `Together`: how two runs end;
* `Read.InStep`: an action that keeps two runs together, with a rule for each way to build one;
* **`Entry.inStep_info`**: entries, which use up their payload;
* `Steady`: a relation that words, strings and jumps keep;
* `Steady.layout`, `Steady.entry`: layouts and entries;
* `Steady.entriesUpTo`: the loop over the section, by induction on its steps;
* **`Steady.outcome_tableFrom`**: tables of two blobs.
-/

namespace Btf

/-- Two runs end with the same result and related cursors, or with the same fault, or the first one
ends with a fault at which they may part. -/
inductive Together {ε α : Type} (R : Cursor → Cursor → Prop) (Stop : ε → Prop) :
    Except ε α × Cursor → Except ε α × Cursor → Prop
  | stop {e : ε} {c : Cursor} {r : Except ε α × Cursor} (h : Stop e) : Together R Stop (.error e, c) r
  | fail {e : ε} {c c' : Cursor} : Together R Stop (.error e, c) (.error e, c')
  | done {a : α} {c c' : Cursor} (h : R c c') : Together R Stop (.ok a, c) (.ok a, c')

/-- Runs that end together have the same outcome, unless they part. -/
theorem Together.outcome_eq {ε α : Type} {R : Cursor → Cursor → Prop} {Stop : ε → Prop}
    {r r' : Except ε α × Cursor} (h : Together R Stop r r') (hstop : ∀ e, r.1 = .error e → ¬Stop e) :
    r'.1 = r.1 := by
  cases h with
  | stop h => exact absurd h (hstop _ rfl)
  | fail => rfl
  | done => rfl

namespace Read

variable {ε ε' α β : Type} {R : Nat → Cursor → Cursor → Prop} {Stop : ε → Prop} {s s' : Source}
  {m : Read ε α} {f : α → Read ε β}

/-- The action keeps runs on two blobs together and uses up `n` of the bytes that are ahead. -/
def InStep (R : Nat → Cursor → Cursor → Prop) (Stop : ε → Prop) (s s' : Source) (n : Nat)
    (m : Read ε α) : Prop :=
  ∀ k c c', R (n + k) c c' → Together (R k) Stop (m.run s c) (m.run s' c')

namespace InStep

theorem pure (a : α) : InStep R Stop s s' 0 (Pure.pure a : Read ε α) := by
  intro k c c' h
  rw [Nat.zero_add] at h
  exact .done h

theorem throw (n : Nat) (e : ε) : InStep R Stop s s' n (MonadExcept.throw e : Read ε α) :=
  fun _ _ _ _ => .fail

/-- **Two actions** use up what each of them does. -/
theorem bind {n k : Nat} (hm : InStep R Stop s s' n m) (hf : ∀ a, InStep R Stop s s' k (f a)) :
    InStep R Stop s s' (n + k) (m >>= f) := by
  intro j c c' h
  rw [Nat.add_assoc] at h
  have hfirst := hm (k + j) c c' h
  rw [run_bind, run_bind]
  generalize m.run s c = r, m.run s' c' = r' at hfirst
  cases hfirst with
  | stop hstop => exact .stop hstop
  | fail => exact .fail
  | done hdone => exact hf _ j _ _ hdone

theorem skip {k : Nat} (hm : InStep R Stop s s' 0 m) (hf : ∀ a, InStep R Stop s s' k (f a)) :
    InStep R Stop s s' k (m >>= f) :=
  k.zero_add ▸ hm.bind hf

theorem mapError {n : Nat} {g : ε' → ε} {m : Read ε' α}
    (hm : InStep R (fun e => Stop (g e)) s s' n m) : InStep R Stop s s' n (m.mapError g) := by
  intro k c c' h
  have hfirst := hm k c c' h
  rw [run_mapError, run_mapError]
  generalize m.run s c = r, m.run s' c' = r' at hfirst
  cases hfirst with
  | stop hstop => exact .stop hstop
  | fail => exact .fail
  | done hdone => exact .done hdone

theorem ite {n : Nat} {m' : Read ε α} (p : Prop) [Decidable p] (hm : p → InStep R Stop s s' n m)
    (hm' : ¬p → InStep R Stop s s' n m') : InStep R Stop s s' n (if p then m else m') := by
  split
  · exact hm ‹_›
  · exact hm' ‹_›

/-- An action that consumes the same number of bytes in both runs keeps them together if its outcomes
are the same, or the first one is a fault at which they may part. -/
theorem of_outcome {n width : Nat} (hm : Consumes width m)
    (hskip : ∀ k c c', R (n + k) c c' → R k (c.skip width) (c'.skip width))
    (hout : ∀ k c c', R (n + k) c c' → m.outcome s' c' = m.outcome s c ∨
      ∃ e, m.outcome s c = .error e ∧ Stop e) : InStep R Stop s s' n m := by
  intro k c c' hR
  have hrun : ∀ s c, m.run s c = (m.outcome s c, (m.run s c).2) := fun _ _ => rfl
  rcases hout k c c' hR with hsame | ⟨e, he, hstop⟩
  · cases h : m.outcome s c with
    | ok a =>
      rw [hm.run_eq h, hm.run_eq (hsame.trans h)]
      exact .done (hskip k c c' hR)
    | error e =>
      rw [hrun s c, hrun s' c', h, hsame.trans h]
      exact .fail
  · rw [hrun s c, he]
    exact .stop hstop

end InStep

/-- One action is run twice: there is no second reading. -/
theorem congruence_inStep (R : Nat → Cursor → Cursor → Prop) (Stop : Fault → Prop)
    (s s' : Source) : Congruence fun _ n m _ => InStep R Stop s s' n m where
  pure := .pure
  bind := .bind

/-- Names are read in step if the bytes of their strings are. -/
theorem inStep_stringAt {Stop : Fault → Prop} {address : Int} (options : TextOptions)
    (hbytes : InStep R (fun e => Stop (.source e)) s s' 0 (bytesAt address)) :
    InStep R Stop s s' 0 (stringAt address options) := by
  refine (InStep.mapError hbytes).skip fun bytes => ?_
  split
  · exact .pure _
  · exact .throw 0 _
  · exact .throw 0 _

end Read

/-! ## Entries -/

/-- **An entry** uses up its payload. -/
theorem Entry.inStep_info {e : Entry} {R : Nat → Cursor → Cursor → Prop} {Stop : Fault → Prop}
    {s s' : Source} (hu32 : Read.InStep R Stop s s' 4 u32)
    (hget : ∀ offset, Read.InStep R Stop s s' 0 (e.names.get offset)) :
    Read.InStep R Stop s s' e.head.payloadSize e.info :=
  congruence_info (Read.congruence_inStep R Stop s s') e.names e.names (fun _ n _ => .throw n _) hu32
    hget

/-! ## Relations that every read keeps -/

/-- A relation that words, strings and jumps keep, on two blobs. -/
structure Steady (R : Cursor → Cursor → Prop) (Stop : Fault → Prop) (s s' : Source) : Prop where
  offset : ∀ {c c'}, R c c' → c.offset = c'.offset
  setOrder : ∀ {c c'} (order : ByteOrder), R c c' → R { c with order } { c' with order }
  word : ∀ width, Read.InStep (fun _ => R) (fun e => Stop (.source e)) s s' 0 (Read.word width)
  seek : ∀ target, Read.InStep (fun _ => R) (fun e => Stop (.source e)) s s' 0 (Read.seek target)
  bytesAt : ∀ address,
    Read.InStep (fun _ => R) (fun e => Stop (.source e)) s s' 0 (Read.bytesAt address)

namespace Steady

open Read (InStep)

variable {R : Cursor → Cursor → Prop} {Stop : Fault → Prop} {s s' : Source} {names : Names}

/-- A relation that asks for no bytes ahead is kept whatever an action uses up. -/
theorem reindex {ε α : Type} {Stop : ε → Prop} {m : Read ε α} {n : Nat} (k : Nat)
    (hm : InStep (fun _ => R) Stop s s' n m) : InStep (fun _ => R) Stop s s' k m := hm

theorem setOrder_inStep (h : Steady R Stop s s') (order : ByteOrder) :
    InStep (fun _ => R) Stop s s' 0 (Read.setOrder order) :=
  fun _ _ _ hR => .done (h.setOrder order hR)

/-- **The layout of a blob** is found in step. -/
theorem layout (h : Steady R Stop s s') : InStep (fun _ => R) Stop s s' 0 Read.layout := by
  have hword := h.word
  have hdetect : InStep (fun _ => R) Stop s s' 0 Read.detectOrder :=
    (InStep.mapError (h.seek 0)).skip fun _ => (h.setOrder_inStep _).skip fun _ =>
      (InStep.mapError (hword 2)).skip fun magic => .ite _
        (fun _ => (h.setOrder_inStep _).skip fun _ => .pure _) fun _ => .ite _
          (fun _ => (h.setOrder_inStep _).skip fun _ => .pure _) fun _ => .throw 0 _
  have hfields : InStep (fun _ => R) (fun e => Stop (.source e)) s s' 0 Read.headerFields :=
    (hword 2).skip fun _ => (hword 1).skip fun _ => (hword 1).skip fun _ => (hword 4).skip fun _ =>
      (hword 4).skip fun _ => (hword 4).skip fun _ => (hword 4).skip fun _ => (hword 4).skip fun _ =>
        .pure _
  exact hdetect.skip fun _ => (InStep.mapError ((h.seek 0).skip fun _ => hfields)).skip fun _ =>
    .pure _

theorem offset_inStep (h : Steady R Stop s s') :
    InStep (fun _ => R) Stop s s' 0 (Read.offset : Read Fault Nat) := by
  intro k c c' hR
  show Together R Stop (.ok c.offset, c) (.ok c'.offset, c')
  rw [h.offset hR]
  exact .done hR

/-- An entry is read in step. -/
theorem entry (h : Steady R Stop s s') (names : Names) :
    InStep (fun _ => R) Stop s s' 0 names.entry := by
  have hword := h.word 4
  have hu32 : InStep (fun _ => R) Stop s s' 0 Entry.u32 := .mapError hword
  have hget : ∀ offset, InStep (fun _ => R) Stop s s' 0 (names.get offset) := fun _ =>
    Read.inStep_stringAt _ (h.bytesAt _)
  have hhead : InStep (fun _ => R) Stop s s' 0 Read.typeHeader :=
    .mapError (hword.skip fun _ => hword.skip fun _ => hword.skip fun _ => .pure _)
  exact h.offset_inStep.skip fun _ => hhead.skip fun _ => reindex 0 (Entry.inStep_info hu32 hget)

/-- An entry that may not reach beyond an end is read in step. -/
theorem entryWithin (h : Steady R Stop s s') (names : Names) (stop : Int) :
    InStep (fun _ => R) Stop s s' 0 (names.entryWithin stop) := by
  intro k c c' hR
  have hentry := h.entry names 0 c c' hR
  rw [Names.entryWithin, Read.run_ofRun, Read.run_ofRun]
  generalize names.entry.run s c = r, names.entry.run s' c' = r' at hentry
  cases hentry with
  | stop hstop => exact .stop hstop
  | fail => exact .fail
  | done hdone =>
    dsimp only
    rw [h.offset hR, h.offset hdone]
    split
    · exact .fail
    · exact .done hdone

/-- Where the loop over the first section ends with an entry that is refused, so does the other. -/
theorem entriesUpTo_refused (h : Steady R Stop s s') {stop : Int} {done : List TypeInfo}
    {c c' c₁ : Cursor} {fault : Fault} (hR : R c c') (hlt : c.offset < stop)
    (hrun : (names.entryWithin stop).run s c = (.error fault, c₁)) :
    Together R Stop (.error fault, c₁) (names.entriesUpTo stop s' done c') := by
  have hstep := h.entryWithin names stop 0 c c' hR
  rw [hrun] at hstep
  rw [Names.entriesUpTo_step (h.offset hR ▸ hlt)]
  generalize (names.entryWithin stop).run s' c' = r' at hstep
  cases hstep with
  | stop hstop => exact .stop hstop
  | fail => exact .fail

/-- **The loop over the section** goes on in step. -/
theorem entriesUpTo (h : Steady R Stop s s') (stop : Int) (done : List TypeInfo) {c c' : Cursor}
    (hR : R c c') :
    Together R Stop (names.entriesUpTo stop s done c) (names.entriesUpTo stop s' done c') := by
  fun_induction Names.entriesUpTo names stop s done c generalizing c' with
  | case1 done c hlt info c₁ hrun hover =>
    exact h.entriesUpTo_refused hR hlt (Names.run_entryWithin_overrun hrun hover)
  | case2 done c hlt info c₁ hrun hle hadv ih =>
    have hstep := h.entryWithin names stop 0 c c' hR
    have hright : names.entriesUpTo stop s' done c' = _ :=
      Names.entriesUpTo_step (h.offset hR ▸ hlt)
    rw [Names.run_entryWithin_ok hrun (Int.not_lt.mp hle)] at hstep
    rw [hright]
    generalize (names.entryWithin stop).run s' c' = r' at hstep
    cases hstep with
    | done hdone => exact ih hdone
  | case3 done c hlt fault c₁ hrun =>
    exact h.entriesUpTo_refused hR hlt (Names.run_entryWithin_error hrun)
  | case4 done c hend =>
    rw [Names.entriesUpTo_end (h.offset hR ▸ Int.not_lt.mp hend)]
    exact .done hR

theorem typeSection (h : Steady R Stop s s') (names : Names) :
    InStep (fun _ => R) Stop s s' 0 names.typeSection :=
  (InStep.mapError (h.seek _)).skip fun _ _ _ _ hR => h.entriesUpTo _ [] hR

/-- **Two blobs are decoded to the same table** or refused for the same reason, unless the first one is
refused for a fault at which the runs may part. -/
theorem outcome_tableFrom (h : Steady R Stop s s') (config : Config) {c c' : Cursor} (hR : R c c')
    (hstop : ∀ fault, (config.tableFrom s c).outcome = .error (.blob fault) → ¬Stop fault) :
    (config.tableFrom s' c').outcome = (config.tableFrom s c).outcome := by
  have hlayout := h.layout 0 c c' hR
  rw [Config.outcome_tableFrom] at hstop ⊢
  rw [Config.outcome_tableFrom]
  generalize Read.layout.run s c = r, Read.layout.run s' c' = r' at hlayout hstop
  cases hlayout with
  | stop hfault => exact absurd hfault (hstop _ rfl)
  | fail => rfl
  | @done layout c₁ c₁' hdone =>
    dsimp only at hstop ⊢
    cases htext : config.textOptions with
    | error e => simp only [mapError_error, error_bind]
    | ok options =>
      simp only [htext, mapError_ok, ok_bind] at hstop ⊢
      have hsection := h.typeSection ⟨layout.header, options⟩ 0 c₁ c₁' hdone
      have hsame : Read.outcome _ s' c₁' = Read.outcome _ s c₁ :=
        hsection.outcome_eq fun fault hfault => hstop fault (by
          rw [Read.outcome, hfault, mapError_error, error_bind])
      rw [hsame]

end Steady

end Btf
