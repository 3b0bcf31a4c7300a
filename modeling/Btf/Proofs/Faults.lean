import Btf.Proofs.Table
import Btf.Proofs.Traversal

/-!
# What decoding fails with

A property of faults that holds of every fault an action can fail with is found by going through the
action: each way to build one from others keeps it. Bytes that have not been released stay so.

* `Fault.HasCode`: a fault is reported with a code;
* `Read.Upholds`: every fault of an action has a property, with a rule for each way to build one;
* `Read.upholds_layout`, **`Entry.upholds_info`**: layouts, and entries of every kind;
* `Names.entriesUpTo_error`: the loop over the section, by induction on its steps;
* **`Table.of_outcome_error`**: what decoding a blob fails with.
-/

namespace Btf

/-- A fault is reported with a code. -/
def Fault.HasCode (code : ErrorCode) (fault : Fault) : Prop :=
  ∃ r, fault.report? = some r ∧ r.code = code

namespace Read

variable {ε ε' α β : Type} {Φ : ε → Prop} {m : Read ε α} {f : α → Read ε β}

/-- From a blob that has not been released, an action does not release it, and the fault that it fails
with has a property. -/
structure Upholds (Φ : ε → Prop) (m : Read ε α) : Prop where
  isOpen : ∀ {s c}, c.IsOpen → (m.run s c).2.IsOpen
  error : ∀ {s c e}, c.IsOpen → m.outcome s c = .error e → Φ e

namespace Upholds

theorem pure (a : α) : Upholds Φ (Pure.pure a : Read ε α) := ⟨id, fun _ h => by cases h⟩

theorem throw {e : ε} (he : Φ e) : Upholds Φ (MonadExcept.throw e : Read ε α) where
  isOpen := id
  error _ h := by cases h; exact he

theorem bind (hm : Upholds Φ m) (hf : ∀ a, Upholds Φ (f a)) : Upholds Φ (m >>= f) where
  isOpen {s c} hc := by
    have hopen := hm.isOpen (s := s) hc
    rw [run_bind]
    generalize m.run s c = r at hopen
    rcases r with ⟨e | a, c'⟩
    · exact hopen
    · exact (hf a).isOpen hopen
  error {s c e} hc h := by
    have hopen := hm.isOpen (s := s) hc
    have herror := fun e => hm.error (s := s) (e := e) hc
    unfold outcome at h herror
    rw [run_bind] at h
    generalize m.run s c = r at hopen herror h
    rcases r with ⟨e' | a, c'⟩
    · cases h
      exact herror _ rfl
    · exact (hf a).error hopen h

theorem mapError {g : ε' → ε} {m : Read ε' α} (hm : Upholds (fun e => Φ (g e)) m) :
    Upholds Φ (m.mapError g) where
  isOpen {s c} hc := by rw [run_mapError]; exact hm.isOpen hc
  error {s c e} hc h := by
    rw [outcome_mapError] at h
    obtain ⟨e', he', rfl⟩ := mapError_eq_error.mp h
    exact hm.error hc he'

theorem ite (p : Prop) [Decidable p] {m' : Read ε α} (hm : p → Upholds Φ m)
    (hm' : ¬ p → Upholds Φ m') : Upholds Φ (if p then m else m') := by
  split
  · exact hm ‹_›
  · exact hm' ‹_›

theorem restoring (hm : Upholds Φ m) : Upholds Φ (m.restoring) := ⟨hm.isOpen, hm.error⟩

end Upholds

section

variable {Φ : SourceFault → Prop}

theorem upholds_word (hΦ : ∀ offset width, Φ (.pastEnd offset width)) (width : Nat) :
    Upholds Φ (word width) where
  isOpen {s c} hc := by
    rw [word, run_ofRun]
    split
    · exact hc
    · split <;> exact hc
  error {s c e} hc h := by
    rw [outcome, word, run_ofRun] at h
    split at h
    · cases h; exact hΦ _ _
    · rw [if_neg hc] at h
      cases h

theorem upholds_seek (hΦ : ∀ target size, Φ (.outside target size)) (target : Int) :
    Upholds Φ (seek target) where
  isOpen {s c} hc := by
    rw [seek, run_ofRun]
    split <;> exact hc
  error {s c e} hc h := by
    rw [outcome, seek, run_ofRun] at h
    split at h <;> cases h
    exact hΦ _ _

theorem upholds_setOrder {Φ : ε → Prop} (order : ByteOrder) :
    Upholds Φ (setOrder order : Read ε Unit) := ⟨id, fun _ h => by cases h⟩

theorem upholds_cstring (hΦ : ∀ offset rest, Φ (.unterminated offset rest)) : Upholds Φ cstring where
  isOpen {s c} hc := by
    rw [cstring, run_ofRun, if_neg hc]
    split <;> exact hc
  error {s c e} hc h := by
    rw [outcome, cstring, run_ofRun, if_neg hc] at h
    split at h <;> cases h
    exact hΦ _ _

end

/-! ## Layouts -/

section

variable {Φ : Fault → Prop} (hpast : ∀ offset width, Φ (.source (.pastEnd offset width)))
  (houtside : ∀ target size, Φ (.source (.outside target size)))

include hpast in
theorem upholds_u32 : Upholds Φ (u32.mapError .source) := .mapError (upholds_word hpast 4)

/-- The property of the second reading is not asked for. -/
theorem congruence_upholds (Φ : Fault → Prop) : Congruence fun _ _ m _ => Upholds Φ m where
  pure := .pure
  bind := .bind

include hpast houtside in
theorem upholds_layout (hmagic : ∀ value, Φ (.magic value)) : Upholds Φ layout := by
  have hseek : Upholds (fun f => Φ (.source f)) (seek 0) := upholds_seek houtside 0
  have hword := upholds_word (Φ := fun f => Φ (.source f)) hpast
  have hdetect : Upholds Φ detectOrder :=
    (Upholds.mapError hseek).bind fun _ => (upholds_setOrder _).bind fun _ =>
      (Upholds.mapError (hword 2)).bind fun magic => .ite _
        (fun _ => (upholds_setOrder _).bind fun _ => .pure _) fun _ => .ite _
          (fun _ => (upholds_setOrder _).bind fun _ => .pure _) fun _ => .throw (hmagic magic)
  have hfields : Upholds (fun f => Φ (.source f)) headerFields :=
    (hword 2).bind fun _ => (hword 1).bind fun _ => (hword 1).bind fun _ => (hword 4).bind fun _ =>
      (hword 4).bind fun _ => (hword 4).bind fun _ => (hword 4).bind fun _ => (hword 4).bind fun _ =>
        .pure _
  exact hdetect.bind fun _ => (Upholds.mapError (hseek.bind fun _ => hfields)).bind fun _ => .pure _

include hpast in
theorem upholds_typeHeader : Upholds Φ typeHeader := by
  have hword := upholds_word (Φ := fun f => Φ (.source f)) hpast 4
  exact .mapError (hword.bind fun _ => hword.bind fun _ => hword.bind fun _ => .pure _)

include houtside in
theorem upholds_stringAt (hend : ∀ offset rest, Φ (.source (.unterminated offset rest)))
    {address : Int} {options : TextOptions}
    (hdecode : ∀ bs, match Text.decode options.encoding options.errors bs with
      | .ok _ => True
      | .error (.undecodable run) => Φ (.undecodable address bs.length run)
      | .error (.codec fault) => Φ (.codec fault)) : Upholds Φ (stringAt address options) := by
  have hbytes : Upholds (fun f => Φ (.source f)) (bytesAt address) :=
    .restoring ((upholds_seek houtside _).bind fun _ => upholds_cstring hend)
  refine (Upholds.mapError hbytes).bind fun bs => ?_
  have hbs := hdecode bs
  cases h : Text.decode options.encoding options.errors bs with
  | ok t => exact .pure t
  | error fault =>
    rw [h] at hbs
    cases fault with
    | undecodable run => exact .throw hbs
    | codec fault => exact .throw hbs

end

end Read

/-! ## Entries -/

/-- **What an entry fails with** is a violation, or a fault of its words or of its names. -/
theorem Entry.upholds_info {Φ : Fault → Prop} {e : Entry}
    (hinvalid : ∀ what, Φ (.invalid e.offset e.head what))
    (hpast : ∀ offset width, Φ (.source (.pastEnd offset width)))
    (hget : ∀ offset, Read.Upholds Φ (e.names.get offset)) : Read.Upholds Φ e.info :=
  congruence_info (Read.congruence_upholds Φ) e.names e.names (fun _ _ what => .throw (hinvalid what))
    (Read.upholds_u32 hpast) hget

/-! ## Sections and tables -/

namespace Names

open Read (Upholds)

variable {Φ : Fault → Prop} {names : Names}
  (hinvalid : ∀ entry head what, Φ (.invalid entry head what))
  (hoverrun : ∀ entry reached stop, Φ (.overrun entry reached stop))
  (hpast : ∀ offset width, Φ (.source (.pastEnd offset width)))
  (houtside : ∀ target size, Φ (.source (.outside target size)))
  (hget : ∀ offset, Upholds Φ (names.get offset))

include hinvalid hpast hget in
theorem upholds_entry : Upholds Φ names.entry := by
  have hoffset : Upholds Φ (Read.offset : Read Fault Nat) := ⟨id, fun _ h => by cases h⟩
  exact hoffset.bind fun _ => (Read.upholds_typeHeader hpast).bind fun _ =>
    Entry.upholds_info (hinvalid _ _) hpast hget

include hinvalid hoverrun hpast hget in
theorem entriesUpTo_error {stop : Int} {s : Source} {done : List TypeInfo} {c : Cursor} {fault : Fault}
    (hc : c.IsOpen) (h : (names.entriesUpTo stop s done c).1 = .error fault) : Φ fault := by
  have hentry := upholds_entry hinvalid hpast hget
  fun_induction entriesUpTo names stop s done c with
  | case1 done c hlt info c' hrun hover =>
    cases h
    exact hoverrun _ _ _
  | case2 done c hlt info c' hrun hle hadv ih =>
    -- what one entry preserves is that the bytes have not been released
    have hopen := hentry.isOpen (s := s) hc
    rw [hrun] at hopen
    exact ih hopen h
  | case3 done c hlt e c' hrun =>
    cases h
    exact hentry.error hc (congrArg Prod.fst hrun)
  | case4 => cases h

include hinvalid hoverrun hpast houtside hget in
theorem typeSection_error {s : Source} {c : Cursor} {fault : Fault} (hc : c.IsOpen)
    (h : names.typeSection.outcome s c = .error fault) : Φ fault := by
  have hseek : Upholds Φ ((Read.seek names.header.typeStart).mapError .source) :=
    .mapError (Read.upholds_seek houtside _)
  have hopen := hseek.isOpen (s := s) hc
  have herror := fun e => hseek.error (s := s) (e := e) hc
  unfold typeSection Read.outcome at h
  unfold Read.outcome at herror
  rw [Read.run_bind] at h
  generalize ((Read.seek names.header.typeStart).mapError Fault.source).run s c = r at hopen herror h
  rcases r with ⟨e | _, c'⟩
  · cases h
    exact herror _ rfl
  · exact entriesUpTo_error hinvalid hoverrun hpast hget hopen h

end Names

/-- **What decoding a blob fails with** has a property if every fault of reading it has, and those of
its names do. -/
theorem Table.of_outcome_error {Φ : Fault → Prop} {options : TextOptions} {s : Source} {c : Cursor}
    {fault : Fault} (hc : c.IsOpen) (hmagic : ∀ value, Φ (.magic value))
    (hinvalid : ∀ entry head what, Φ (.invalid entry head what))
    (hoverrun : ∀ entry reached stop, Φ (.overrun entry reached stop))
    (hpast : ∀ offset width, Φ (.source (.pastEnd offset width)))
    (houtside : ∀ target size, Φ (.source (.outside target size)))
    (hget : ∀ header offset, Read.Upholds Φ (Names.get ⟨header, options⟩ offset))
    (h : (Table.decode options s c).1.outcome = .error fault) : Φ fault := by
  have hlayout := Read.upholds_layout hpast houtside hmagic
  have hopen := hlayout.isOpen (s := s) hc
  have herror := fun e => hlayout.error (s := s) (e := e) hc
  unfold Read.outcome at herror
  rw [outcome_decode] at h
  generalize Read.layout.run s c = r at hopen herror h
  rcases r with ⟨e | layout, c'⟩
  · cases h
    exact herror _ rfl
  · cases hsection : (Names.typeSection ⟨layout.header, options⟩).outcome s c' with
    | ok infos =>
      dsimp only at h
      rw [hsection] at h
      cases h
    | error e =>
      dsimp only at h
      rw [hsection] at h
      cases h
      exact Names.typeSection_error hinvalid hoverrun hpast houtside (hget _) hopen hsection

end Btf
