import Btf.Proofs.Strings
import Btf.Proofs.Table
import Btf.Proofs.Traversal
import Btf.Proofs.Validity

/-!
# Entries and their payloads

The loop over the section relies on every entry to use up its own payload, neither less nor more, while
names are looked up all over the blob in between. An entry that is read ends where its payload ends and
has the parts that its head counts. One that is given up on leaves the cursor behind some whole words of
its payload, where it cannot go on.

* `Entry.Stops`: why an entry does not go on from a cursor;
* `Entry.Reads`: an action of an entry reads words of its payload and stops behind some of them, with a
  rule for each way to build one;
* **`Entry.reads_info`**: an entry of any kind, its names being looked up in between;
* **`Entry.counts_infoOf`**: the kind and the number of parts of what is read, by cases on the kind;
* `Entry.IsSound`, `Entry.IsSound.exists_info`: entries that are read;
* **`info_frame`**: every entry, read or given up on.
-/

namespace Btf

namespace Entry

variable {e : Entry} {s : Source} {c : Cursor} {info : TypeInfo} {α β : Type}

/-! ## Where an entry stops -/

/-- An entry does not go on from a cursor: the blob ends within the next word, some name cannot be looked
up from there, or the entry is refused. -/
inductive Stops (e : Entry) (s : Source) (c : Cursor) : Fault → Prop
  | word (h : s.bytes.size < c.offset + 4) : Stops e s c (.source (.pastEnd c.offset 4))
  | name {offset : Nat} {fault : Fault} (h : (e.names.get offset).outcome s c = .error fault) :
      Stops e s c fault
  | refused (what : Violation) : Stops e s c (.invalid e.offset e.head what)

/-- An action of an entry consumes `n` bytes, which are whole words if it can succeed at all. Where it
fails, it stops within the blob, behind some of these words. -/
structure Reads (e : Entry) (n : Nat) (m : Read Fault α) : Prop where
  consumes : Read.Consumes n m
  words : ∀ {s c a}, m.outcome s c = .ok a → 4 ∣ n
  stops : ∀ {s c fault c'}, c.IsOpen → c.offset ≤ s.bytes.size → m.run s c = (.error fault, c') →
    ∃ k, 4 * k ≤ n ∧ c' = c.skip (4 * k) ∧ c'.offset ≤ s.bytes.size ∧ e.Stops s c' fault

theorem reads_pure (a : α) : e.Reads 0 (pure a) := ⟨.pure a, fun _ => ⟨0, rfl⟩, fun _ _ h => by cases h⟩

theorem reads_bind {n k : Nat} {m : Read Fault α} {f : α → Read Fault β} (hm : e.Reads n m)
    (hf : ∀ a, e.Reads k (f a)) : e.Reads (n + k) (m >>= f) where
  consumes := hm.consumes.bind fun a => (hf a).consumes
  words h := by
    obtain ⟨a, ha, h⟩ := (Read.outcome_bind_ok_iff hm.consumes f).mp h
    exact Nat.dvd_add (hm.words ha) ((hf a).words h)
  stops {s c fault c'} hc hin h := by
    rw [Read.run_bind] at h
    split at h
    · next a c₁ h₁ =>
      have ha : m.outcome s c = .ok a := congrArg Prod.fst h₁
      obtain ⟨j, rfl⟩ := hm.words ha
      have hin₁ := hm.consumes.within hin h₁
      rw [hm.consumes.run_eq ha] at h₁
      cases h₁
      obtain ⟨i, hi, rfl, hstop⟩ := (hf a).stops (hc.skip _) hin₁ h
      rw [Cursor.skip_skip, ← Nat.mul_add] at hstop ⊢
      exact ⟨j + i, by omega, rfl, hstop⟩
    · cases h
      obtain ⟨i, hi, hstop⟩ := hm.stops hc hin ‹_›
      exact ⟨i, by omega, hstop⟩

/-- An action that stays where it is when it fails. -/
theorem reads_of_stays {n : Nat} {m : Read Fault α} (hm : Read.Consumes n m)
    (hwords : ∀ {s c a}, m.outcome s c = .ok a → 4 ∣ n)
    (hstays : ∀ {s c fault c'}, c.IsOpen → m.run s c = (.error fault, c') →
      c' = c ∧ e.Stops s c fault) : e.Reads n m where
  consumes := hm
  words := hwords
  stops hc hin h := by
    obtain ⟨rfl, hstop⟩ := hstays hc h
    exact ⟨0, Nat.zero_le n, rfl, hin, hstop⟩

theorem reads_refuse (n : Nat) (what : Violation) :
    e.Reads n (throw (.invalid e.offset e.head what) : Read Fault α) :=
  reads_of_stays (.throw n _) (fun h => by cases h) fun _ h => by
    cases h
    exact ⟨rfl, .refused what⟩

theorem reads_u32 : e.Reads 4 u32 :=
  reads_of_stays consumes_u32 (fun _ => ⟨1, rfl⟩) fun {s c fault c'} hc h => by
    rw [u32, Read.run_mapError, Read.u32, Read.word, Read.run_ofRun] at h
    split at h
    · cases h
      exact ⟨rfl, .word ‹_›⟩
    · rw [if_neg hc] at h
      cases h

theorem reads_get (offset : Nat) : e.Reads 0 (e.names.get offset) :=
  reads_of_stays (e.names.consumes_get offset) (fun _ => ⟨0, rfl⟩) fun {s c fault c'} _ h => by
    have hstay : ((e.names.get offset).run s c).2 = c := Read.cursor_stringAt _ _ s c
    rw [h] at hstay
    exact ⟨hstay, .name (congrArg Prod.fst h)⟩

/-- The second reading is not asked for anything. -/
theorem congruence_reads (e : Entry) : Read.Congruence fun _ n m _ => e.Reads n m where
  pure := reads_pure
  bind := reads_bind

/-- **An entry reads words of its payload**, whatever its kind is, and stops behind some of them. -/
theorem reads_info (e : Entry) : e.Reads e.head.payloadSize e.info :=
  congruence_info e.congruence_reads e.names e.names (fun _ => reads_refuse) reads_u32 reads_get

/-! ## What is read -/

/-- **What is read is of the kind that its head says**, and has as many parts as its head counts. -/
theorem counts_infoOf {k : Kind} (hc : c.IsOpen) (hin : c.offset ≤ s.bytes.size)
    (h : (e.infoOf k).outcome s c = .ok info) :
    info.kind = k ∧ info.parts.length = e.head.vlen := by
  cases k with
  | int =>
    obtain ⟨-, hvlen, -, -, _, _, _, _, -, -, -, -, -, rfl⟩ := (int_ok_iff hc).mp h
    exact ⟨rfl, hvlen.symm⟩
  | ptr | const | volatile =>
    obtain ⟨⟨-, -, hvlen⟩, rfl⟩ := ref_ok_iff.mp h
    exact ⟨rfl, hvlen.symm⟩
  | array =>
    obtain ⟨⟨-, -, hvlen, -⟩, -, _, _, _, -, rfl⟩ := (array_ok_iff hc).mp h
    exact ⟨rfl, hvlen.symm⟩
  | typedef | func =>
    obtain ⟨-, hvlen, _, -, rfl⟩ := (isNamed_get_ok_iff hc).mp h
    exact ⟨rfl, hvlen.symm⟩
  | fwd =>
    obtain ⟨hvlen, -, _, -, rfl⟩ := (fwd_ok_iff hc).mp h
    exact ⟨rfl, hvlen.symm⟩
  | enum =>
    obtain ⟨-, -, -, _, xs, -, ⟨hlength, -⟩, rfl⟩ := (enum_ok_iff hc hin).mp h
    exact ⟨rfl, (List.length_map _).trans hlength⟩
  | funcProto =>
    -- the parameter that stands for further ones is among those that were read
    obtain ⟨-, -, ps, ⟨hlength, -⟩, rfl⟩ := (funcProto_ok_iff hc hin).mp h
    obtain ⟨params, variadic, hproto, rfl, -⟩ := exists_funcProtoOf e.head.sizeOrType ps
    rw [hproto]
    exact ⟨rfl, (List.length_map _).trans hlength⟩
  | struct | union =>
    obtain ⟨_, ms, -, ⟨hlength, -⟩, rfl⟩ := (composite_ok_iff hc hin).mp h
    exact ⟨rfl, (List.length_map _).trans hlength⟩

theorem counts_info (hc : c.IsOpen) (hin : c.offset ≤ s.bytes.size)
    (h : e.info.outcome s c = .ok info) :
    e.head.kind? = some info.kind ∧ info.parts.length = e.head.vlen := by
  unfold Entry.info at h
  cases hk : e.head.kind? with
  | none =>
    rw [hk] at h
    cases h
  | some k =>
    rw [hk] at h
    obtain ⟨rfl, hparts⟩ := counts_infoOf hc hin h
    exact ⟨rfl, hparts⟩

/-! ## Entries that are read -/

/-- The offsets of the names of the parts of an entry of kind `k`, whose payload starts at the cursor. -/
def partNames (e : Entry) (s : Source) (c : Cursor) (k : Kind) : List Nat :=
  (List.range e.head.vlen).map fun j => s.word c.order (c.offset + k.partSize * j)

/-- An entry of kind `k` whose payload is in the blob and whose names can be looked up, and which does what
its kind asks for. -/
structure IsSound (e : Entry) (s : Source) (c : Cursor) (k : Kind) : Prop where
  kind : e.head.kind? = some k
  inside : c.offset + k.payloadSize e.head.vlen ≤ s.bytes.size
  name : e.head.nameOffset ≠ 0 → ∃ t, e.names.text s e.head.nameOffset = .ok t
  partNames : ∀ offset ∈ e.partNames s c k, offset ≠ 0 → ∃ t, e.names.text s offset = .ok t
  allows : k.Allows e.head (s.word c.order c.offset) (e.partNames s c k)

/-- **A sound entry is read.** -/
theorem IsSound.exists_info {k : Kind} (h : e.IsSound s c k) (hc : c.IsOpen) :
    ∃ info, e.info.outcome s c = .ok info := by
  have hdecides := decides_infoOf hc h.inside (fun _ => rfl) h.name h.partNames
  unfold Entry.info
  rw [h.kind]
  rcases hdecides with ⟨-, hread⟩ | ⟨hnot, -⟩
  · exact hread
  · exact absurd h.allows hnot

end Entry

/-- **An entry is read from its own payload**, whatever its head, the header of the blob and the options
for names are. A sound one is read. One that is read has moved the cursor over as many bytes as its kind
and the number of its parts take, and over nothing else, although its names may stand anywhere in the blob;
it has as many members, constants or parameters as its head counts, the one that stands for further
parameters among them. One that is given up on leaves the cursor within the blob, behind some words of its
payload, and does not go on from there. -/
theorem info_frame (e : Entry) {s : Source} {c : Cursor} (hc : c.IsOpen)
    (hin : c.offset ≤ s.bytes.size) :
    (∀ k, e.IsSound s c k → ∃ info c', e.info.run s c = (.ok info, c')) ∧
    (∀ info c', e.info.run s c = (.ok info, c') →
      e.head.kind? = some info.kind ∧ info.parts.length = e.head.vlen ∧
        c' = { c with offset := c.offset + info.kind.payloadSize e.head.vlen } ∧
          c'.offset ≤ s.bytes.size) ∧
    ∀ fault c', e.info.run s c = (.error fault, c') →
      ∃ k, 4 * k ≤ e.head.payloadSize ∧ c' = { c with offset := c.offset + 4 * k } ∧
        c'.offset ≤ s.bytes.size ∧ e.Stops s c' fault := by
  refine ⟨fun k hsound => ?_, fun info c' h => ?_, fun fault c' h => e.reads_info.stops hc hin h⟩
  · obtain ⟨info, hinfo⟩ := hsound.exists_info hc
    exact ⟨info, _, e.consumes_info.run_eq hinfo⟩
  · obtain ⟨hkind, hparts⟩ := Entry.counts_info hc hin (congrArg Prod.fst h)
    have hsize : e.head.payloadSize = info.kind.payloadSize e.head.vlen := by
      rw [TypeHeader.payloadSize, hkind]
    have hconsumes := hsize ▸ e.consumes_info
    exact ⟨hkind, hparts, hconsumes.ok h, hconsumes.within hin h⟩

/-- The payload of a function type, which is read with its own head, and with that of an enumeration whose
second constant has no name. -/
theorem info_frame_variadic :
    let names : Names := ⟨variadicTable.header, {}⟩
    let s : Source := { bytes := variadicBlob }
    let c : Cursor := { offset := 52, order := .big, holding := .mapped }
    let function : Entry := ⟨names, 40, ⟨0, 2, 13, false, 1⟩⟩
    let enumeration : Entry := ⟨names, 40, ⟨0, 2, 6, false, 4⟩⟩
    let info : TypeInfo := .funcProto 1 [⟨some "a", 1⟩] true
    let fault : Fault := .invalid 40 enumeration.head .enumAnonymous
    (c.IsOpen ∧ c.offset ≤ s.bytes.size) ∧
    (function.IsSound s c .funcProto ∧ ∃ info c', function.info.run s c = (.ok info, c')) ∧
    (function.info.run s c = (.ok info, { c with offset := 68 }) ∧
      info.parts.length = function.head.vlen ∧ 68 = c.offset + info.kind.payloadSize 2) ∧
    enumeration.info.run s c = (.error fault, { c with offset := 64 }) ∧
      ∃ k, 4 * k ≤ enumeration.head.payloadSize ∧ 64 = c.offset + 4 * k ∧
        enumeration.Stops s { c with offset := 64 } fault := by
  intro names s c function enumeration info fault
  have hc : c.IsOpen := fun h => by cases h
  have hin : c.offset ≤ s.bytes.size := by decide
  have hoffsets : function.partNames s c .funcProto = [5, 0] := by decide
  have hname : names.text s 5 = .ok "a" := toOption_eq_some_iff.mp (by decide +kernel)
  have hsound : function.IsSound s c .funcProto := by
    refine ⟨rfl, by decide, fun h0 => absurd rfl h0, ?_, rfl, rfl⟩
    rw [hoffsets, List.forall_mem_cons, List.forall_mem_singleton]
    exact ⟨fun _ => ⟨_, hname⟩, fun h0 => absurd rfl h0⟩
  have hread : function.info.run s c = (.ok info, { c with offset := 68 }) :=
    Prod.ext (toOption_eq_some_iff.mp (by decide +kernel)) (by decide +kernel)
  have hrefused : enumeration.info.run s c = (.error fault, { c with offset := 64 }) := by
    decide +kernel
  obtain ⟨hreads, hframe, -⟩ := info_frame function hc hin
  obtain ⟨-, hparts, hcursor, -⟩ := hframe info _ hread
  obtain ⟨k, hk, hcursor', -, hstop⟩ := (info_frame enumeration hc hin).2.2 fault _ hrefused
  exact ⟨⟨hc, hin⟩, ⟨hsound, hreads .funcProto hsound⟩,
    ⟨hread, hparts, congrArg Cursor.offset hcursor⟩, hrefused, k, hk,
    congrArg Cursor.offset hcursor', hstop⟩

end Btf
