import Btf.Proofs.Section
import Btf.Proofs.Utf8

/-!
# Which entries are refused

An entry whose bytes are there and whose names end somewhere in the blob is refused exactly if it
breaks what its kind asks for, and what is reported then is its kind's code and all its bytes.

* `Kind.Allows`, `Source.AllowsEntry`: what the kinds ask of an entry;
* `Entry.Decides`: an outcome is a result if something holds and a violation otherwise, with a rule for
  each way to build an action;
* `Entry.decides_times`: repetitions, by induction on their number;
* `Entry.decides_info`: the entries of each kind;
* **`Names.entry_refused_iff`**: when an entry is refused, and with which report.
-/

namespace Btf

/-! ## What is asked of an entry -/

namespace Kind

/-- At most one of the three bits of an encoding is set. -/
def OneEncoding (word : Nat) : Prop :=
  word / 0x1000000 % 2 + word / 0x2000000 % 2 + word / 0x4000000 % 2 ≤ 1

/-- What a kind asks of the head of an entry, the word behind it and the offsets of the names of the
parts. -/
def Allows (h : TypeHeader) (word : Nat) (partNames : List Nat) : Kind → Prop
  | int => h.kindFlag = false ∧ h.vlen = 0 ∧ h.sizeOrType ∈ [1, 2, 4, 8, 16] ∧ OneEncoding word ∧
      word % 0x100 ≤ min 128 (8 * h.sizeOrType) ∧
        word / 0x10000 % 0x100 + word % 0x100 ≤ 8 * h.sizeOrType
  | ptr | const | volatile => h.nameOffset = 0 ∧ h.kindFlag = false ∧ h.vlen = 0
  | array => h.nameOffset = 0 ∧ h.kindFlag = false ∧ h.vlen = 0 ∧ h.sizeOrType = 0
  | typedef | func => h.nameOffset ≠ 0 ∧ h.kindFlag = false ∧ h.vlen = 0
  | enum => h.kindFlag = false ∧ 0 < h.vlen ∧ h.sizeOrType ∈ [1, 2, 4, 8] ∧
      ∀ offset ∈ partNames, offset ≠ 0
  | funcProto => h.nameOffset = 0 ∧ h.kindFlag = false
  | fwd => h.nameOffset ≠ 0 ∧ h.vlen = 0 ∧ h.sizeOrType = 0
  | struct | union => True

/-- The code with which an entry of a kind is refused. -/
def refusal : Kind → ErrorCode
  | int => .invalidIntEncoding
  | ptr | const => .invalidPtrEncoding
  | volatile => .invalidVolatileEncoding
  | array => .invalidArrayEncoding
  | typedef => .invalidTypedefEncoding
  | enum => .invalidEnumEncoding
  | funcProto => .invalidFuncProtoEncoding
  | fwd => .invalidFwdEncoding
  | func => .invalidFuncEncoding
  | struct | union => .invalidStructUnionEncoding

def partSize : Kind → Nat
  | struct | union => 12
  | enum | funcProto => 8
  | _ => 0

end Kind

namespace Source

def entryHead (s : Source) (order : ByteOrder) (i : Nat) : TypeHeader :=
  .ofWords (s.word order i) (s.word order (i + 4)) (s.word order (i + 8))

/-- The offsets of the names of the parts of an entry of kind `k` at offset `i`. -/
def partNames (s : Source) (order : ByteOrder) (i : Nat) (k : Kind) : List Nat :=
  if k.partSize = 0 then []
  else (List.range (s.entryHead order i).vlen).map fun j => s.word order (i + 12 + k.partSize * j)

/-- The offsets of the names in the entry at offset `i`. -/
def entryNames (s : Source) (order : ByteOrder) (i : Nat) : List Nat :=
  (s.entryHead order i).nameOffset :: match (s.entryHead order i).kind? with
    | some k => s.partNames order i k
    | none => []

/-- The entry at offset `i` is of a kind that is decoded and does what this asks for. -/
def AllowsEntry (s : Source) (order : ByteOrder) (i : Nat) : Prop :=
  ∃ k, (s.entryHead order i).kind? = some k ∧
    k.Allows (s.entryHead order i) (s.word order (i + 12)) (s.partNames order i k)

/-- The code with which the entry at offset `i` is refused. -/
def refusal (s : Source) (order : ByteOrder) (i : Nat) : ErrorCode :=
  match (s.entryHead order i).kind? with
  | some k => k.refusal
  | none => .invalidBtfKind

/-- There is a zero byte at an address or behind it. -/
def EndsString (s : Source) (address : Int) : Prop :=
  ∃ i stop : Nat, address = i ∧ i ≤ stop ∧ s.bytes[stop]? = some 0

end Source

/-- A name that ends in the blob has a text, with the codec and the handler that names have by
default. -/
theorem Names.exists_text {header : Header} {s : Source} {offset : Nat}
    (h : s.EndsString (header.stringAddress offset)) :
    ∃ t, Names.text ⟨header, {}⟩ s offset = .ok t := by
  obtain ⟨i, stop, haddress, hle, hstop⟩ := h
  obtain ⟨hlt, hzero⟩ := Array.getElem?_eq_some_iff.mp hstop
  obtain ⟨bs, hbs⟩ := Read.exists_hasString hle hlt hzero
  obtain ⟨t, ht⟩ := Text.decode_replace bs
  exact ⟨t, Names.text_ok_iff.mpr ⟨i, bs, haddress, hbs, ht⟩⟩

namespace Entry

variable {α β : Type} {e : Entry} {code : ErrorCode} {p q : Prop} {s : Source} {c : Cursor}

/-! ## Outcomes that are decided -/

/-- An outcome is a result if `p` holds, and otherwise a violation with a code. -/
def Decides (e : Entry) (code : ErrorCode) (p : Prop) (r : Except Fault α) : Prop :=
  (p ∧ ∃ a, r = .ok a) ∨
    (¬ p ∧ ∃ what : Violation, what.code = code ∧ r = .error (.invalid e.offset e.head what))

theorem Decides.congr {r : Except Fault α} (h : e.Decides code p r) (hpq : p ↔ q) :
    e.Decides code q r := propext hpq ▸ h

theorem decides_pure (a : α) : e.Decides code True ((pure a : Read Fault α).outcome s c) :=
  .inl ⟨trivial, a, rfl⟩

theorem decides_refuse {what : Violation} (hwhat : what.code = code) :
    e.Decides code False ((e.refuse what : Read Fault α).outcome s c) :=
  .inr ⟨id, what, hwhat, rfl⟩

/-- An action is decided by what decides the one after its first step, if that step succeeds. -/
theorem Decides.after {n : Nat} {m : Read Fault α} {f : α → Read Fault β} {a : α}
    (hm : Read.Consumes n m) (ha : m.outcome s c = .ok a)
    (h : e.Decides code p ((f a).outcome s (c.skip n))) :
    e.Decides code p ((m >>= f).outcome s c) := by
  rw [Read.outcome_bind hm, ha]
  exact h

theorem Decides.require {f : Unit → Read Fault α} [Decidable p] {what : Violation}
    (hwhat : what.code = code) (h : p → e.Decides code q ((f ()).outcome s c)) :
    e.Decides code (p ∧ q) ((e.require p what >>= f).outcome s c) := by
  rw [outcome_require_bind]
  by_cases hp : p
  · rw [if_pos hp]
    exact (h hp).congr ⟨fun hq => ⟨hp, hq⟩, And.right⟩
  · rw [if_neg hp]
    exact .inr ⟨fun h => hp h.1, what, hwhat, rfl⟩

theorem Decides.map {n : Nat} {m : Read Fault α} {g : α → β} (hm : Read.Consumes n m)
    (h : e.Decides code p (m.outcome s c)) :
    e.Decides code p ((m >>= fun a => pure (g a)).outcome s c) := by
  rw [Read.outcome_bind hm]
  rcases h with ⟨hp, a, ha⟩ | ⟨hp, what, hwhat, herror⟩
  · rw [ha]
    exact .inl ⟨hp, g a, rfl⟩
  · rw [herror]
    exact .inr ⟨hp, what, hwhat, rfl⟩

/-- An optional name is read if there is a text for every offset but zero. -/
theorem exists_name (hc : c.IsOpen) {offset : Nat}
    (h : offset ≠ 0 → ∃ t, e.names.text s offset = .ok t) :
    ∃ name, (e.names.get? offset).outcome s c = .ok name := by
  rw [Names.outcome_get? hc]
  by_cases h0 : offset = 0
  · exact ⟨none, if_pos h0⟩
  · obtain ⟨t, ht⟩ := h h0
    rw [if_neg h0, ht]
    exact ⟨some t, rfl⟩

/-- **Repetitions are decided** by what decides each of them. -/
theorem decides_times {k : Nat} {m : Read Fault α} (hm : Read.Consumes k m) (n : Nat)
    {P : Nat → Prop} (h : ∀ j < n, e.Decides code (P j) (m.outcome s (c.skip (k * j)))) :
    e.Decides code (∀ j < n, P j) ((m.times n).outcome s c) := by
  -- the parts are decided one after the other, so that the first one that is refused stops the rest
  induction n generalizing c P with
  | zero => exact .inl ⟨fun j hj => absurd hj (Nat.not_lt_zero j), [], rfl⟩
  | succ n ih =>
    have hfirst := h 0 (Nat.succ_pos n)
    rw [Nat.mul_zero, Cursor.skip_zero] at hfirst
    have hrest := ih (c := c.skip k) (P := fun j => P (j + 1)) (by
      intro j hj
      have hstep := h (j + 1) (Nat.succ_lt_succ hj)
      rwa [Nat.mul_succ, Nat.add_comm (k * j), ← Cursor.skip_skip] at hstep)
    rw [Read.outcome_times_succ hm, Nat.forall_lt_succ_left]
    rcases hfirst with ⟨hp, a, ha⟩ | ⟨hp, what, hwhat, herror⟩
    · rcases hrest with ⟨hq, as, has⟩ | ⟨hq, what, hwhat, herror⟩
      · exact .inl ⟨⟨hp, hq⟩, a :: as, bind_eq_ok.mpr ⟨a, ha, bind_eq_ok.mpr ⟨as, has, rfl⟩⟩⟩
      · refine .inr ⟨fun h => hq h.2, what, hwhat, ?_⟩
        rw [ha]
        change (m.times n).outcome s (c.skip k) >>= _ = _
        rw [herror]
        rfl
    · rw [herror]
      exact .inr ⟨fun h => hp h.1, what, hwhat, rfl⟩

/-! ## Parts -/

theorem decides_member (hc : c.IsOpen) (hin : c.offset + 12 ≤ s.bytes.size)
    (hname : s.word c.order c.offset ≠ 0 →
      ∃ t, e.names.text s (s.word c.order c.offset) = .ok t) :
    e.Decides code True (e.member.outcome s c) := by
  obtain ⟨name, hname⟩ := exists_name (hc.skip 4) hname
  have h₁ := outcome_u32 hc (s := s) (by omega)
  have h₂ := outcome_u32 (hc.skip 4) (s := s) (by rw [Cursor.skip_offset]; omega)
  have h₃ := outcome_u32 ((hc.skip 4).skip 4) (s := s) (by
    rw [Cursor.skip_offset, Cursor.skip_offset]; omega)
  unfold member
  exact .after consumes_u32 h₁ (.after (e.names.consumes_get? _) hname
    (.after consumes_u32 h₂ (.after consumes_u32 h₃ (decides_pure _))))

theorem decides_param (hc : c.IsOpen) (hin : c.offset + 8 ≤ s.bytes.size)
    (hname : s.word c.order c.offset ≠ 0 →
      ∃ t, e.names.text s (s.word c.order c.offset) = .ok t) :
    e.Decides code True (e.param.outcome s c) := by
  obtain ⟨name, hname⟩ := exists_name (hc.skip 4) hname
  have h₁ := outcome_u32 hc (s := s) (by omega)
  have h₂ := outcome_u32 (hc.skip 4) (s := s) (by rw [Cursor.skip_offset]; omega)
  unfold param
  exact .after consumes_u32 h₁ (.after (e.names.consumes_get? _) hname
    (.after consumes_u32 h₂ (decides_pure _)))

/-- A named constant is refused exactly if it has no name. -/
theorem decides_enumerator (hc : c.IsOpen) (hin : c.offset + 8 ≤ s.bytes.size)
    (hname : s.word c.order c.offset ≠ 0 →
      ∃ t, e.names.text s (s.word c.order c.offset) = .ok t) :
    e.Decides .invalidEnumEncoding (s.word c.order c.offset ≠ 0) (e.enumerator.outcome s c) := by
  have h₁ := outcome_u32 hc (s := s) (by omega)
  have h₂ := outcome_u32 (hc.skip 4) (s := s) (by rw [Cursor.skip_offset]; omega)
  unfold enumerator
  refine .after consumes_u32 h₁ (Decides.congr (.require (q := True) rfl fun hne => ?_)
    (and_true _).to_iff)
  obtain ⟨t, ht⟩ := hname hne
  have hget := (Names.outcome_get (hc.skip 4)).trans ht
  exact .after (e.names.consumes_get _) hget (.after consumes_u32 h₂ (decides_pure _))

/-! ## The kinds -/

theorem ofBits?_isSome_iff (word : Nat) :
    (IntEncoding.ofBits? (word / 0x1000000 % 0x10)).isSome ↔ Kind.OneEncoding word := by
  have hbits : word / 0x1000000 % 2 + word / 0x2000000 % 2 + word / 0x4000000 % 2 =
      word / 0x1000000 % 0x10 % 8 % 2 + word / 0x1000000 % 0x10 % 8 / 2 % 2 +
        word / 0x1000000 % 0x10 % 8 / 4 := by omega
  have hlt : word / 0x1000000 % 0x10 % 8 < 8 := Nat.mod_lt _ (by decide)
  unfold Kind.OneEncoding IntEncoding.ofBits?
  rw [hbits]
  generalize word / 0x1000000 % 0x10 % 8 = bits at hlt
  revert bits
  decide

theorem decides_intOf (name : Option Text) (word : Nat) :
    e.Decides .invalidIntEncoding (Kind.OneEncoding word ∧
      word % 0x100 ≤ min 128 (8 * e.head.sizeOrType) ∧
        word / 0x10000 % 0x100 + word % 0x100 ≤ 8 * e.head.sizeOrType)
      ((e.intOf name word).outcome s c) := by
  have hsome := ofBits?_isSome_iff word
  unfold intOf
  dsimp only
  cases henc : IntEncoding.ofBits? (word / 0x1000000 % 0x10) with
  | none =>
    rw [henc] at hsome
    refine (decides_refuse rfl).congr ⟨False.elim, fun h => ?_⟩
    cases hsome.mpr h.1
  | some encoding =>
    rw [henc] at hsome
    have hone : Kind.OneEncoding word := hsome.mp rfl
    refine (Decides.require rfl fun _ => Decides.require (q := True) rfl fun _ => ?_).congr ?_
    · exact decides_pure _
    constructor
    · rintro ⟨⟨hbits, hfits⟩, hplace, -⟩
      exact ⟨hone, by omega, by omega⟩
    · rintro ⟨-, hfits, hplace⟩
      exact ⟨⟨by omega, by omega⟩, by omega, trivial⟩

theorem decides_int (hc : c.IsOpen) (hin : c.offset + 4 ≤ s.bytes.size) (ps : List Nat)
    (hname : e.head.nameOffset ≠ 0 → ∃ t, e.names.text s e.head.nameOffset = .ok t) :
    e.Decides .invalidIntEncoding (Kind.int.Allows e.head (s.word c.order c.offset) ps)
      (e.int.outcome s c) := by
  obtain ⟨name, hname⟩ := exists_name hc hname
  unfold int
  dsimp only
  refine (Decides.require rfl fun _ => Decides.require rfl fun _ =>
    .after e.consumes_name? hname (.after consumes_u32 (outcome_u32 hc hin)
      (decides_intOf name _))).congr ?_
  rw [and_assoc]
  rfl

theorem decides_ref {kind : RefKind} (hcode : (Violation.refFields kind).code = code) :
    e.Decides code (e.head.nameOffset = 0 ∧ e.head.kindFlag = false ∧ e.head.vlen = 0)
      ((e.ref kind).outcome s c) := by
  refine (Decides.require hcode fun _ => ?_).congr (and_true _).to_iff
  exact decides_pure _

theorem decides_array (hc : c.IsOpen) (hin : c.offset + 12 ≤ s.bytes.size) (w : Nat)
    (ps : List Nat) :
    e.Decides .invalidArrayEncoding (Kind.array.Allows e.head w ps) (e.array.outcome s c) := by
  have h₁ := outcome_u32 hc (s := s) (by omega)
  have h₂ := outcome_u32 (hc.skip 4) (s := s) (by rw [Cursor.skip_offset]; omega)
  have h₃ := outcome_u32 ((hc.skip 4).skip 4) (s := s) (by
    rw [Cursor.skip_offset, Cursor.skip_offset]; omega)
  unfold array
  refine (Decides.require rfl fun _ => .after consumes_u32 h₁ (.after consumes_u32 h₂
    (.after consumes_u32 h₃ ?_))).congr (and_true _).to_iff
  exact decides_pure _

/-- A named entry without payload: what is required of its head says that it has a name. -/
theorem decides_named [Decidable p] (hc : c.IsOpen) {what : Violation} (hwhat : what.code = code)
    {f : Text → TypeInfo} (hp : p → e.head.nameOffset ≠ 0)
    (hname : e.head.nameOffset ≠ 0 → ∃ t, e.names.text s e.head.nameOffset = .ok t) :
    e.Decides code p ((e.require p what >>= fun _ => e.names.get e.head.nameOffset >>= fun t =>
      pure (f t)).outcome s c) := by
  refine (Decides.require hwhat fun h => ?_).congr (and_true _).to_iff
  obtain ⟨t, ht⟩ := hname (hp h)
  exact .after (e.names.consumes_get _) ((Names.outcome_get hc).trans ht) (decides_pure _)

theorem decides_fwd (hc : c.IsOpen)
    (hname : e.head.nameOffset ≠ 0 → ∃ t, e.names.text s e.head.nameOffset = .ok t) :
    e.Decides .invalidFwdEncoding
      (e.head.nameOffset ≠ 0 ∧ e.head.vlen = 0 ∧ e.head.sizeOrType = 0) (e.fwd.outcome s c) :=
  decides_named hc rfl And.left hname

theorem decides_enum (hc : c.IsOpen) (hin : c.offset + 8 * e.head.vlen ≤ s.bytes.size) (w : Nat)
    (hname : e.head.nameOffset ≠ 0 → ∃ t, e.names.text s e.head.nameOffset = .ok t)
    (hnames : ∀ j < e.head.vlen, s.word c.order (c.offset + 8 * j) ≠ 0 →
      ∃ t, e.names.text s (s.word c.order (c.offset + 8 * j)) = .ok t) :
    e.Decides .invalidEnumEncoding (Kind.enum.Allows e.head w
      ((List.range e.head.vlen).map fun j => s.word c.order (c.offset + 8 * j)))
      (e.enum.outcome s c) := by
  have htimes := decides_times (s := s) (c := c) e.consumes_enumerator e.head.vlen fun j hj =>
    decides_enumerator (hc.skip _) (by rw [Cursor.skip_offset]; omega) (hnames j hj)
  obtain ⟨name, hname⟩ := exists_name hc hname
  unfold enum
  dsimp only
  refine (Decides.require rfl fun _ => Decides.require rfl fun _ => Decides.require rfl fun _ =>
    .after e.consumes_name? hname (.map (e.consumes_enumerator.times _) htimes)).congr ?_
  rw [Kind.Allows, List.forall_mem_map, Nat.pos_iff_ne_zero]
  simp only [List.mem_range]
  rfl

theorem decides_funcProto (hc : c.IsOpen) (hin : c.offset + 8 * e.head.vlen ≤ s.bytes.size)
    (w : Nat) (ps : List Nat)
    (hnames : ∀ j < e.head.vlen, s.word c.order (c.offset + 8 * j) ≠ 0 →
      ∃ t, e.names.text s (s.word c.order (c.offset + 8 * j)) = .ok t) :
    e.Decides .invalidFuncProtoEncoding (Kind.funcProto.Allows e.head w ps)
      (e.funcProto.outcome s c) := by
  have htimes : e.Decides .invalidFuncProtoEncoding (∀ j < e.head.vlen, True)
      ((e.param.times e.head.vlen).outcome s c) :=
    decides_times e.consumes_param e.head.vlen fun j hj =>
      decides_param (hc.skip _) (by rw [Cursor.skip_offset]; omega) (hnames j hj)
  unfold funcProto
  refine (Decides.require rfl fun _ => .map (e.consumes_param.times _) htimes).congr ?_
  exact ⟨And.left, fun h => ⟨h, fun _ _ => trivial⟩⟩

theorem decides_composite (hc : c.IsOpen) (hin : c.offset + 12 * e.head.vlen ≤ s.bytes.size)
    (kind : CompositeKind)
    (hname : e.head.nameOffset ≠ 0 → ∃ t, e.names.text s e.head.nameOffset = .ok t)
    (hnames : ∀ j < e.head.vlen, s.word c.order (c.offset + 12 * j) ≠ 0 →
      ∃ t, e.names.text s (s.word c.order (c.offset + 12 * j)) = .ok t) :
    e.Decides .invalidStructUnionEncoding True ((e.composite kind).outcome s c) := by
  have htimes : e.Decides .invalidStructUnionEncoding (∀ j < e.head.vlen, True)
      ((e.member.times e.head.vlen).outcome s c) :=
    decides_times e.consumes_member e.head.vlen fun j hj =>
      decides_member (hc.skip _) (by rw [Cursor.skip_offset]; omega) (hnames j hj)
  obtain ⟨name, hname⟩ := exists_name hc hname
  unfold composite
  exact (Decides.after e.consumes_name? hname (.map (e.consumes_member.times _) htimes)).congr
    ⟨fun _ => trivial, fun _ _ _ => trivial⟩

/-- **An entry is decided** by what its kind asks for. -/
theorem decides_infoOf {k : Kind} (hc : c.IsOpen)
    (hin : c.offset + k.payloadSize e.head.vlen ≤ s.bytes.size) {ps : List Nat}
    (hps : k.partSize ≠ 0 →
      ps = (List.range e.head.vlen).map fun j => s.word c.order (c.offset + k.partSize * j))
    (hname : e.head.nameOffset ≠ 0 → ∃ t, e.names.text s e.head.nameOffset = .ok t)
    (hnames : ∀ offset ∈ ps, offset ≠ 0 → ∃ t, e.names.text s offset = .ok t) :
    e.Decides k.refusal (k.Allows e.head (s.word c.order c.offset) ps)
      ((e.infoOf k).outcome s c) := by
  have hparts : k.partSize ≠ 0 → ∀ j < e.head.vlen,
      s.word c.order (c.offset + k.partSize * j) ≠ 0 →
        ∃ t, e.names.text s (s.word c.order (c.offset + k.partSize * j)) = .ok t := by
    intro hk j hj
    refine hnames _ ?_
    rw [hps hk]
    exact List.mem_map_of_mem (List.mem_range.mpr hj)
  cases k with
  | int => exact decides_int hc hin ps hname
  | ptr => exact decides_ref rfl
  | const => exact decides_ref rfl
  | volatile => exact decides_ref rfl
  | array => exact decides_array hc hin _ ps
  | typedef => exact decides_named (p := e.IsNamed) hc rfl And.left hname
  | func => exact decides_named (p := e.IsNamed) hc rfl And.left hname
  | fwd => exact decides_fwd hc hname
  | enum =>
    rw [hps (by decide)]
    exact decides_enum hc hin _ hname (hparts (by decide))
  | funcProto => exact decides_funcProto hc hin _ ps (hparts (by decide))
  | struct => exact decides_composite hc hin .struct hname (hparts (by decide))
  | union => exact decides_composite hc hin .union hname (hparts (by decide))

end Entry

namespace Names

variable {header : Header} {s : Source} {c : Cursor}

/-- The entry at the cursor is decided by whether it does what its kind asks for. -/
theorem decides_entry (hc : c.IsOpen)
    (hin : c.offset + 12 + (s.entryHead c.order c.offset).payloadSize ≤ s.bytes.size)
    (hnames : ∀ offset ∈ s.entryNames c.order c.offset,
      offset ≠ 0 → s.EndsString (header.stringAddress offset)) :
    Entry.Decides ⟨⟨header, {}⟩, c.offset, s.entryHead c.order c.offset⟩
      (s.refusal c.order c.offset) (s.AllowsEntry c.order c.offset)
      ((Names.entry ⟨header, {}⟩).outcome s c) := by
  have hhead : Read.typeHeader.outcome s c = .ok (s.entryHead c.order c.offset) :=
    (Read.outcome_typeHeader_ok_iff hc).mpr ⟨by omega, rfl⟩
  rw [outcome_entry, hhead]
  change Entry.Decides _ _ _ ((Entry.info ⟨⟨header, {}⟩, c.offset, _⟩).outcome s (c.skip 12))
  unfold Source.entryNames at hnames
  unfold Entry.info Source.refusal Source.AllowsEntry
  dsimp only
  cases hk : (s.entryHead c.order c.offset).kind? with
  | none =>
    refine (Entry.decides_refuse rfl).congr ⟨False.elim, ?_⟩
    rintro ⟨k, h, -⟩
    cases h
  | some k =>
    rw [hk] at hnames
    obtain ⟨hname, hparts⟩ := List.forall_mem_cons.mp hnames
    rw [TypeHeader.payloadSize, hk] at hin
    have hps : k.partSize ≠ 0 → s.partNames c.order c.offset k =
        (List.range (s.entryHead c.order c.offset).vlen).map fun j =>
          s.word c.order (c.offset + 12 + k.partSize * j) := fun hsize => if_neg hsize
    have hdecides := Entry.decides_infoOf (s := s)
      (e := ⟨⟨header, {}⟩, c.offset, s.entryHead c.order c.offset⟩) (hc.skip 12) hin hps
      (fun h => exists_text (hname h)) fun offset hoffset h => exists_text (hparts offset hoffset h)
    refine hdecides.congr ⟨fun h => ⟨k, rfl, h⟩, ?_⟩
    rintro ⟨k', hk', h⟩
    cases hk'
    exact h

/-- **An entry is refused exactly if it is of no kind that is decoded or breaks what its kind asks
for**, and the report has the code of its kind and the range of the whole entry. -/
theorem entry_refused_iff (hc : c.IsOpen)
    (hin : c.offset + 12 + (s.entryHead c.order c.offset).payloadSize ≤ s.bytes.size)
    (hnames : ∀ offset ∈ s.entryNames c.order c.offset,
      offset ≠ 0 → s.EndsString (header.stringAddress offset)) :
    ((∃ fault, (Names.entry ⟨header, {}⟩).outcome s c = .error fault) ↔
      ¬ s.AllowsEntry c.order c.offset) ∧
    ∀ fault, (Names.entry ⟨header, {}⟩).outcome s c = .error fault →
      ∃ details, fault.report? = some ⟨s.refusal c.order c.offset,
        some ⟨c.offset, (12 + (s.entryHead c.order c.offset).payloadSize : Nat)⟩, details⟩ := by
  rcases decides_entry hc hin hnames with ⟨hallows, info, hok⟩ | ⟨hallows, what, hwhat, herror⟩
  · rw [hok]
    refine ⟨⟨?_, fun h => absurd hallows h⟩, fun fault h => by cases h⟩
    rintro ⟨fault, h⟩
    cases h
  · rw [herror]
    refine ⟨⟨fun _ => hallows, fun _ => ⟨_, rfl⟩⟩, ?_⟩
    rintro fault ⟨⟩
    exact ⟨some what.details, by rw [Fault.report?, hwhat]; rfl⟩

/-- A string, and then a big endian enumeration whose second constant has no name. -/
def unnamedConstant : Source where
  bytes := #[65, 0, 0, 0, 0, 0, 6, 0, 0, 2, 0, 0, 0, 4, 0, 0, 0, 1, 0, 0, 0, 9, 0, 0, 0, 0, 0, 0, 0, 1]

theorem entry_refused_unnamed :
    let header : Header := ⟨0, 0, 0, 0, 0, 0, -1, 0⟩
    let c : Cursor := { offset := 2, order := .big }
    (c.IsOpen ∧ c.offset + 12 + (unnamedConstant.entryHead c.order c.offset).payloadSize ≤
      unnamedConstant.bytes.size ∧ ∀ offset ∈ unnamedConstant.entryNames c.order c.offset,
        offset ≠ 0 → unnamedConstant.EndsString (header.stringAddress offset)) ∧
    ((∃ fault, (Names.entry ⟨header, {}⟩).outcome unnamedConstant c = .error fault) ↔
      ¬ unnamedConstant.AllowsEntry c.order c.offset) ∧
    ∀ fault, (Names.entry ⟨header, {}⟩).outcome unnamedConstant c = .error fault →
      ∃ details, fault.report? = some ⟨unnamedConstant.refusal c.order c.offset, some ⟨c.offset,
        (12 + (unnamedConstant.entryHead c.order c.offset).payloadSize : Nat)⟩, details⟩ := by
  intro header c
  have hc : c.IsOpen := Cursor.isOpen_start
  have hin : c.offset + 12 + (unnamedConstant.entryHead c.order c.offset).payloadSize ≤
      unnamedConstant.bytes.size := by decide
  have hoffsets : unnamedConstant.entryNames c.order c.offset = [0, 1, 0] := by decide
  have hnames : ∀ offset ∈ unnamedConstant.entryNames c.order c.offset,
      offset ≠ 0 → unnamedConstant.EndsString (header.stringAddress offset) := by
    rw [hoffsets]
    intro offset hoffset h0
    have hone : offset = 1 := by simp at hoffset; omega
    rw [hone]
    exact ⟨0, 1, by decide, by decide, by decide⟩
  exact ⟨⟨hc, hin, hnames⟩, entry_refused_iff hc hin hnames⟩

end Names

end Btf
