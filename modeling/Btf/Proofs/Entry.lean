import Btf.Proofs.Encoding

/-!
# When an entry is read

For each kind of entry, when reading it succeeds and what it gives: what its head has to be, which
words follow, and which names the offsets in them stand for.

* `Entry.require_bind_ok_iff`, `Entry.u32_bind_ok_iff`, `Entry.get?_bind_ok_iff`: one step at a time;
* `Entry.PartsWritten`, **`Entry.times_ok_iff`**: the parts of a type, by induction on their number;
* `Entry.int_ok_iff`, …, `Entry.composite_ok_iff`: the entries of each kind.
-/

namespace Btf.Entry

variable {e : Entry} {s : Source} {c : Cursor} {info : TypeInfo} {α : Type} {a : α}

/-! ## One step at a time -/

theorem outcome_require_bind (p : Prop) [Decidable p] (what : Violation)
    (f : Unit → Read Fault α) : (e.require p what >>= f).outcome s c =
      if p then (f ()).outcome s c else .error (.invalid e.offset e.head what) := by
  rw [Read.outcome_bind (e.consumes_require p what), require]
  split <;> rfl

theorem require_bind_ok_iff {p : Prop} [Decidable p] {what : Violation}
    {f : Unit → Read Fault α} :
    (e.require p what >>= f).outcome s c = .ok a ↔ p ∧ (f ()).outcome s c = .ok a := by
  rw [outcome_require_bind]
  by_cases hp : p
  · rw [if_pos hp]
    exact ⟨fun h => ⟨hp, h⟩, And.right⟩
  · rw [if_neg hp]
    exact ⟨fun h => (by cases h), fun h => absurd h.1 hp⟩

theorem outcome_u32 (hc : c.IsOpen) (h : c.offset + 4 ≤ s.bytes.size) :
    u32.outcome s c = .ok (s.word c.order c.offset) := by
  rw [u32, Read.outcome_mapError, Read.u32, Read.outcome_word hc h]
  rfl

theorem u32_bind_ok_iff (hc : c.IsOpen) {f : Nat → Read Fault α} :
    (u32 >>= f).outcome s c = .ok a ↔ c.offset + 4 ≤ s.bytes.size ∧
      (f (s.word c.order c.offset)).outcome s (c.skip 4) = .ok a := by
  rw [Read.outcome_bind_ok_iff consumes_u32]
  constructor
  · rintro ⟨w, hw, h⟩
    rw [u32, Read.outcome_mapError, mapError_eq_ok, Read.u32, Read.outcome_word_ok_iff hc] at hw
    obtain ⟨hsize, rfl⟩ := hw
    exact ⟨hsize, h⟩
  · rintro ⟨hsize, h⟩
    exact ⟨_, outcome_u32 hc hsize, h⟩

theorem get_bind_ok_iff (hc : c.IsOpen) {offset : Nat} {f : Text → Read Fault α} :
    (e.names.get offset >>= f).outcome s c = .ok a ↔
      ∃ t, e.names.text s offset = .ok t ∧ (f t).outcome s c = .ok a := by
  rw [Read.outcome_bind_ok_iff (e.names.consumes_get offset), Names.outcome_get hc]
  rfl

theorem get?_bind_ok_iff (hc : c.IsOpen) {offset : Nat} {f : Option Text → Read Fault α} :
    (e.names.get? offset >>= f).outcome s c = .ok a ↔
      ∃ name, e.names.Denotes s offset name ∧ (f name).outcome s c = .ok a := by
  rw [Read.outcome_bind_ok_iff (e.names.consumes_get? offset)]
  simp only [Names.outcome_get?_ok_iff hc, Cursor.skip_zero]

theorem pure_ok_iff {b : α} : (pure b : Read Fault α).outcome s c = .ok a ↔ b = a := by
  rw [Read.outcome_pure]
  exact ⟨Except.ok.inj, congrArg _⟩

/-! ## Parts -/

theorem member_ok_iff (hc : c.IsOpen) {m : Member} : e.member.outcome s c = .ok m ↔
    c.offset + 12 ≤ s.bytes.size ∧ m.kindFlag = e.head.kindFlag ∧
      ∃ o, e.names.Denotes s o m.part.name ∧ s.words c.order c.offset 3 = m.part.row o := by
  unfold member
  rw [u32_bind_ok_iff hc]
  simp only [get?_bind_ok_iff (hc.skip 4), u32_bind_ok_iff (hc.skip 4),
    u32_bind_ok_iff ((hc.skip 4).skip 4), pure_ok_iff, Cursor.skip_offset, Cursor.skip_order]
  constructor
  · rintro ⟨-, name, hname, -, hsize, rfl⟩
    exact ⟨by omega, rfl, _, hname, rfl⟩
  · rintro ⟨hsize, hflag, o, hname, hwords⟩
    obtain ⟨name, type, offset, kindFlag⟩ := m
    simp only [Source.words, TypePart.row, Member.part, List.cons.injEq] at hwords
    obtain ⟨rfl, rfl, rfl, -⟩ := hwords
    exact ⟨by omega, name, hname, by omega, by omega, by rw [← hflag]⟩

theorem enumerator_ok_iff (hc : c.IsOpen) {x : Enumerator} : e.enumerator.outcome s c = .ok x ↔
    c.offset + 8 ≤ s.bytes.size ∧ (-0x80000000 ≤ x.value ∧ x.value < 0x80000000) ∧
      ∃ o, e.names.Denotes s o x.part.name ∧ s.words c.order c.offset 2 = x.part.row o := by
  unfold enumerator
  rw [u32_bind_ok_iff hc, require_bind_ok_iff]
  simp only [get_bind_ok_iff (hc.skip 4), u32_bind_ok_iff (hc.skip 4), pure_ok_iff,
    Cursor.skip_offset, Cursor.skip_order]
  constructor
  · rintro ⟨-, hne, t, ht, hsize, rfl⟩
    have hname : e.names.Denotes s (s.word c.order c.offset) (some t) :=
      Names.denotes_some_iff.mpr ⟨hne, ht⟩
    dsimp only [Enumerator.part]
    refine ⟨by omega, signed_range _, _, hname, ?_⟩
    simp only [Source.words, TypePart.row, unsigned_signed (s.word_lt _ _)]
  · rintro ⟨hsize, hrange, o, hname, hwords⟩
    obtain ⟨name, value⟩ := x
    obtain ⟨hne, ht⟩ := Names.denotes_some_iff.mp hname
    simp only [Source.words, TypePart.row, Enumerator.part, List.cons.injEq] at hwords
    obtain ⟨rfl, hvalue, -⟩ := hwords
    exact ⟨by omega, hne, name, ht, by omega, by rw [hvalue, signed_unsigned hrange.1 hrange.2]⟩

theorem param_ok_iff (hc : c.IsOpen) {p : Param} : e.param.outcome s c = .ok p ↔
    c.offset + 8 ≤ s.bytes.size ∧ True ∧
      ∃ o, e.names.Denotes s o p.part.name ∧ s.words c.order c.offset 2 = p.part.row o := by
  unfold param
  rw [u32_bind_ok_iff hc]
  simp only [get?_bind_ok_iff (hc.skip 4), u32_bind_ok_iff (hc.skip 4), pure_ok_iff,
    Cursor.skip_offset, Cursor.skip_order]
  constructor
  · rintro ⟨-, name, hname, hsize, rfl⟩
    exact ⟨by omega, trivial, _, hname, rfl⟩
  · rintro ⟨hsize, -, o, hname, hwords⟩
    obtain ⟨name, type⟩ := p
    simp only [Source.words, TypePart.row, Param.part, List.cons.injEq] at hwords
    obtain ⟨rfl, rfl, -⟩ := hwords
    exact ⟨by omega, name, hname, by omega, rfl⟩

/-- The words from an offset on are those of the given parts, for offsets that stand for their
names. -/
def PartsWritten (names : Names) (s : Source) (ws : List Nat) (parts : List TypePart) : Prop :=
  ∃ os, List.Forall₂ (names.Denotes s) os (parts.map TypePart.name) ∧
    ws = (List.zipWith TypePart.row os parts).flatten

theorem partsWritten_cons_iff {names : Names} {ws : List Nat} {k : Nat} {v : List Nat} {p : TypePart}
    {ps : List TypePart} (hv : v.length = k) (hp : p.words.length + 1 = k) :
    PartsWritten names s (v ++ ws) (p :: ps) ↔
      (∃ o, names.Denotes s o p.name ∧ v = p.row o) ∧ PartsWritten names s ws ps := by
  constructor
  · rintro ⟨os, hos, hws⟩
    rw [List.map_cons] at hos
    cases hos with
    | cons ho hos =>
      rw [List.zipWith_cons_cons, List.flatten_cons] at hws
      obtain ⟨h₁, h₂⟩ := List.append_inj hws (by rw [hv, TypePart.row, List.length_cons, hp])
      exact ⟨⟨_, ho, h₁⟩, _, hos, h₂⟩
  · rintro ⟨⟨o, ho, rfl⟩, os, hos, rfl⟩
    exact ⟨o :: os, .cons ho hos, rfl⟩

/-- **An action repeated reads parts one after the other**, if done once it reads a part of `k`
words. -/
theorem times_ok_iff {names : Names} {m : Read Fault α} {k : Nat} {part : α → TypePart} {P : α → Prop}
    (hm : Read.Consumes (4 * k) m) (hpart : ∀ a, (part a).words.length + 1 = k)
    (hone : ∀ {c : Cursor}, c.IsOpen → ∀ {a}, m.outcome s c = .ok a ↔
      c.offset + 4 * k ≤ s.bytes.size ∧ P a ∧
        ∃ o, names.Denotes s o (part a).name ∧ s.words c.order c.offset k = (part a).row o)
    (n : Nat) (hc : c.IsOpen) (hsize : c.offset ≤ s.bytes.size) (as : List α) :
    (m.times n).outcome s c = .ok as ↔ as.length = n ∧ (∀ a ∈ as, P a) ∧
      c.offset + 4 * (k * n) ≤ s.bytes.size ∧
        PartsWritten names s (s.words c.order c.offset (k * n)) (as.map part) := by
  induction n generalizing c as with
  | zero =>
    rw [Read.outcome_times_zero, Nat.mul_zero, Source.words]
    constructor
    · intro h
      cases h
      exact ⟨rfl, List.forall_mem_nil _, hsize, [], .nil, rfl⟩
    · rintro ⟨hlen, -, -, -⟩
      rw [List.eq_nil_of_length_eq_zero hlen]
  | succ n ih =>
    have hsplit : s.words c.order c.offset (k * (n + 1)) = s.words c.order c.offset k ++
        s.words c.order (c.skip (4 * k)).offset (k * n) := by
      rw [Nat.mul_succ, Nat.add_comm, Source.words_add]
      rfl
    rw [Read.outcome_times_succ_ok_iff hm, hsplit]
    constructor
    · rintro ⟨b, bs, hb, hbs, rfl⟩
      obtain ⟨hb₁, hb₂, hb₃⟩ := (hone hc).mp hb
      obtain ⟨hlen, hall, hle, hrows⟩ := (ih (hc.skip _) hb₁ bs).mp hbs
      rw [Cursor.skip_offset] at hle
      refine ⟨by rw [List.length_cons, hlen], ?_, by rw [Nat.mul_succ]; omega, ?_⟩
      · intro x hx
        rcases List.mem_cons.mp hx with rfl | hx
        · exact hb₂
        · exact hall x hx
      · exact (partsWritten_cons_iff (s.length_words _ _ k) (hpart b)).mpr ⟨hb₃, hrows⟩
    · rintro ⟨hlen, hall, hle, hrows⟩
      rw [Nat.mul_succ] at hle
      obtain ⟨b, bs, rfl⟩ := List.exists_cons_of_length_eq_add_one hlen
      rw [List.map_cons] at hrows
      obtain ⟨hb, hbs⟩ := (partsWritten_cons_iff (s.length_words _ _ k) (hpart b)).mp hrows
      refine ⟨b, bs, (hone hc).mpr ⟨by omega, hall b List.mem_cons_self, hb⟩,
        (ih (hc.skip _) (by rw [Cursor.skip_offset]; omega) bs).mpr ⟨Nat.succ.inj hlen,
          fun x hx => hall x (List.mem_cons_of_mem b hx), by rw [Cursor.skip_offset]; omega, hbs⟩,
        rfl⟩

/-! ## The kinds -/

theorem intOf_ok_iff {name : Option Text} {w : Nat} (hw : w < 0x100000000) :
    (e.intOf name w).outcome s c = .ok info ↔ ∃ bits bitOffset encoding,
      Agree intFree w (intWord bits bitOffset encoding) ∧ bits ≤ 128 ∧
        bitOffset + bits ≤ 8 * e.head.sizeOrType ∧ bitOffset < 0x100 ∧
          info = .int name e.head.sizeOrType bits bitOffset encoding := by
  unfold intOf
  dsimp only
  cases henc : IntEncoding.ofBits? (w / 0x1000000 % 0x10) with
  | none =>
    refine ⟨fun h => (by cases h), ?_⟩
    rintro ⟨bits, bitOffset, encoding, hagree, hbits, -, hoffset, rfl⟩
    obtain ⟨-, -, hsome⟩ := (intWord_agree_iff hw (by omega) hoffset).mp hagree
    rw [henc] at hsome
    cases hsome
  | some encoding =>
    dsimp only
    rw [require_bind_ok_iff, require_bind_ok_iff, pure_ok_iff]
    constructor
    · rintro ⟨⟨hbits, -⟩, hplace, rfl⟩
      refine ⟨_, _, encoding, ?_, hbits, by omega, Nat.mod_lt _ (by decide), rfl⟩
      exact (intWord_agree_iff hw (by omega) (Nat.mod_lt _ (by decide))).mpr ⟨rfl, rfl, henc⟩
    · rintro ⟨bits, bitOffset, encoding', hagree, hbits, hplace, hoffset, rfl⟩
      obtain ⟨rfl, rfl, hsome⟩ := (intWord_agree_iff hw (by omega) hoffset).mp hagree
      cases henc.symm.trans hsome
      exact ⟨⟨hbits, by omega⟩, by omega, rfl⟩

theorem int_ok_iff (hc : c.IsOpen) : e.int.outcome s c = .ok info ↔
    e.head.kindFlag = false ∧ e.head.vlen = 0 ∧ e.head.sizeOrType ∈ intSizes ∧
      c.offset + 4 ≤ s.bytes.size ∧ ∃ name bits bitOffset encoding,
        e.names.Denotes s e.head.nameOffset name ∧
          Agree intFree (s.word c.order c.offset) (intWord bits bitOffset encoding) ∧ bits ≤ 128 ∧
            bitOffset + bits ≤ 8 * e.head.sizeOrType ∧ bitOffset < 0x100 ∧
              info = .int name e.head.sizeOrType bits bitOffset encoding := by
  unfold int name?
  dsimp only
  simp only [require_bind_ok_iff, get?_bind_ok_iff hc, u32_bind_ok_iff hc,
    intOf_ok_iff (s.word_lt _ _)]
  constructor
  · rintro ⟨⟨hflag, hvlen⟩, hsize, name, hname, hle, bits, bitOffset, encoding, h⟩
    exact ⟨hflag, hvlen, hsize, hle, name, bits, bitOffset, encoding, hname, h⟩
  · rintro ⟨hflag, hvlen, hsize, hle, name, bits, bitOffset, encoding, hname, h⟩
    exact ⟨⟨hflag, hvlen⟩, hsize, name, hname, hle, bits, bitOffset, encoding, h⟩

theorem ref_ok_iff {kind : RefKind} : (e.ref kind).outcome s c = .ok info ↔
    (e.head.nameOffset = 0 ∧ e.head.kindFlag = false ∧ e.head.vlen = 0) ∧
      info = .ref kind e.head.sizeOrType := by
  unfold ref
  rw [require_bind_ok_iff, pure_ok_iff, eq_comm (a := info)]

theorem array_ok_iff (hc : c.IsOpen) : e.array.outcome s c = .ok info ↔
    (e.head.nameOffset = 0 ∧ e.head.kindFlag = false ∧ e.head.vlen = 0 ∧ e.head.sizeOrType = 0) ∧
      c.offset + 12 ≤ s.bytes.size ∧ ∃ element index count,
        s.words c.order c.offset 3 = [element, index, count] ∧ info = .array element index count := by
  unfold array
  rw [require_bind_ok_iff, u32_bind_ok_iff hc, u32_bind_ok_iff (hc.skip 4),
    u32_bind_ok_iff ((hc.skip 4).skip 4), pure_ok_iff]
  simp only [Cursor.skip_offset, Cursor.skip_order]
  constructor
  · rintro ⟨hhead, -, -, hle, rfl⟩
    exact ⟨hhead, by omega, _, _, _, rfl, rfl⟩
  · rintro ⟨hhead, hle, element, index, count, hwords, rfl⟩
    simp only [Source.words, List.cons.injEq] at hwords
    obtain ⟨rfl, rfl, rfl, -⟩ := hwords
    exact ⟨hhead, by omega, by omega, by omega, rfl⟩

theorem isNamed_get_ok_iff (hc : c.IsOpen) {what : Violation} {f : Text → TypeInfo} :
    (e.require e.IsNamed what >>= fun _ => e.names.get e.head.nameOffset >>= fun t =>
      pure (f t)).outcome s c = .ok info ↔ e.head.kindFlag = false ∧ e.head.vlen = 0 ∧
        ∃ t, e.names.Denotes s e.head.nameOffset (some t) ∧ info = f t := by
  rw [require_bind_ok_iff, get_bind_ok_iff hc]
  simp only [pure_ok_iff, Names.denotes_some_iff]
  constructor
  · rintro ⟨⟨hne, hflag, hvlen⟩, t, ht, rfl⟩
    exact ⟨hflag, hvlen, t, ⟨hne, ht⟩, rfl⟩
  · rintro ⟨hflag, hvlen, t, ⟨hne, ht⟩, rfl⟩
    exact ⟨⟨hne, hflag, hvlen⟩, t, ht, rfl⟩

theorem fwd_ok_iff (hc : c.IsOpen) : e.fwd.outcome s c = .ok info ↔
    e.head.vlen = 0 ∧ e.head.sizeOrType = 0 ∧
      ∃ t, e.names.Denotes s e.head.nameOffset (some t) ∧ info = .fwd t e.head.kindFlag := by
  unfold fwd
  rw [require_bind_ok_iff, get_bind_ok_iff hc]
  simp only [pure_ok_iff, Names.denotes_some_iff]
  constructor
  · rintro ⟨⟨hne, hvlen, hsize⟩, t, ht, rfl⟩
    exact ⟨hvlen, hsize, t, ⟨hne, ht⟩, rfl⟩
  · rintro ⟨hvlen, hsize, t, ⟨hne, ht⟩, rfl⟩
    exact ⟨⟨hne, hvlen, hsize⟩, t, ht, rfl⟩

theorem enum_ok_iff (hc : c.IsOpen) (hsize : c.offset ≤ s.bytes.size) :
    e.enum.outcome s c = .ok info ↔
      e.head.kindFlag = false ∧ e.head.vlen ≠ 0 ∧ e.head.sizeOrType ∈ enumSizes ∧
        ∃ name xs, e.names.Denotes s e.head.nameOffset name ∧
          (xs.length = e.head.vlen ∧ (∀ x ∈ xs, -0x80000000 ≤ x.value ∧ x.value < 0x80000000) ∧
            c.offset + 4 * (2 * e.head.vlen) ≤ s.bytes.size ∧ PartsWritten e.names s
              (s.words c.order c.offset (2 * e.head.vlen)) (xs.map Enumerator.part)) ∧
            info = .enum name e.head.sizeOrType xs := by
  have htimes := times_ok_iff (k := 2) e.consumes_enumerator (fun _ => rfl)
    (fun hc _ => e.enumerator_ok_iff hc) e.head.vlen hc hsize
  unfold enum name?
  dsimp only
  simp only [require_bind_ok_iff, get?_bind_ok_iff hc,
    Read.outcome_bind_ok_iff (e.consumes_enumerator.times e.head.vlen), pure_ok_iff, htimes]
  constructor
  · rintro ⟨hflag, hvlen, hsize, name, hname, xs, hxs, rfl⟩
    exact ⟨hflag, hvlen, hsize, name, xs, hname, hxs, rfl⟩
  · rintro ⟨hflag, hvlen, hsize, name, xs, hname, hxs, rfl⟩
    exact ⟨hflag, hvlen, hsize, name, hname, xs, hxs, rfl⟩

theorem funcProto_ok_iff (hc : c.IsOpen) (hsize : c.offset ≤ s.bytes.size) :
    e.funcProto.outcome s c = .ok info ↔ e.head.nameOffset = 0 ∧ e.head.kindFlag = false ∧
      ∃ ps, (ps.length = e.head.vlen ∧ c.offset + 4 * (2 * e.head.vlen) ≤ s.bytes.size ∧
        PartsWritten e.names s (s.words c.order c.offset (2 * e.head.vlen)) (ps.map Param.part)) ∧
          info = funcProtoOf e.head.sizeOrType ps := by
  have htimes := times_ok_iff (k := 2) e.consumes_param (fun _ => rfl)
    (fun hc _ => e.param_ok_iff hc) e.head.vlen hc hsize
  unfold funcProto
  simp only [require_bind_ok_iff, Read.outcome_bind_ok_iff (e.consumes_param.times e.head.vlen),
    pure_ok_iff, htimes]
  constructor
  · rintro ⟨⟨hname, hflag⟩, ps, ⟨hlen, -, hps⟩, rfl⟩
    exact ⟨hname, hflag, ps, ⟨hlen, hps⟩, rfl⟩
  · rintro ⟨hname, hflag, ps, ⟨hlen, hps⟩, rfl⟩
    exact ⟨⟨hname, hflag⟩, ps, ⟨hlen, fun _ _ => trivial, hps⟩, rfl⟩

theorem composite_ok_iff (hc : c.IsOpen) (hsize : c.offset ≤ s.bytes.size) {kind : CompositeKind} :
    (e.composite kind).outcome s c = .ok info ↔
      ∃ name ms, e.names.Denotes s e.head.nameOffset name ∧
        (ms.length = e.head.vlen ∧ (∀ m ∈ ms, m.kindFlag = e.head.kindFlag) ∧
          c.offset + 4 * (3 * e.head.vlen) ≤ s.bytes.size ∧ PartsWritten e.names s
            (s.words c.order c.offset (3 * e.head.vlen)) (ms.map Member.part)) ∧
          info = .composite kind name e.head.sizeOrType e.head.kindFlag ms := by
  have htimes := times_ok_iff (k := 3) e.consumes_member (fun _ => rfl)
    (fun hc _ => e.member_ok_iff hc) e.head.vlen hc hsize
  unfold composite name?
  simp only [get?_bind_ok_iff hc, Read.outcome_bind_ok_iff (e.consumes_member.times e.head.vlen),
    pure_ok_iff, htimes]
  constructor
  · rintro ⟨name, hname, ms, hms, rfl⟩
    exact ⟨name, ms, hname, hms, rfl⟩
  · rintro ⟨name, ms, hname, hms, rfl⟩
    exact ⟨name, hname, ms, hms, rfl⟩

theorem funcProtoOf_eq_iff {result result' : Nat} {written params : List Param} {variadic : Bool} :
    funcProtoOf result written = .funcProto result' params variadic ↔
      result = result' ∧ written = TypeInfo.writtenParams params variadic ∧
        (variadic = false → params.getLast? ≠ some ellipsis) := by
  unfold funcProtoOf TypeInfo.writtenParams
  by_cases hlast : written.getLast? = some ellipsis
  · rw [if_pos hlast, TypeInfo.funcProto.injEq]
    constructor
    · rintro ⟨rfl, rfl, rfl⟩
      rw [if_pos rfl, List.dropLast_append_getLast? ellipsis hlast]
      exact ⟨rfl, rfl, fun h => by cases h⟩
    · rintro ⟨rfl, rfl, h⟩
      cases variadic with
      | true => rw [if_pos rfl, List.dropLast_concat]; exact ⟨rfl, rfl, rfl⟩
      | false =>
        rw [if_neg Bool.false_ne_true, List.append_nil] at hlast
        exact absurd hlast (h rfl)
  · rw [if_neg hlast, TypeInfo.funcProto.injEq]
    constructor
    · rintro ⟨rfl, rfl, rfl⟩
      rw [if_neg Bool.false_ne_true, List.append_nil]
      exact ⟨rfl, rfl, fun _ => hlast⟩
    · rintro ⟨rfl, rfl, h⟩
      cases variadic with
      | true => rw [if_pos rfl, List.getLast?_concat] at hlast; exact absurd rfl hlast
      | false => rw [if_neg Bool.false_ne_true, List.append_nil]; exact ⟨rfl, rfl, rfl⟩

/-- Any parameters are those that are written for some function type. -/
theorem exists_funcProtoOf (result : Nat) (written : List Param) : ∃ params variadic,
    funcProtoOf result written = .funcProto result params variadic ∧
      written = TypeInfo.writtenParams params variadic ∧
        (variadic = false → params.getLast? ≠ some ellipsis) := by
  obtain ⟨params, variadic, h⟩ : ∃ params variadic,
      funcProtoOf result written = .funcProto result params variadic := by
    unfold funcProtoOf
    split <;> exact ⟨_, _, rfl⟩
  exact ⟨params, variadic, h, (funcProtoOf_eq_iff.mp h).2⟩

end Btf.Entry
