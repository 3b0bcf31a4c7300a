import Btf.Proofs.Entry

/-!
# What an entry says

An entry is read as a type exactly if it is one of the ways to write that type: its head and its words
are those of the type, for offsets that stand for its names.

* `Entry.Encodes`: an entry is a way to write a type;
* `Entry.exists_encodes`: an entry is a way to write what it is read as;
* `Entry.Encodes.outcome_infoOf`: what is written is read back;
* **`Entry.info_ok_iff`**: what an entry says is what it is a way to write.
-/

namespace Btf.Entry

variable {e : Entry} {s : Source} {c : Cursor} {info : TypeInfo}

theorem head_eq_iff {h : TypeHeader} {o : NameOffsets} : h = info.head o ↔
    h.nameOffset = o.head ∧ h.vlen = info.parts.length ∧ h.kind = info.kind.number ∧
      h.kindFlag = info.kindFlag ∧ h.sizeOrType = info.sizeOrType := by
  obtain ⟨nameOffset, vlen, kind, kindFlag, sizeOrType⟩ := h
  rw [TypeInfo.head, TypeHeader.mk.injEq]

theorem PartsWritten.words_lt {names : Names} {ws : List Nat} {parts : List TypePart}
    (h : PartsWritten names s ws parts) (hws : ∀ w ∈ ws, w < 0x100000000) :
    ∀ p ∈ parts, ∀ w ∈ p.words, w < 0x100000000 := by
  obtain ⟨os, hos, rfl⟩ := h
  induction parts generalizing os with
  | nil => exact List.forall_mem_nil _
  | cons p ps ih =>
    rw [List.map_cons] at hos
    cases hos with
    | cons ho hos =>
      rw [List.zipWith_cons_cons, List.flatten_cons] at hws
      intro q hq w hw
      rcases List.mem_cons.mp hq with rfl | hq
      · exact hws w (List.mem_append_left _ (List.mem_cons_of_mem _ hw))
      · exact ih _ hos (fun v hv => hws v (List.mem_append_right _ hv)) q hq w hw

/-- An entry whose payload starts at the cursor is a way to write a type, with the given offsets for
its names. -/
structure Encodes (e : Entry) (s : Source) (c : Cursor) (info : TypeInfo) (o : NameOffsets) :
    Prop where
  wellFormed : info.WellFormed
  denote : o.Denote e.names s info
  head : e.head = info.head o
  inside : c.offset + e.head.payloadSize ≤ s.bytes.size
  words : List.Forall₂ Cell.Admits (info.payload o)
    (s.words c.order c.offset (e.head.payloadSize / 4))

theorem payloadSize_of_kind? {k : Kind} (hk : e.head.kind? = some k) :
    e.head.payloadSize = k.payloadSize e.head.vlen := by
  rw [TypeHeader.payloadSize, hk]

/-- What the parts of a type are written with, if nothing stands before them. -/
theorem admits_rows_iff {o : NameOffsets} {ws : List Nat} (hfixed : info.fixed = [])
    (hws : ∀ w ∈ ws, w < 0x100000000) :
    List.Forall₂ Cell.Admits (info.payload o) ws ↔ ws = info.rows o := by
  rw [TypeInfo.payload, hfixed, List.nil_append, forall₂_admits_exact hws]

/-! ### From what is read to what is written -/

theorem encodes_int (hk : e.head.kind = Kind.int.number) (hsize : e.head.payloadSize = 4)
    (hc : c.IsOpen) (h : e.int.outcome s c = .ok info) :
    Encodes e s c info ⟨e.head.nameOffset, []⟩ := by
  obtain ⟨hflag, hvlen, hset, hle, name, bits, bitOffset, encoding, hname, hagree, hbits, hplace,
    -, rfl⟩ := (e.int_ok_iff hc).mp h
  refine ⟨⟨hset, hbits, hplace⟩, ⟨hname, .nil⟩, head_eq_iff.mpr ⟨rfl, hvlen, hk, hflag, rfl⟩,
    by rw [hsize]; exact hle, ?_⟩
  rw [hsize]
  exact .cons ⟨s.word_lt _ _, hagree⟩ .nil

theorem encodes_ref (kind : RefKind) (hk : e.head.kind = kind.kind.number)
    (hsize : e.head.payloadSize = 0) (hin : c.offset ≤ s.bytes.size)
    (hz : e.head.sizeOrType < 0x100000000) (h : (e.ref kind).outcome s c = .ok info) :
    Encodes e s c info {} := by
  obtain ⟨⟨hname, hflag, hvlen⟩, rfl⟩ := e.ref_ok_iff.mp h
  refine ⟨hz, ⟨rfl, .nil⟩, head_eq_iff.mpr ⟨hname, hvlen, hk, hflag, rfl⟩,
    by rw [hsize]; exact hin, ?_⟩
  rw [hsize]
  exact .nil

theorem encodes_array (hk : e.head.kind = Kind.array.number) (hsize : e.head.payloadSize = 12)
    (hc : c.IsOpen) (h : e.array.outcome s c = .ok info) : Encodes e s c info {} := by
  obtain ⟨⟨hname, hflag, hvlen, hz⟩, hle, element, index, count, hwords, rfl⟩ :=
    (e.array_ok_iff hc).mp h
  have hlt : ∀ w ∈ [element, index, count], w < 0x100000000 := by
    rw [← hwords]; exact Source.words_lt
  refine ⟨?_, ⟨rfl, .nil⟩, head_eq_iff.mpr ⟨hname, hvlen, hk, hflag, hz⟩,
    by rw [hsize]; exact hle, ?_⟩
  · exact ⟨hlt element (by simp), hlt index (by simp), hlt count (by simp)⟩
  · rw [hsize, hwords]
    exact (forall₂_admits_exact hlt).mpr rfl

theorem encodes_named {t : Text} (hfixed : info.fixed = []) (hparts : info.parts = [])
    (hname : info.headName = some t) (hk : e.head.kind = info.kind.number)
    (hsize : e.head.payloadSize = 0) (hin : c.offset ≤ s.bytes.size)
    (hwf : info.WellFormed) (hvlen : e.head.vlen = 0) (hflag : e.head.kindFlag = info.kindFlag)
    (hz : e.head.sizeOrType = info.sizeOrType)
    (ht : e.names.Denotes s e.head.nameOffset (some t)) :
    Encodes e s c info ⟨e.head.nameOffset, []⟩ := by
  refine ⟨hwf, ⟨by rw [hname]; exact ht, by rw [hparts]; exact .nil⟩,
    head_eq_iff.mpr ⟨rfl, by rw [hparts]; exact hvlen, hk, hflag, hz⟩, by rw [hsize]; exact hin, ?_⟩
  rw [hsize, TypeInfo.payload, hfixed, TypeInfo.rows]
  exact .nil

theorem encodes_parts {k : Nat} {name : Option Text} {o : Nat} (hfixed : info.fixed = [])
    (hname : info.headName = name) (ho : e.names.Denotes s o name)
    (hwf : info.WellFormed) (hhead : ∀ os, e.head = info.head ⟨o, os⟩)
    (hsize : e.head.payloadSize = 4 * (k * e.head.vlen))
    (hin : c.offset + 4 * (k * e.head.vlen) ≤ s.bytes.size)
    (hparts : PartsWritten e.names s (s.words c.order c.offset (k * e.head.vlen)) info.parts) :
    ∃ o, Encodes e s c info o := by
  obtain ⟨os, hos, hws⟩ := hparts
  refine ⟨⟨o, os⟩, hwf, ⟨by rw [hname]; exact ho, hos⟩, hhead os, by rw [hsize]; exact hin, ?_⟩
  rw [hsize, Nat.mul_div_cancel_left _ (by decide)]
  exact (admits_rows_iff hfixed Source.words_lt).mpr hws

theorem encodes_enum (hk : e.head.kind = Kind.enum.number)
    (hsize : e.head.payloadSize = 8 * e.head.vlen) (hv : e.head.vlen ≤ 65535) (hc : c.IsOpen)
    (hin : c.offset ≤ s.bytes.size) (h : e.enum.outcome s c = .ok info) :
    ∃ o, Encodes e s c info o := by
  obtain ⟨hflag, hvlen, hset, name, xs, hname, ⟨hlen, hrange, hle, hparts⟩, rfl⟩ :=
    (e.enum_ok_iff hc hin).mp h
  refine encodes_parts rfl rfl hname ⟨hset, by omega, by omega, hrange⟩ ?_ (by omega) hle hparts
  intro os
  exact head_eq_iff.mpr ⟨rfl, by rw [TypeInfo.parts, List.length_map, hlen], hk, hflag, rfl⟩

theorem encodes_funcProto (hk : e.head.kind = Kind.funcProto.number)
    (hsize : e.head.payloadSize = 8 * e.head.vlen) (hv : e.head.vlen ≤ 65535)
    (hz : e.head.sizeOrType < 0x100000000) (hc : c.IsOpen) (hin : c.offset ≤ s.bytes.size)
    (h : e.funcProto.outcome s c = .ok info) : ∃ o, Encodes e s c info o := by
  obtain ⟨hname, hflag, ps, ⟨hlen, hle, hparts⟩, rfl⟩ := (e.funcProto_ok_iff hc hin).mp h
  obtain ⟨params, variadic, hinfo, rfl, hlast⟩ := exists_funcProtoOf e.head.sizeOrType ps
  have hlt := hparts.words_lt Source.words_lt
  have htypes : ∀ p ∈ params, p.type < 0x100000000 := by
    intro p hp
    refine hlt p.part (List.mem_map_of_mem ?_) p.type List.mem_cons_self
    exact List.mem_append_left _ hp
  rw [hinfo]
  refine encodes_parts (k := 2) (o := 0) rfl rfl rfl ⟨hz, by omega, htypes, hlast⟩ ?_
    (by omega) hle hparts
  intro os
  exact head_eq_iff.mpr ⟨hname, by rw [TypeInfo.parts, List.length_map, hlen], hk, hflag, rfl⟩

theorem encodes_composite (kind : CompositeKind) (hk : e.head.kind = kind.kind.number)
    (hsize : e.head.payloadSize = 12 * e.head.vlen) (hv : e.head.vlen ≤ 65535)
    (hz : e.head.sizeOrType < 0x100000000) (hc : c.IsOpen) (hin : c.offset ≤ s.bytes.size)
    (h : (e.composite kind).outcome s c = .ok info) : ∃ o, Encodes e s c info o := by
  obtain ⟨name, ms, hname, ⟨hlen, hflags, hle, hparts⟩, rfl⟩ := (e.composite_ok_iff hc hin).mp h
  have hlt := hparts.words_lt Source.words_lt
  have hmembers : ∀ m ∈ ms,
      m.type < 0x100000000 ∧ m.offset < 0x100000000 ∧ m.kindFlag = e.head.kindFlag := by
    intro m hm
    have hwords := hlt m.part (List.mem_map_of_mem hm)
    exact ⟨hwords _ List.mem_cons_self, hwords _ (List.mem_cons_of_mem _ List.mem_cons_self),
      hflags m hm⟩
  refine encodes_parts rfl rfl hname ⟨hz, by omega, hmembers⟩ ?_ (by omega) hle hparts
  intro os
  exact head_eq_iff.mpr ⟨rfl, by rw [TypeInfo.parts, List.length_map, hlen], hk, rfl, rfl⟩

/-! ### From what is written to what is read -/

namespace Encodes

variable {o : NameOffsets}

theorem kind?_eq (h : Encodes e s c info o) : e.head.kind? = some info.kind := by
  rw [h.head]
  exact Kind.ofNumber?_number info.kind

theorem payloadSize_eq (h : Encodes e s c info o) :
    e.head.payloadSize = info.kind.payloadSize info.parts.length := by
  rw [payloadSize_of_kind? h.kind?_eq, h.head]
  rfl

theorem name_eq (h : Encodes e s c info o) :
    e.names.Denotes s e.head.nameOffset info.headName := by
  rw [h.head]; exact h.denote.head

theorem partsWritten (h : Encodes e s c info o) (hfixed : info.fixed = []) {k : Nat}
    (hsize : e.head.payloadSize = 4 * (k * e.head.vlen)) :
    c.offset + 4 * (k * e.head.vlen) ≤ s.bytes.size ∧
      PartsWritten e.names s (s.words c.order c.offset (k * e.head.vlen)) info.parts := by
  have hwords := (admits_rows_iff hfixed Source.words_lt).mp h.words
  rw [hsize, Nat.mul_div_cancel_left _ (by decide)] at hwords
  exact ⟨by rw [← hsize]; exact h.inside, o.parts, h.denote.parts, hwords⟩

theorem outcome_int {name : Option Text} {size bits bitOffset : Nat} {encoding : IntEncoding}
    (h : Encodes e s c (.int name size bits bitOffset encoding) o) (hc : c.IsOpen) :
    e.int.outcome s c = .ok (.int name size bits bitOffset encoding) := by
  have hsize : e.head.payloadSize = 4 := h.payloadSize_eq
  have hwords := h.words
  have hname := h.name_eq
  have hle := h.inside
  obtain ⟨hset, hbits, hplace⟩ := h.wellFormed
  rw [hsize] at hwords hle
  have hword := (List.forall₂_cons.mp hwords).1
  have hoffset : bitOffset < 0x100 := by
    have : size ≤ 16 := by revert hset; unfold intSizes; simp; omega
    omega
  rw [h.head] at hname
  rw [int_ok_iff hc, h.head]
  exact ⟨rfl, rfl, hset, hle, name, bits, bitOffset, encoding, hname, hword.2, hbits, hplace, hoffset,
    rfl⟩

theorem outcome_array {element index count : Nat}
    (h : Encodes e s c (.array element index count) o) (hc : c.IsOpen) :
    e.array.outcome s c = .ok (.array element index count) := by
  have hsize : e.head.payloadSize = 12 := h.payloadSize_eq
  have hwords := h.words
  have hle := h.inside
  rw [hsize] at hwords hle
  have hpayload : (TypeInfo.array element index count).payload o =
      [element, index, count].map fun w => ⟨w, 0⟩ := by
    rw [TypeInfo.payload, TypeInfo.rows_eq_nil rfl]
    rfl
  rw [hpayload, forall₂_admits_exact Source.words_lt] at hwords
  have hname : e.head.nameOffset = 0 := h.name_eq
  rw [array_ok_iff hc]
  refine ⟨⟨hname, ?_⟩, hle, element, index, count, hwords, rfl⟩
  rw [h.head]
  exact ⟨rfl, rfl, rfl⟩

theorem outcome_enum {name : Option Text} {size : Nat} {xs : List Enumerator}
    (h : Encodes e s c (.enum name size xs) o) (hc : c.IsOpen) (hin : c.offset ≤ s.bytes.size) :
    e.enum.outcome s c = .ok (.enum name size xs) := by
  have hvlen : e.head.vlen = xs.length := by
    rw [h.head]; exact List.length_map _
  have hsize : e.head.payloadSize = 4 * (2 * e.head.vlen) := by
    rw [payloadSize_of_kind? h.kind?_eq, ← Nat.mul_assoc]; rfl
  obtain ⟨hset, hpos, -, hrange⟩ := h.wellFormed
  rw [enum_ok_iff hc hin]
  refine ⟨by rw [h.head]; rfl, by omega, ?_, name, xs, h.name_eq,
    ⟨hvlen.symm, hrange, h.partsWritten rfl hsize⟩, ?_⟩
  · rw [h.head]; exact hset
  · rw [h.head]; rfl

theorem outcome_funcProto {result : Nat} {params : List Param} {variadic : Bool}
    (h : Encodes e s c (.funcProto result params variadic) o) (hc : c.IsOpen)
    (hin : c.offset ≤ s.bytes.size) :
    e.funcProto.outcome s c = .ok (.funcProto result params variadic) := by
  have hvlen : e.head.vlen = (TypeInfo.writtenParams params variadic).length := by
    rw [h.head]; exact List.length_map _
  have hsize : e.head.payloadSize = 4 * (2 * e.head.vlen) := by
    rw [payloadSize_of_kind? h.kind?_eq, ← Nat.mul_assoc]; rfl
  obtain ⟨-, -, -, hlast⟩ := h.wellFormed
  rw [funcProto_ok_iff hc hin]
  refine ⟨h.name_eq, by rw [h.head]; rfl, TypeInfo.writtenParams params variadic,
    ⟨hvlen.symm, h.partsWritten rfl hsize⟩, ?_⟩
  exact (funcProtoOf_eq_iff.mpr ⟨by rw [h.head]; rfl, rfl, hlast⟩).symm

theorem outcome_composite {kind : CompositeKind} {name : Option Text} {size : Nat} {flag : Bool}
    {ms : List Member} (h : Encodes e s c (.composite kind name size flag ms) o) (hc : c.IsOpen)
    (hin : c.offset ≤ s.bytes.size) :
    (e.composite kind).outcome s c = .ok (.composite kind name size flag ms) := by
  have hvlen : e.head.vlen = ms.length := by
    rw [h.head]; exact List.length_map _
  have hflag : e.head.kindFlag = flag := by
    rw [h.head]; rfl
  have hsize : e.head.payloadSize = 4 * (3 * e.head.vlen) := by
    rw [payloadSize_of_kind? h.kind?_eq, ← Nat.mul_assoc]
    cases kind <;> rfl
  obtain ⟨-, -, hmembers⟩ := h.wellFormed
  rw [composite_ok_iff hc hin]
  refine ⟨name, ms, h.name_eq, ⟨hvlen.symm, fun m hm => ?_, h.partsWritten rfl hsize⟩, ?_⟩
  · rw [hflag]; exact (hmembers m hm).2.2
  · rw [hflag, h.head]; rfl

theorem outcome_infoOf (h : Encodes e s c info o) (hc : c.IsOpen) (hin : c.offset ≤ s.bytes.size) :
    (e.infoOf info.kind).outcome s c = .ok info := by
  cases info with
  | int => exact h.outcome_int hc
  | ref kind target =>
    have href : (e.ref kind).outcome s c = .ok (.ref kind target) := by
      have hname : e.head.nameOffset = 0 := h.name_eq
      rw [ref_ok_iff, h.head]
      rw [h.head] at hname
      exact ⟨⟨hname, rfl, rfl⟩, rfl⟩
    cases kind <;> exact href
  | array => exact h.outcome_array hc
  | typedef name target =>
    refine (isNamed_get_ok_iff hc).mpr ⟨by rw [h.head]; rfl, by rw [h.head]; rfl, name, h.name_eq, ?_⟩
    rw [h.head]; rfl
  | composite kind =>
    have := h.outcome_composite hc hin
    cases kind <;> exact this
  | enum => exact h.outcome_enum hc hin
  | fwd name isUnion =>
    refine (fwd_ok_iff hc).mpr ⟨by rw [h.head]; rfl, by rw [h.head]; rfl, name, h.name_eq, ?_⟩
    rw [h.head]; rfl
  | func name signature =>
    refine (isNamed_get_ok_iff hc).mpr ⟨by rw [h.head]; rfl, by rw [h.head]; rfl, name, h.name_eq, ?_⟩
    rw [h.head]; rfl
  | funcProto => exact h.outcome_funcProto hc hin

end Encodes

theorem exists_encodes {k : Kind} (hk : e.head.kind? = some k) (hv : e.head.vlen ≤ 65535)
    (hz : e.head.sizeOrType < 0x100000000) (hc : c.IsOpen) (hin : c.offset ≤ s.bytes.size)
    (h : (e.infoOf k).outcome s c = .ok info) : ∃ o, Encodes e s c info o := by
  have hnumber := (Kind.number_of_ofNumber? hk).symm
  have hsize := payloadSize_of_kind? hk
  cases k with
  | int => exact ⟨_, encodes_int hnumber hsize hc h⟩
  | ptr => exact ⟨_, encodes_ref .ptr hnumber hsize hin hz h⟩
  | const => exact ⟨_, encodes_ref .const hnumber hsize hin hz h⟩
  | volatile => exact ⟨_, encodes_ref .volatile hnumber hsize hin hz h⟩
  | array => exact ⟨_, encodes_array hnumber hsize hc h⟩
  | typedef =>
    obtain ⟨hflag, hvlen, t, ht, rfl⟩ := (isNamed_get_ok_iff hc).mp h
    exact ⟨_, encodes_named rfl rfl rfl hnumber hsize hin hz hvlen hflag rfl ht⟩
  | func =>
    obtain ⟨hflag, hvlen, t, ht, rfl⟩ := (isNamed_get_ok_iff hc).mp h
    exact ⟨_, encodes_named rfl rfl rfl hnumber hsize hin hz hvlen hflag rfl ht⟩
  | fwd =>
    obtain ⟨hvlen, hzero, t, ht, rfl⟩ := (fwd_ok_iff hc).mp h
    exact ⟨_, encodes_named rfl rfl rfl hnumber hsize hin trivial hvlen rfl hzero ht⟩
  | enum => exact encodes_enum hnumber hsize hv hc hin h
  | funcProto => exact encodes_funcProto hnumber hsize hv hz hc hin h
  | struct => exact encodes_composite .struct hnumber hsize hv hz hc hin h
  | union => exact encodes_composite .union hnumber hsize hv hz hc hin h

/-- **What an entry says is what it is a way to write.** -/
theorem info_ok_iff (hv : e.head.vlen ≤ 65535) (hz : e.head.sizeOrType < 0x100000000)
    (hc : c.IsOpen) (hin : c.offset ≤ s.bytes.size) :
    e.info.outcome s c = .ok info ↔ ∃ o, Encodes e s c info o := by
  unfold Entry.info
  constructor
  · cases hk : e.head.kind? with
    | none =>
      intro h
      cases h
    | some k => exact exists_encodes hk hv hz hc hin
  · rintro ⟨o, h⟩
    rw [h.kind?_eq]
    exact h.outcome_infoOf hc hin

end Btf.Entry
