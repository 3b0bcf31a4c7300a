import Btf.Decode.Section
import Btf.Proofs.Entry.Encodes

/-!
# The section as a sequence of written types

The loop over the section succeeds exactly if the words up to its end are those of entries, one after
the other, and then gives the types that these are ways to write.

* `TypeInfo.WrittenAt`: the words of the entry of a type stand at an offset;
* `Names.entry_ok_iff`: the entry at the cursor;
* `Names.Tiled`: entries one after the other, up to the end of the section;
* **`Names.entriesUpTo_ok_iff`**: the loop gives what is written, by induction on its steps;
* **`Names.Tiled.words`**: the words of the section are those of its entries.
-/

namespace Btf

/-- The words of the entry of a type stand at an offset of a blob, where the names have the given
offsets. -/
structure TypeInfo.WrittenAt (info : TypeInfo) (names : Names) (s : Source) (order : ByteOrder)
    (i : Nat) (o : NameOffsets) : Prop where
  wellFormed : info.WellFormed
  denote : o.Denote names s info
  inside : i + 4 * (info.cells o).length ≤ s.bytes.size
  words : List.Forall₂ Cell.Admits (info.cells o) (s.words order i (info.cells o).length)

namespace Read

variable {s : Source} {c : Cursor} {head : TypeHeader}

theorem outcome_typeHeader_ok_iff (hc : c.IsOpen) : typeHeader.outcome s c = .ok head ↔
    c.offset + 12 ≤ s.bytes.size ∧ TypeHeader.ofWords (s.word c.order c.offset)
      (s.word c.order (c.offset + 4)) (s.word c.order (c.offset + 8)) = head := by
  have hword : ∀ {c : Cursor} {w : Nat}, c.IsOpen → (u32.outcome s c = .ok w ↔
      c.offset + 4 ≤ s.bytes.size ∧ s.word c.order c.offset = w) := fun hc => outcome_word_ok_iff hc
  have hu32 : Consumes 4 u32 := consumes_word 4
  rw [typeHeader, outcome_mapError, mapError_eq_ok]
  simp only [outcome_bind_ok_iff hu32, hword hc, hword (hc.skip 4),
    hword ((hc.skip 4).skip 4), outcome_pure, Cursor.skip_offset, Cursor.skip_order]
  constructor
  · rintro ⟨_, ⟨-, rfl⟩, _, ⟨-, rfl⟩, _, ⟨hle, rfl⟩, h⟩
    exact ⟨by omega, Except.ok.inj h⟩
  · rintro ⟨hle, rfl⟩
    exact ⟨_, ⟨by omega, rfl⟩, _, ⟨by omega, rfl⟩, _, ⟨by omega, rfl⟩, rfl⟩

end Read

namespace TypeInfo

variable {info : TypeInfo} {o : NameOffsets}

theorem WellFormed.length_parts (h : info.WellFormed) : info.parts.length ≤ 65535 := by
  cases info with
  | int | ref | array | typedef | fwd | func => exact Nat.zero_le _
  | composite => rw [parts, List.length_map]; exact h.2.1
  | enum => rw [parts, List.length_map]; exact h.2.2.1
  | funcProto => rw [parts, List.length_map]; exact h.2.1

theorem WellFormed.sizeOrType_lt (h : info.WellFormed) : info.sizeOrType < 0x100000000 := by
  cases info with
  | int name size =>
    have : size ≤ 16 := by have := h.1; unfold Entry.intSizes at this; simp at this; omega
    exact Nat.lt_of_le_of_lt this (by decide)
  | enum name size =>
    have : size ≤ 8 := by have := h.1; unfold Entry.enumSizes at this; simp at this; omega
    exact Nat.lt_of_le_of_lt this (by decide)
  | array | fwd => exact (by decide : 0 < 0x100000000)
  | ref | typedef | func => exact h
  | composite | funcProto => exact h.1

theorem kind_number_lt (info : TypeInfo) : info.kind.number < 0x20 := by
  cases info.kind <;> decide

def entrySize (info : TypeInfo) : Nat := 12 + info.kind.payloadSize info.parts.length

theorem length_cells (ho : o.parts.length = info.parts.length) :
    4 * (info.cells o).length = info.entrySize := by
  rw [entrySize, cells, List.length_append, ← length_payload ho]
  change 4 * (3 + _) = _
  omega

end TypeInfo

theorem NameOffsets.Denote.length_parts {o : NameOffsets} {names : Names} {s : Source}
    {info : TypeInfo} (h : o.Denote names s info) : o.parts.length = info.parts.length := by
  rw [h.parts.length_eq, List.length_map]

namespace Names

variable {names : Names} {s : Source} {c c' : Cursor} {info : TypeInfo} {o : NameOffsets}

/-- The head of an entry and the words behind it. -/
theorem writtenAt_iff : info.WrittenAt names s c.order c.offset o ↔
    c.offset + 12 ≤ s.bytes.size ∧ Entry.Encodes ⟨names, c.offset, .ofWords (s.word c.order c.offset)
      (s.word c.order (c.offset + 4)) (s.word c.order (c.offset + 8))⟩ s (c.skip 12) info o := by
  have hadmits := fun hwf : info.WellFormed =>
    TypeHeader.admits_cells_iff (s.word_lt c.order c.offset) (s.word_lt c.order (c.offset + 4))
      (s.word_lt c.order (c.offset + 8)) (h := info.head o)
      (Nat.lt_succ_of_le hwf.length_parts) info.kind_number_lt
  have hwords : ∀ n, s.words c.order c.offset (3 + n) =
      [s.word c.order c.offset, s.word c.order (c.offset + 4), s.word c.order (c.offset + 8)] ++
        s.words c.order (c.offset + 12) n := fun n => s.words_add _ _ 3 n
  have hthree : (info.head o).cells.length = [s.word c.order c.offset,
      s.word c.order (c.offset + 4), s.word c.order (c.offset + 8)].length := rfl
  constructor
  · rintro ⟨hwf, hden, hin, h⟩
    have hlen := TypeInfo.length_cells hden.length_parts
    unfold TypeInfo.entrySize at hlen
    have hpayload := TypeInfo.length_payload hden.length_parts
    have hcount : (info.cells o).length = 3 + (info.payload o).length := by omega
    rw [hcount, hwords, TypeInfo.cells, forall₂_append_iff hthree] at h
    have hhead := (hadmits hwf).mp h.1
    refine ⟨by omega, hwf, hden, hhead, ?_, ?_⟩
    · rw [hhead, TypeInfo.payloadSize_head, Cursor.skip_offset]
      omega
    · rw [hhead, TypeInfo.payloadSize_head, ← hpayload, Nat.mul_div_cancel_left _ (by decide)]
      exact h.2
  · rintro ⟨hin, h⟩
    have hlen := TypeInfo.length_cells h.denote.length_parts
    unfold TypeInfo.entrySize at hlen
    have hpayload := TypeInfo.length_payload h.denote.length_parts
    have hsize := h.payloadSize_eq
    have hinside := h.inside
    have htail := h.words
    have hhead := h.head
    rw [Cursor.skip_offset, hsize] at hinside
    rw [hsize, ← hpayload, Nat.mul_div_cancel_left _ (by decide)] at htail
    refine ⟨h.wellFormed, h.denote, by omega, ?_⟩
    have hcount : (info.cells o).length = 3 + (info.payload o).length := by omega
    rw [hcount, hwords, TypeInfo.cells, forall₂_append_iff hthree]
    exact ⟨(hadmits h.wellFormed).mpr hhead, htail⟩

theorem outcome_entry : names.entry.outcome s c = Read.typeHeader.outcome s c >>= fun head =>
    (Entry.info ⟨names, c.offset, head⟩).outcome s (c.skip 12) := by
  have hbind := Read.outcome_bind (s := s) (c := c) Read.consumes_typeHeader
    fun head => Entry.info ⟨names, c.offset, head⟩
  exact hbind

/-- **An entry is read as what it is a way to write.** -/
theorem entry_ok_iff (hc : c.IsOpen) : names.entry.outcome s c = .ok info ↔
    ∃ o, info.WrittenAt names s c.order c.offset o := by
  let e : Entry := ⟨names, c.offset, .ofWords (s.word c.order c.offset)
    (s.word c.order (c.offset + 4)) (s.word c.order (c.offset + 8))⟩
  have hinfo : c.offset + 12 ≤ s.bytes.size →
      (e.info.outcome s (c.skip 12) = .ok info ↔ ∃ o, e.Encodes s (c.skip 12) info o) :=
    Entry.info_ok_iff (Nat.le_of_lt_succ (Nat.mod_lt _ (by decide)))
      (s.word_lt c.order (c.offset + 8)) (hc.skip 12)
  rw [outcome_entry, bind_eq_ok]
  simp only [Read.outcome_typeHeader_ok_iff hc, writtenAt_iff]
  constructor
  · rintro ⟨_, ⟨hle, rfl⟩, h⟩
    obtain ⟨o, ho⟩ := (hinfo hle).mp h
    exact ⟨o, hle, ho⟩
  · rintro ⟨o, hle, ho⟩
    exact ⟨_, ⟨hle, rfl⟩, (hinfo hle).mpr ⟨o, ho⟩⟩

theorem entry_run (hc : c.IsOpen) (h : names.entry.run s c = (.ok info, c')) :
    c' = c.skip info.entrySize := by
  obtain ⟨o, ho⟩ := (entry_ok_iff hc).mp (congrArg Prod.fst h)
  obtain ⟨head, c₁, hhead, rfl⟩ := entry_offset h
  have hwords := ((Read.outcome_typeHeader_ok_iff hc).mp (congrArg Prod.fst hhead)).2
  have hsize := (writtenAt_iff.mp ho).2.payloadSize_eq
  rw [hwords] at hsize
  rw [TypeInfo.entrySize, ← hsize, Cursor.skip, Nat.add_assoc]
  rfl

theorem run_of_writtenAt (hc : c.IsOpen) (hw : info.WrittenAt names s c.order c.offset o) :
    names.entry.run s c = (.ok info, c.skip info.entrySize) := by
  have houtcome : (names.entry.run s c).1 = .ok info := (entry_ok_iff hc).mpr ⟨o, hw⟩
  have hrun : names.entry.run s c = (.ok info, (names.entry.run s c).2) := by rw [← houtcome]
  rw [hrun, entry_run hc hrun]

/-- Entries stand one after the other, from an offset up to `stop`. -/
inductive Tiled (names : Names) (s : Source) (order : ByteOrder) (stop : Nat) :
    Nat → List NameOffsets → List TypeInfo → Prop
  | done : Tiled names s order stop stop [] []
  | entry {i : Nat} {o : NameOffsets} {info : TypeInfo} {os : List NameOffsets}
      {infos : List TypeInfo} (head : info.WrittenAt names s order i o)
      (rest : Tiled names s order stop (i + info.entrySize) os infos) :
      Tiled names s order stop i (o :: os) (info :: infos)

theorem Tiled.le {order : ByteOrder} {stop i : Nat} {os : List NameOffsets}
    {infos : List TypeInfo} (h : Tiled names s order stop i os infos) : i ≤ stop := by
  induction h with
  | done => exact Nat.le_refl _
  | entry _ _ ih => omega

/-- **The loop over the section** succeeds with the types that the section is tiled with. -/
theorem entriesUpTo_ok_iff {stop : Nat} {done infos : List TypeInfo} (hc : c.IsOpen)
    (hstop : c.offset ≤ stop) : (names.entriesUpTo stop s done c).1 = .ok infos ↔
      ∃ os new, Tiled names s c.order stop c.offset os new ∧ infos = done.reverse ++ new := by
  fun_induction entriesUpTo names stop s done c with
  | case1 done c hlt info c' h hover =>
    -- an entry that overruns the end is not a tile: the entries behind it would start beyond it
    refine ⟨fun h => (by cases h), ?_⟩
    rintro ⟨os, new, htiled, -⟩
    cases htiled with
    | done => omega
    | entry hw rest =>
      have hle := rest.le
      cases h.symm.trans (run_of_writtenAt hc hw)
      rw [Cursor.skip_offset] at hover
      omega
  | case2 done c hlt info c' h hle hadv ih =>
    obtain rfl := entry_run hc h
    rw [Cursor.skip_offset] at hle
    rw [ih (hc.skip _) (by rw [Cursor.skip_offset]; omega)]
    constructor
    · rintro ⟨os, new, htiled, rfl⟩
      obtain ⟨o, ho⟩ := (entry_ok_iff hc).mp (congrArg Prod.fst h)
      exact ⟨o :: os, info :: new, .entry ho htiled, by rw [List.reverse_cons, List.append_assoc]; rfl⟩
    · rintro ⟨os, new, htiled, rfl⟩
      cases htiled with
      | done => omega
      | entry hw rest =>
        cases h.symm.trans (run_of_writtenAt hc hw)
        exact ⟨_, _, rest, by rw [List.reverse_cons, List.append_assoc]; rfl⟩
  | case3 done c hlt e c' h =>
    refine ⟨fun h => (by cases h), ?_⟩
    rintro ⟨os, new, htiled, -⟩
    cases htiled with
    | done => omega
    | entry hw rest => cases h.symm.trans (run_of_writtenAt hc hw)
  | case4 done c hend =>
    have heq : c.offset = stop := by omega
    constructor
    · rintro ⟨⟩
      exact ⟨[], [], by rw [heq]; exact .done, by rw [List.append_nil]⟩
    · rintro ⟨os, new, htiled, rfl⟩
      cases htiled with
      | done => rw [List.append_nil]
      | entry hw rest =>
        have hle := rest.le
        unfold TypeInfo.entrySize at hle
        omega

/-! ## The words of the section -/

/-- **The words of the section** are those of its entries. -/
theorem Tiled.words {order : ByteOrder} {stop i : Nat} {os : List NameOffsets}
    {infos : List TypeInfo} (h : Tiled names s order stop i os infos) (hi : i ≤ s.bytes.size) :
    stop ≤ s.bytes.size ∧ ∃ n, i + 4 * n = stop ∧ List.Forall₂ Cell.Admits
      (List.zipWith (fun o info => info.cells o) os infos).flatten (s.words order i n) := by
  induction h with
  | done => exact ⟨hi, 0, rfl, .nil⟩
  | @entry i o info os infos hw rest ih =>
    have hlen := TypeInfo.length_cells hw.denote.length_parts
    have hin := hw.inside
    obtain ⟨hstop, n, hn, hwords⟩ := ih (by omega)
    refine ⟨hstop, (info.cells o).length + n, by omega, ?_⟩
    rw [Source.words_add, hlen, List.zipWith_cons_cons, List.flatten_cons]
    exact (forall₂_append_iff (s.length_words _ _ _).symm).mpr ⟨hw.words, hwords⟩

theorem Tiled.denote {order : ByteOrder} {stop i : Nat} {os : List NameOffsets}
    {infos : List TypeInfo} (h : Tiled names s order stop i os infos) :
    List.Forall₂ (fun o info => o.Denote names s info) os infos := by
  induction h with
  | done => exact .nil
  | entry hw _ ih => exact .cons hw.denote ih

theorem Tiled.wellFormed {order : ByteOrder} {stop i : Nat} {os : List NameOffsets}
    {infos : List TypeInfo} (h : Tiled names s order stop i os infos) :
    ∀ info ∈ infos, info.WellFormed := by
  induction h with
  | done => exact List.forall_mem_nil _
  | entry hw _ ih => exact List.forall_mem_cons.mpr ⟨hw.wellFormed, ih⟩

/-- Words of entries, one after the other, are a section that is tiled with them. -/
theorem tiled_of_words {order : ByteOrder} {stop i n : Nat} {os : List NameOffsets}
    {infos : List TypeInfo} (hwf : ∀ info ∈ infos, info.WellFormed)
    (hinfos : List.Forall₂ (fun o info => o.Denote names s info) os infos)
    (hstop : i + 4 * n = stop) (hsize : stop ≤ s.bytes.size)
    (hwords : List.Forall₂ Cell.Admits
      (List.zipWith (fun o info => info.cells o) os infos).flatten (s.words order i n)) :
    Tiled names s order stop i os infos := by
  induction hinfos generalizing i n with
  | nil =>
    have hn : n = 0 := by
      have := hwords.length_eq
      rw [s.length_words] at this
      exact this.symm
    rw [← hstop, hn]
    exact .done
  | @cons o info os infos hden _ ih =>
    obtain ⟨hinfo, hrest⟩ := List.forall_mem_cons.mp hwf
    have hlen := TypeInfo.length_cells hden.length_parts
    rw [List.zipWith_cons_cons, List.flatten_cons] at hwords
    have hn := hwords.length_eq
    rw [List.length_append, s.length_words] at hn
    rw [← hn, Source.words_add, forall₂_append_iff (s.length_words _ _ _).symm, hlen] at hwords
    exact .entry ⟨hinfo, hden, by omega, hwords.1⟩ (ih hrest (by omega) hwords.2)

end Names

end Btf
