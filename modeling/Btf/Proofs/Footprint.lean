import Btf.Proofs.Settings
import Btf.Proofs.Validity

/-!
# What decoding depends on

A blob that is decoded is read in its magic number and the places of its sections, in the words of its
entries up to the bits that mean nothing, and in the strings that the names in them stand for. Another
blob of its size that is the same there is decoded to the same types. The sections may overlap each
other and the header, since bytes that are read twice are the same for both readings.

* `Source.entryStarts`, `Source.freeBits`: where entries start, and the bits of their words that mean
  nothing;
* `SameEntry`, `SameWhereRead`: two blobs that are the same in an entry, and wherever one is read;
* `TypeInfo.WrittenAt.freeBits_eq`, `TypeInfo.WrittenAt.entryNames_eq`: what a written entry has there;
* `SameEntry.writtenAt`, `SameEntry.tiled`: entries stand in both blobs, by induction on their number;
* `SameWhereRead.header`, `SameWhereRead.table`: the headers and the tables of both;
* **`decode_footprint`**: a blob is decoded as one that is the same wherever it is read.
-/

namespace Btf

namespace Source

/-- Where `n` entries start that stand one after the other from offset `i` on. -/
def entryStarts (s : Source) (order : ByteOrder) : (i n : Nat) → List Nat
  | _, 0 => []
  | i, n + 1 => i :: s.entryStarts order (i + (12 + (s.entryHead order i).payloadSize)) n

/-- For each word of the entry at offset `i`, the bits that mean nothing. -/
def freeBits (s : Source) (order : ByteOrder) (i : Nat) : List Nat :=
  [0, TypeHeader.infoFree, 0] ++ List.replicate ((s.entryHead order i).payloadSize / 4)
    (if (s.entryHead order i).kind? = some .int then intFree else 0)

end Source

/-- The entry at offset `i` of a blob is the same in another one: its words up to the bits that mean
nothing, and the strings that its names stand for, with the zero bytes behind them. -/
structure SameEntry (s s' : Source) (order : ByteOrder) (i : Nat) : Prop where
  words : ∀ j (hj : j < (s.freeBits order i).length),
    Agree (s.freeBits order i)[j] (s'.word order (i + 4 * j)) (s.word order (i + 4 * j))
  strings : ∀ offset ∈ s.entryNames order i, offset ≠ 0 → ∀ (a : Nat) (bs : List UInt8),
    (s.header order).stringAddress offset = a → s.HasString a bs →
      s'.slice a (bs.length + 1) = s.slice a (bs.length + 1)

/-- A blob is the same as another one of its size wherever that is read in a byte order for `n`
entries. -/
structure SameWhereRead (s s' : Source) (order : ByteOrder) (n : Nat) : Prop where
  size : s'.bytes.size = s.bytes.size
  magic : s'.slice 0 2 = s.slice 0 2
  places : s'.slice 4 16 = s.slice 4 16
  entries : ∀ i ∈ s.entryStarts order (s.word order 4 + s.word order 8) n, SameEntry s s' order i

/-! ## What a written entry has -/

/-- The payload of an entry of a kind with parts is made up of them. -/
theorem Kind.payloadSize_of_partSize {k : Kind} (h : k.partSize ≠ 0) (vlen : Nat) :
    k.payloadSize vlen = k.partSize * vlen := by
  cases k with
  | int | ptr | array | fwd | typedef | volatile | const | func => exact absurd rfl h
  | struct | union | enum | funcProto => rfl

/-- The offsets of the names of parts stand at the starts of their rows. -/
theorem Source.heads_of_rows {s : Source} {order : ByteOrder} {k : Nat} {ps : List TypePart}
    (hps : ∀ p ∈ ps, p.words.length + 1 = k) {i : Nat} {os : List Nat} (hos : os.length = ps.length)
    (h : s.words order i (k * ps.length) = (List.zipWith TypePart.row os ps).flatten) :
    ((List.range ps.length).map fun j => s.word order (i + 4 * k * j)) = os := by
  -- The first row is cut off, so that the others start `4 * k` bytes further on.
  induction ps generalizing i os with
  | nil => exact (List.eq_nil_of_length_eq_zero hos).symm
  | cons p ps ih =>
    obtain ⟨o, os, rfl⟩ := List.exists_cons_of_length_eq_add_one hos
    obtain ⟨hp, hps⟩ := List.forall_mem_cons.mp hps
    have hrow : (s.words order i k).length = (p.row o).length := by
      rw [Source.length_words]
      exact hp.symm
    rw [List.length_cons, Nat.mul_succ, Nat.add_comm, Source.words_add, List.zipWith_cons_cons,
      List.flatten_cons] at h
    obtain ⟨hfirst, hrest⟩ := List.append_inj h hrow
    have hhead : s.word order i = o := by
      rw [← hp, Source.words] at hfirst
      exact List.head_eq_of_cons_eq hfirst
    have htail := ih hps (Nat.succ.inj hos) hrest
    have hstep : ∀ j, i + 4 * k + 4 * k * j = i + 4 * k * (j + 1) := fun j => by
      rw [Nat.mul_succ, Nat.add_assoc, Nat.add_comm (4 * k)]
    simp only [hstep] at htail
    rw [List.length_cons, List.range_succ_eq_map, List.map_cons, List.map_map, Nat.mul_zero,
      Nat.add_zero, hhead, ← htail]
    rfl

namespace TypeInfo

variable {info : TypeInfo} {o : NameOffsets}

/-- A part fills its size with the offset of its name and its words. -/
theorem length_words_of_parts (info : TypeInfo) :
    ∀ p ∈ info.parts, 4 * (p.words.length + 1) = info.kind.partSize := by
  cases info with
  | int | ref | array | typedef | fwd | func => exact List.forall_mem_nil _
  | composite kind => cases kind <;> exact List.forall_mem_map.mpr fun _ _ => rfl
  | enum => exact List.forall_mem_map.mpr fun _ _ => rfl
  | funcProto => exact List.forall_mem_map.mpr fun _ _ => rfl

theorem fixed_of_partSize (info : TypeInfo) (h : info.kind.partSize ≠ 0) :
    info.fixed = [] ∧ ∃ k, info.kind.partSize = 4 * k := by
  cases info with
  | int | array | typedef | fwd | func => exact absurd rfl h
  | ref kind => cases kind <;> exact absurd rfl h
  | composite kind => cases kind <;> exact ⟨rfl, 3, rfl⟩
  | enum | funcProto => exact ⟨rfl, 2, rfl⟩

/-- Only the word of an integer type has bits that mean nothing. -/
theorem free_of_mem_payload : ∀ cell ∈ info.payload o,
    cell.free = if info.kind = .int then intFree else 0 := by
  have hrows : ∀ cell ∈ (info.rows o).map fun w => (⟨w, 0⟩ : Cell), cell.free = 0 :=
    List.forall_mem_map.mpr fun _ _ => rfl
  rw [payload, List.forall_mem_append]
  cases info with
  | int =>
    rw [rows_eq_nil rfl]
    exact ⟨List.forall_mem_singleton.mpr rfl, List.forall_mem_nil _⟩
  | ref kind => cases kind <;> exact ⟨List.forall_mem_nil _, hrows⟩
  | composite kind => cases kind <;> exact ⟨List.forall_mem_nil _, hrows⟩
  | array => exact ⟨by simp [fixed, kind], hrows⟩
  | typedef | enum | fwd | func | funcProto => exact ⟨List.forall_mem_nil _, hrows⟩

namespace WrittenAt

variable {names : Names} {s s' : Source} {order : ByteOrder} {i : Nat}

theorem encodes (h : info.WrittenAt names s order i o) : Entry.Encodes
    ⟨names, i, s.entryHead order i⟩ s (Cursor.skip { offset := i, order } 12) info o :=
  (Names.writtenAt_iff (c := { offset := i, order }).mp h).2

theorem entryHead_eq (h : info.WrittenAt names s order i o) :
    s.entryHead order i = info.head o := h.encodes.head

theorem kind?_eq (h : info.WrittenAt names s order i o) :
    (s.entryHead order i).kind? = some info.kind := h.encodes.kind?_eq

/-- **The bits that mean nothing** in the words of an entry. -/
theorem freeBits_eq (h : info.WrittenAt names s order i o) :
    s.freeBits order i = (info.cells o).map Cell.free := by
  have hpayload : (info.payload o).map Cell.free = List.replicate (info.payload o).length
      (if info.kind = .int then intFree else 0) :=
    List.map_eq_replicate_iff.mpr free_of_mem_payload
  have hlength := length_payload h.denote.length_parts
  rw [Source.freeBits, h.kind?_eq, h.entryHead_eq, payloadSize_head, ← hlength,
    Nat.mul_div_cancel_left _ (by decide), cells, List.map_append, hpayload]
  simp only [Option.some.injEq]
  rfl

/-- The words after the head of an entry, if nothing stands before the parts. -/
theorem words_rows (h : info.WrittenAt names s order i o) (hfixed : info.fixed = []) :
    s.words order (i + 12) ((s.entryHead order i).payloadSize / 4) = info.rows o :=
  (Entry.admits_rows_iff hfixed Source.words_lt).mp h.encodes.words

/-- **The offsets of the names in an entry.** -/
theorem entryNames_eq (h : info.WrittenAt names s order i o) :
    s.entryNames order i = o.head :: o.parts := by
  have hlength := h.denote.length_parts
  have hparts : s.partNames order i info.kind = o.parts := by
    unfold Source.partNames
    split
    · next hnone =>
      have hnil : info.parts = [] := List.eq_nil_iff_forall_not_mem.mpr fun p hp => by
        have := info.length_words_of_parts p hp
        omega
      rw [hnil] at hlength
      exact (List.eq_nil_of_length_eq_zero hlength).symm
    · next hsome =>
      obtain ⟨hfixed, k, hk⟩ := info.fixed_of_partSize hsome
      have hrows := h.words_rows hfixed
      rw [h.entryHead_eq, payloadSize_head, Kind.payloadSize_of_partSize hsome, hk, Nat.mul_assoc,
        Nat.mul_div_cancel_left _ (by decide)] at hrows
      rw [h.entryHead_eq, hk]
      refine Source.heads_of_rows (fun p hp => ?_) hlength hrows
      have := info.length_words_of_parts p hp
      omega
  rw [Source.entryNames, h.kind?_eq, h.entryHead_eq]
  exact congrArg _ hparts

end WrittenAt

end TypeInfo

/-! ## Entries that are the same -/

/-- Words that agree with those of cells, up to the bits that mean nothing, are words of the cells. -/
theorem forall₂_admits_of_agree {s s' : Source} {order : ByteOrder} {cells : List Cell} {i : Nat}
    (h : List.Forall₂ Cell.Admits cells (s.words order i cells.length))
    (hagree : ∀ j free, (cells.map Cell.free)[j]? = some free →
      Agree free (s'.word order (i + 4 * j)) (s.word order (i + 4 * j))) :
    List.Forall₂ Cell.Admits cells (s'.words order i cells.length) := by
  induction cells generalizing i with
  | nil => exact .nil
  | cons cell cells ih =>
    rw [List.length_cons, Source.words] at h ⊢
    obtain ⟨hfirst, hrest⟩ := List.forall₂_cons.mp h
    refine .cons ⟨s'.word_lt order i, (hagree 0 _ rfl).trans hfirst.2⟩ (ih hrest fun j free hj => ?_)
    have hnext := hagree (j + 1) free hj
    rwa [Nat.mul_succ, Nat.add_comm (4 * j), ← Nat.add_assoc] at hnext

namespace SameEntry

variable {s s' : Source} {order : ByteOrder} {i : Nat} {options : TextOptions}

/-- **A name in the entry** stands for the same in both blobs. -/
theorem denotes (h : SameEntry s s' order i)
    (haddress : (s'.header order).stringStart = (s.header order).stringStart) {offset : Nat}
    (hoffset : offset ∈ s.entryNames order i) {name : Option Text}
    (hname : Names.Denotes ⟨s.header order, options⟩ s offset name) :
    Names.Denotes ⟨s'.header order, options⟩ s' offset name := by
  cases name with
  | none => exact hname
  | some t =>
    obtain ⟨h0, a, bs, ha, hbs, ht⟩ := hname
    have hsame := h.strings offset hoffset h0 a bs ha hbs
    refine ⟨h0, a, bs, ?_, ⟨hsame.trans hbs.1, hbs.2⟩, ht⟩
    rw [← ha]
    exact congrArg (· + (offset : Int)) haddress

/-- **The entry of a type** stands in both blobs. -/
theorem writtenAt (h : SameEntry s s' order i)
    (haddress : (s'.header order).stringStart = (s.header order).stringStart)
    (hsize : s'.bytes.size = s.bytes.size) {info : TypeInfo} {o : NameOffsets}
    (hw : info.WrittenAt ⟨s.header order, options⟩ s order i o) :
    info.WrittenAt ⟨s'.header order, options⟩ s' order i o := by
  have hnames : ∀ offset ∈ o.head :: o.parts, offset ∈ s.entryNames order i := by
    rw [hw.entryNames_eq]
    exact fun _ => id
  obtain ⟨hhead, hparts⟩ := List.forall_mem_cons.mp hnames
  have hmem := (List.forall₂_and_left _ _).mpr ⟨hparts, hw.denote.parts⟩
  refine ⟨hw.wellFormed, ⟨h.denotes haddress hhead hw.denote.head, ?_⟩, by rw [hsize]; exact hw.inside,
    forall₂_admits_of_agree hw.words fun j free hfree => ?_⟩
  · exact hmem.imp fun _ _ hoffset => h.denotes haddress hoffset.1 hoffset.2
  · rw [← hw.freeBits_eq] at hfree
    obtain ⟨hj, rfl⟩ := List.getElem?_eq_some_iff.mp hfree
    exact h.words j hj

/-- **Entries one after the other** stand in both blobs, by induction on their number. -/
theorem tiled (haddress : (s'.header order).stringStart = (s.header order).stringStart)
    (hsize : s'.bytes.size = s.bytes.size) {stop : Nat} {os : List NameOffsets}
    {infos : List TypeInfo}
    (htiled : Names.Tiled ⟨s.header order, options⟩ s order stop i os infos)
    (h : ∀ j ∈ s.entryStarts order i infos.length, SameEntry s s' order j) :
    Names.Tiled ⟨s'.header order, options⟩ s' order stop i os infos := by
  induction htiled with
  | done => exact .done
  | entry hw _ ih =>
    -- The head of an entry says where the next one starts, in the type as in the blob.
    rw [List.length_cons, Source.entryStarts, hw.entryHead_eq, TypeInfo.payloadSize_head] at h
    obtain ⟨hfirst, hrest⟩ := List.forall_mem_cons.mp h
    exact .entry (hfirst.writtenAt haddress hsize hw) (ih hrest)

end SameEntry

/-! ## Blobs that are the same -/

namespace SameWhereRead

variable {s s' : Source} {order : ByteOrder} {n : Nat}

/-- The words of the header that say where the sections are. -/
theorem word (h : SameWhereRead s s' order n) {i : Nat} (hi : i + 4 ≤ 16) :
    s'.word order (4 + i) = s.word order (4 + i) := by
  rw [Source.word, Source.word, Source.slice_within hi, Source.slice_within hi, h.places]

/-- **The headers** differ in nothing but the version, the flags and the size of the strings. -/
theorem header (h : SameWhereRead s s' order n) : s'.header order = { s.header order with
    version := (s'.header order).version
    flags := (s'.header order).flags
    stringSize := (s'.header order).stringSize } := by
  have h₁ := h.word (i := 0) (by decide)
  have h₂ := h.word (i := 4) (by decide)
  have h₃ := h.word (i := 8) (by decide)
  have h₄ := h.word (i := 12) (by decide)
  simp only [Source.header, h.magic, h₁, h₂, h₃, h₄]

/-- **A table of one blob** is one of the other, but for what the headers may differ in. -/
theorem table (h : SameWhereRead s s' order n) {c c' : Cursor} (hc : c.IsOpen) (hc' : c'.IsOpen)
    {options : TextOptions} {t : Table} (hn : t.types.length = n)
    (horder : (s.header order).magic = Header.magicNumber)
    (ht : (Table.decode options s c).1.outcome = .ok t) :
    (Table.decode options s' c').1.outcome = .ok ⟨s'.header order, t.types⟩ ∧
      t.header = s.header order := by
  obtain ⟨order', os, infos, hsize, hmagic, hin, htiled, rfl⟩ := (Table.decode_ok_iff hc).mp ht
  obtain rfl := Read.order_unique (by omega) hmagic horder
  have haddress : (s'.header order').stringStart = (s.header order').stringStart := by
    rw [h.header]
    rfl
  have hstart : s'.word order' 4 + s'.word order' 8 = s.word order' 4 + s.word order' 8 := by
    rw [h.word (i := 0) (by decide), h.word (i := 4) (by decide)]
  have hstop : s'.word order' 12 = s.word order' 12 := h.word (i := 8) (by decide)
  have hentries := h.entries
  rw [← hn, TypeEntry.length_numbered] at hentries
  refine ⟨(Table.decode_ok_iff hc').mpr ⟨order', os, infos, ?_, ?_, ?_, ?_, rfl⟩, rfl⟩
  · rwa [h.size]
  · rw [h.header]
    exact hmagic
  · rwa [hstart, h.size]
  · rw [hstart, hstop]
    exact SameEntry.tiled haddress h.size htiled hentries

end SameWhereRead

/-- **What decoding depends on**: a blob of the same size that is the same wherever a blob was read
that has been decoded is decoded with the same settings, to the same types with the same identifiers,
and to a header that differs at most in the version, the flags and the size of the strings. -/
theorem decode_footprint {settings : Settings} {b b' : Bytes} {order : ByteOrder} {t : Table}
    (h : (settings.decode (.memory b)).outcome = .ok t)
    (horder : (Source.header { bytes := b } order).magic = Header.magicNumber)
    (hsame : SameWhereRead { bytes := b } { bytes := b' } order t.types.length) :
    ∃ version flags stringSize, (settings.decode (.memory b')).outcome =
      .ok { t with header := { t.header with version, flags, stringSize } } := by
  cases hmake : settings.make.outcome with
  | error e =>
    rw [Settings.outcome_decode_of_refused hmake] at h
    cases h
  | ok config =>
    have hdecode := Settings.outcome_decode_of_make hmake
    rw [hdecode, Config.table_memory, Config.outcome_tableFrom_ok_iff] at h
    obtain ⟨options, hoptions, htable⟩ := h
    obtain ⟨htable', hheader⟩ :=
      hsame.table Cursor.isOpen_start Cursor.isOpen_start rfl horder htable
    rw [hsame.header] at htable'
    rw [hdecode, Config.table_memory, hheader]
    exact ⟨_, _, _, Config.outcome_tableFrom_ok_iff.mpr ⟨options, hoptions, htable'⟩⟩

/-- The blob with an integer and a function type, with another version, other flags, no size of its
strings and other bits where they mean nothing; and with a byte that no name has before its names. -/
def variadicVariant : Bytes := #[
  0xEB, 0x9F, 9, 255, 0, 0, 0, 24, 0, 0, 0, 0, 0, 0, 0, 44, 0, 0, 0, 44, 0, 0, 0, 0,
  0, 0, 0, 1, 1, 0, 0, 0, 0, 0, 0, 4, 1, 0, 0, 32,
  0, 0, 0, 0, 0x2D, 0xAA, 0, 2, 0, 0, 0, 1, 0, 0, 0, 5, 0, 0, 0, 1, 0, 0, 0, 0, 0, 0, 0, 0,
  7, 105, 110, 116, 0, 97, 0]

theorem decode_footprint_variadic :
    (((Settings.value .null).decode (.memory variadicBlob)).outcome = .ok variadicTable ∧
      (Source.header { bytes := variadicBlob } .big).magic = Header.magicNumber ∧
      SameWhereRead { bytes := variadicBlob } { bytes := variadicVariant } .big
        variadicTable.types.length) ∧
    ∃ version flags stringSize,
      ((Settings.value .null).decode (.memory variadicVariant)).outcome =
        .ok { variadicTable with
          header := { variadicTable.header with version, flags, stringSize } } := by
  have htable : ((Settings.value .null).decode (.memory variadicBlob)).outcome = .ok variadicTable :=
    toOption_eq_some_iff.mp (by decide +kernel)
  have horder : (Source.header { bytes := variadicBlob } .big).magic = Header.magicNumber := by decide
  have hwords : ∀ i ∈ Source.entryStarts { bytes := variadicBlob } .big 24 2,
      ∀ j (hj : j < (Source.freeBits { bytes := variadicBlob } .big i).length),
        Agree (Source.freeBits { bytes := variadicBlob } .big i)[j]
          (Source.word { bytes := variadicVariant } .big (i + 4 * j))
          (Source.word { bytes := variadicBlob } .big (i + 4 * j)) := by
    decide
  -- From the first name on the bytes are the same.
  have hstrings : ∀ k, variadicVariant.toList.drop (69 + k) = variadicBlob.toList.drop (69 + k) := by
    intro k
    rw [← List.drop_drop, ← List.drop_drop]
    rfl
  have hentries : ∀ i ∈ Source.entryStarts { bytes := variadicBlob } .big 24 2,
      SameEntry { bytes := variadicBlob } { bytes := variadicVariant } .big i := by
    refine fun i hi => ⟨hwords i hi, fun offset _ h0 a bs ha _ => ?_⟩
    have haddress : ((68 + offset : Nat) : Int) = a := ha
    obtain ⟨k, rfl⟩ : ∃ k, a = 69 + k := ⟨a - 69, by omega⟩
    exact Source.slice_congr (hstrings k) _
  have hsame : SameWhereRead { bytes := variadicBlob } { bytes := variadicVariant } .big
      variadicTable.types.length := ⟨rfl, by decide, by decide, hentries⟩
  exact ⟨⟨htable, horder, hsame⟩, decode_footprint htable horder hsame⟩

end Btf
