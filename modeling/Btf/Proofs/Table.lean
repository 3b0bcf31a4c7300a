import Btf.Decoder
import Btf.Proofs.Layout
import Btf.Proofs.Logged
import Btf.Proofs.Section

/-!
# What a table says about its blob

A blob is decoded exactly if its header has the magic number and its type section is tiled with
entries. Writing the types of the table again therefore gives the section back, up to the bits that
mean nothing.

* `Names.typeSection_ok_iff`, **`Table.decode_ok_iff`**: when there is a table, and which one;
* `outcome_decode_memory`: decoding with a configuration;
* `Table.cells`: the words that the types of a table are written with;
* **`decode_rewritten`**: the types of a table are written with the words of its section.
-/

namespace Btf

namespace Names

variable {names : Names} {s : Source} {c : Cursor} {infos : List TypeInfo}

theorem outcome_typeSection {start : Nat} (hstart : names.header.typeStart = start)
    (hin : start ≤ s.bytes.size) : names.typeSection.outcome s c =
      (names.entriesUpTo names.header.typeEnd s [] { c with offset := start }).1 := by
  rw [typeSection, Read.outcome, Read.run_bind, Read.run_mapError, hstart,
    Read.run_seek (Int.natCast_nonneg _) (Int.ofNat_le.mpr hin)]
  rfl

/-- **The type section** is read as the types that it is tiled with. -/
theorem typeSection_ok_iff {start stop : Nat} (hstart : names.header.typeStart = start)
    (hstop : names.header.typeEnd = stop) (hle : start ≤ stop) (hc : c.IsOpen) :
    names.typeSection.outcome s c = .ok infos ↔
      start ≤ s.bytes.size ∧ ∃ os, Tiled names s c.order stop start os infos := by
  by_cases hin : start ≤ s.bytes.size
  · have hopen : Cursor.IsOpen { c with offset := start } := hc
    rw [outcome_typeSection hstart hin, hstop, entriesUpTo_ok_iff hopen hle]
    constructor
    · rintro ⟨os, new, htiled, rfl⟩
      exact ⟨hin, os, htiled⟩
    · rintro ⟨-, os, htiled⟩
      exact ⟨os, infos, htiled, rfl⟩
  · rw [typeSection, Read.outcome, Read.run_bind, Read.run_mapError, hstart, Read.seek,
      Read.run_ofRun, if_pos (.inr (by omega))]
    exact ⟨fun h => (by cases h), fun h => absurd h.1 hin⟩

end Names

/-- Where the type section of the header of a blob starts. -/
theorem Source.typeStart_header (s : Source) (order : ByteOrder) :
    (s.header order).typeStart = (s.word order 4 + s.word order 8 : Nat) := rfl

theorem Source.typeEnd_header (s : Source) (order : ByteOrder) :
    (s.header order).typeEnd = (s.word order 4 + s.word order 8 + s.word order 12 : Nat) := rfl

namespace Table

variable {options : TextOptions} {s : Source} {c : Cursor}

theorem appends_decode (options : TextOptions) (s : Source) (c : Cursor) :
    Logged.Appends (decode options s c).1 := by
  unfold decode
  split
  · exact Logged.appends_throw _
  · exact (Logged.appends_note _).bind fun _ => (Logged.appends_lift _).bind fun _ =>
      (Logged.appends_note _).bind fun _ => Logged.appends_pure _

theorem outcome_decode (options : TextOptions) (s : Source) (c : Cursor) :
    (decode options s c).1.outcome = match Read.layout.run s c with
      | (.error fault, _) => .error fault
      | (.ok layout, c) => (Names.typeSection ⟨layout.header, options⟩).outcome s c >>= fun infos =>
        .ok ⟨layout.header, TypeEntry.numbered infos⟩ := by
  unfold decode
  rcases Read.layout.run s c with ⟨fault | layout, c'⟩
  · rfl
  · dsimp only [Read.outcome]
    rcases (Names.typeSection ⟨layout.header, options⟩).run s c' with ⟨_ | _, _⟩ <;> rfl

/-- **There is a table** if the blob has a header and its type section is tiled with entries, and it
holds what these say. -/
theorem decode_ok_iff (hc : c.IsOpen) {t : Table} : (decode options s c).1.outcome = .ok t ↔
    ∃ order os infos, 24 ≤ s.bytes.size ∧ (s.header order).magic = Header.magicNumber ∧
      s.word order 4 + s.word order 8 ≤ s.bytes.size ∧
        Names.Tiled ⟨s.header order, options⟩ s order
          (s.word order 4 + s.word order 8 + s.word order 12) (s.word order 4 + s.word order 8)
            os infos ∧ t = ⟨s.header order, TypeEntry.numbered infos⟩ := by
  have hsection : ∀ (order : ByteOrder) (infos : List TypeInfo),
      (Names.typeSection ⟨s.header order, options⟩).outcome s { c with offset := 24, order } =
        .ok infos ↔ s.word order 4 + s.word order 8 ≤ s.bytes.size ∧ ∃ os, Names.Tiled
          ⟨s.header order, options⟩ s order (s.word order 4 + s.word order 8 + s.word order 12)
            (s.word order 4 + s.word order 8) os infos := fun order infos =>
    Names.typeSection_ok_iff (s.typeStart_header order) (s.typeEnd_header order)
      (Nat.le_add_right _ _) hc
  rw [outcome_decode]
  constructor
  · intro h
    split at h
    · cases h
    · next layout c' hlayout =>
      obtain ⟨hsize, hheader, hmagic, rfl⟩ := (Read.layout_run_iff hc).mp hlayout
      obtain ⟨infos, hinfos, h⟩ := bind_eq_ok.mp h
      cases h
      rw [hheader] at hinfos hmagic
      obtain ⟨hin, os, htiled⟩ := (hsection _ _).mp hinfos
      exact ⟨layout.order, os, infos, hsize, hmagic, hin, htiled, by rw [hheader]⟩
  · rintro ⟨order, os, infos, hsize, hmagic, hin, htiled, rfl⟩
    have hlayout := (Read.layout_run_iff (l := ⟨order, s.header order⟩) hc).mpr
      ⟨hsize, rfl, hmagic, rfl⟩
    rw [hlayout]
    exact bind_eq_ok.mpr ⟨infos, (hsection _ _).mpr ⟨hin, os, htiled⟩, rfl⟩

end Table

/-- The types of a table, in their order. -/
def Table.infos (t : Table) : List TypeInfo := t.types.map TypeEntry.info

/-- The words that the types of a table are written with, one after the other. -/
def Table.cells (t : Table) (os : List NameOffsets) : List Cell :=
  (List.zipWith (fun o info => info.cells o) os t.infos).flatten

theorem TypeEntry.map_info_numbered (infos : List TypeInfo) :
    (TypeEntry.numbered infos).map TypeEntry.info = infos := by
  rw [numbered, List.map_map]
  exact List.zipIdx_map_fst 1 infos

theorem TypeEntry.map_id_numbered (infos : List TypeInfo) :
    (TypeEntry.numbered infos).map TypeEntry.id = List.range' 1 infos.length := by
  rw [numbered, List.map_map]
  exact List.zipIdx_map_snd 1 infos

/-- Decoding a blob in memory, with the options that a configuration says. -/
theorem outcome_decode_memory (b : Bytes) (conf : Value) : (decode (.memory b) conf).outcome =
    (DecoderOptions.configured conf).outcome.mapError .config >>= fun options =>
      (Table.decode options.text { bytes := b } {}).1.outcome.mapError .blob := by
  rw [decode, Logged.outcome_bind, Logged.outcome_mapError]
  · simp only [Logged.outcome_mapError, Input.table]
  · intro options
    exact (Table.appends_decode _ _ _).mapError _

/-- The types of a table are written, in a byte order and with some offsets for their names, with the
words of the type section of a blob, up to the bits that mean nothing. -/
structure Table.WrittenIn (t : Table) (s : Source) (options : TextOptions) (order : ByteOrder)
    (os : List NameOffsets) (ws : List Nat) : Prop where
  header : t.header = s.header order
  magic : t.header.magic = Header.magicNumber
  ids : t.types.map TypeEntry.id = List.range' 1 t.types.length
  names : List.Forall₂ (fun o info => o.Denote ⟨t.header, options⟩ s info) os t.infos
  wellFormed : ∀ info ∈ t.infos, info.WellFormed
  length : (4 * ws.length : Nat) = t.header.typeSize
  inside : t.header.typeEnd ≤ s.bytes.size
  bytes : s.slice t.header.typeStart.toNat (4 * ws.length) = ws.flatMap (order.bytes 4)
  words : List.Forall₂ Cell.Admits (t.cells os) ws

theorem Table.exists_writtenIn {options : TextOptions} {s : Source} {c : Cursor} {t : Table}
    (hc : c.IsOpen) (h : (Table.decode options s c).1.outcome = .ok t) :
    ∃ order os ws, t.WrittenIn s options order os ws := by
  obtain ⟨order, os, infos, -, hmagic, hin, htiled, rfl⟩ := (Table.decode_ok_iff hc).mp h
  obtain ⟨hstop, n, hn, hwords⟩ := htiled.words hin
  have hinfos : Table.infos ⟨s.header order, TypeEntry.numbered infos⟩ = infos :=
    TypeEntry.map_info_numbered infos
  refine ⟨order, os, s.words order (s.word order 4 + s.word order 8) n, rfl, hmagic, ?_, ?_, ?_, ?_,
    ?_, ?_, ?_⟩
  · rw [TypeEntry.map_id_numbered, TypeEntry.length_numbered]
  · rw [hinfos]
    exact htiled.denote
  · rw [hinfos]
    exact htiled.wellFormed
  · rw [s.length_words]
    change ((4 * n : Nat) : Int) = (s.word order 12 : Nat)
    omega
  · rw [s.typeEnd_header]
    exact Int.ofNat_le.mpr hstop
  · rw [s.length_words, s.typeStart_header, Int.toNat_natCast]
    exact s.slice_words order (by omega)
  · rw [Table.cells, hinfos]
    exact hwords

/-- **Writing the types of a table again gives its type section back**, up to the bits that mean
nothing. -/
theorem decode_rewritten {b : Bytes} {conf : Value} {t : Table}
    (h : (decode (.memory b) conf).outcome = .ok t) :
    ∃ options order os ws, (DecoderOptions.configured conf).outcome = .ok options ∧
      t.WrittenIn { bytes := b } options.text order os ws := by
  rw [outcome_decode_memory, bind_eq_ok] at h
  obtain ⟨options, hoptions, htable⟩ := h
  rw [mapError_eq_ok] at hoptions htable
  obtain ⟨order, os, ws, hws⟩ := Table.exists_writtenIn Cursor.isOpen_start htable
  exact ⟨options, order, os, ws, hoptions, hws⟩

/-- A big endian blob with an integer type, all of whose bits that mean nothing are set, and a function
type with further parameters. -/
def variadicBlob : Bytes := #[
  0xEB, 0x9F, 1, 0, 0, 0, 0, 24, 0, 0, 0, 0, 0, 0, 0, 44, 0, 0, 0, 44, 0, 0, 0, 7,
  0, 0, 0, 1, 0x61, 0xFF, 0, 0, 0, 0, 0, 4, 0xF9, 0, 0xFF, 32,
  0, 0, 0, 0, 0x0D, 0, 0, 2, 0, 0, 0, 1, 0, 0, 0, 5, 0, 0, 0, 1, 0, 0, 0, 0, 0, 0, 0, 0,
  0, 105, 110, 116, 0, 97, 0]

def variadicTable : Table where
  header := ⟨0xEB9F, 1, 0, 24, 0, 44, 44, 7⟩
  types := [⟨1, .int (some "int") 4 32 0 .signed⟩, ⟨2, .funcProto 1 [⟨some "a", 1⟩] true⟩]

theorem decode_rewritten_variadic : (decode (.memory variadicBlob) .null).outcome = .ok variadicTable ∧
    ∃ options order os ws, (DecoderOptions.configured .null).outcome = .ok options ∧
      variadicTable.WrittenIn { bytes := variadicBlob } options.text order os ws := by
  have h : (decode (.memory variadicBlob) .null).outcome = .ok variadicTable :=
    toOption_eq_some_iff.mp (by decide +kernel)
  exact ⟨h, decode_rewritten h⟩

end Btf
