import Btf.Proofs.Footprint
import Btf.Proofs.Section.Split

/-!
# Decoding stays within the blob

The words of a header are read from the blob, and sums of them are places in it. The sums are of
unbounded integers, so that a section or a name that lies outside is found to do so, and a table is
one of a section and of strings within the blob.

* `TypeInfo.names`: the names in a type;
* `Source.Spells`: a text is decoded from the bytes of the blob up to the first zero byte;
* `TypeInfo.WrittenAt.offset_lt`, `TypeInfo.WrittenAt.spells`: the names of an entry;
* `Table.Within`: a table lies within its blob; **`Table.within_of_decode`**;
* `Table.cursor_of_decode`: the cursor ends at the end of the section;
* `Table.outcome_outside`: a section that starts outside is refused;
* **`decode_within`**: what decodes is within its blob, and what starts outside is refused as such.
-/

namespace Btf

/-- The names in a type: its own, and those of its members, enumerators and parameters. -/
def TypeInfo.names : TypeInfo → List Text
  | int name .. => name.toList
  | ref .. | array .. => []
  | typedef name _ | fwd name _ | func name _ => [name]
  | composite _ name _ _ members => name.toList ++ members.filterMap Member.name
  | enum name _ enumerators => name.toList ++ enumerators.map Enumerator.name
  | funcProto _ params _ => params.filterMap Param.name

/-- A text is what the bytes from offset `i` up to the first zero byte, which is at `stop`, are decoded
to. -/
structure Source.Spells (s : Source) (options : TextOptions) (i stop : Nat) (t : Text) : Prop where
  lt : stop < s.bytes.size
  firstZero : s.FirstZero i stop
  text : Text.decode options.encoding options.errors (s.bytes.extract i stop).toList = .ok t

theorem Source.HasString.spells {s : Source} {i : Nat} {bs : List UInt8} (h : s.HasString i bs)
    {options : TextOptions} {t : Text}
    (ht : Text.decode options.encoding options.errors bs = .ok t) :
    s.Spells options i (i + bs.length) t := by
  obtain ⟨hlt, -⟩ := Array.getElem?_eq_some_iff.mp h.firstZero.zero
  exact ⟨hlt, h.firstZero, by rwa [h.extract_eq]⟩

/-- What a list relates to stands in relation to something of it. -/
theorem exists_of_forall₂ {α β : Type} {R : α → β → Prop} {as : List α} {bs : List β}
    (h : List.Forall₂ R as bs) {b : β} (hb : b ∈ bs) : ∃ a ∈ as, R a b := by
  induction h with
  | nil => cases hb
  | @cons a b' as bs hab _ ih =>
    rcases List.mem_cons.mp hb with rfl | hb
    · exact ⟨a, List.mem_cons_self, hab⟩
    · obtain ⟨a', ha', hr⟩ := ih hb
      exact ⟨a', List.mem_cons_of_mem a ha', hr⟩

namespace TypeInfo

variable {info : TypeInfo}

/-- The names in a type are its own and those of the parts that are written for it. -/
theorem mem_names {t : Text} (h : t ∈ info.names) :
    info.headName = some t ∨ ∃ p ∈ info.parts, p.name = some t := by
  cases info with
  | ref | array => cases h
  | int name => exact .inl (Option.mem_toList.mp h)
  | typedef name | fwd name | func name => exact .inl (congrArg some (List.mem_singleton.mp h).symm)
  | composite kind name size flag members =>
    rcases List.mem_append.mp h with h | h
    · exact .inl (Option.mem_toList.mp h)
    · obtain ⟨m, hm, hname⟩ := List.mem_filterMap.mp h
      exact .inr ⟨m.part, List.mem_map_of_mem hm, hname⟩
  | enum name size enumerators =>
    rcases List.mem_append.mp h with h | h
    · exact .inl (Option.mem_toList.mp h)
    · obtain ⟨x, hx, rfl⟩ := List.mem_map.mp h
      exact .inr ⟨x.part, List.mem_map_of_mem hx, rfl⟩
  | funcProto result params variadic =>
    obtain ⟨p, hp, hname⟩ := List.mem_filterMap.mp h
    exact .inr ⟨p.part, List.mem_map_of_mem (List.mem_append_left _ hp), hname⟩

namespace WrittenAt

variable {names : Names} {s : Source} {order : ByteOrder} {i : Nat} {o : NameOffsets}

/-- The offsets of names are words of the blob. -/
theorem offset_lt (h : info.WrittenAt names s order i o) :
    ∀ offset ∈ o.head :: o.parts, offset < 0x100000000 := by
  rw [← h.entryNames_eq, Source.entryNames, List.forall_mem_cons]
  refine ⟨s.word_lt order i, ?_⟩
  rw [h.kind?_eq]
  dsimp only
  unfold Source.partNames
  split
  · exact List.forall_mem_nil _
  · exact List.forall_mem_map.mpr fun j _ => s.word_lt order _

/-- **The names of an entry** are decoded from bytes of the blob, at offsets other than zero. -/
theorem spells (h : info.WrittenAt names s order i o) {t : Text} (ht : t ∈ info.names) :
    ∃ offset start stop : Nat, 1 ≤ offset ∧ offset < 0x100000000 ∧
      start = names.header.stringAddress offset ∧ s.Spells names.options start stop t := by
  have hdenotes : ∃ offset ∈ o.head :: o.parts, names.Denotes s offset (some t) := by
    rcases mem_names ht with hhead | ⟨p, hp, hname⟩
    · exact ⟨o.head, List.mem_cons_self, hhead ▸ h.denote.head⟩
    · have hmem : some t ∈ info.parts.map TypePart.name := hname ▸ List.mem_map_of_mem hp
      obtain ⟨offset, hoffset, hden⟩ := exists_of_forall₂ h.denote.parts hmem
      exact ⟨offset, List.mem_cons_of_mem _ hoffset, hden⟩
  obtain ⟨offset, hoffset, h0, start, bs, hstart, hbs, htext⟩ := hdenotes
  exact ⟨offset, start, _, Nat.pos_of_ne_zero h0, h.offset_lt offset hoffset, hstart.symm,
    hbs.spells htext⟩

end WrittenAt

end TypeInfo

/-- Every type of the section is written somewhere in it. -/
theorem Names.Tiled.exists_writtenAt {names : Names} {s : Source} {order : ByteOrder} {stop i : Nat}
    {os : List NameOffsets} {infos : List TypeInfo} (h : Tiled names s order stop i os infos) :
    ∀ info ∈ infos, ∃ j o, info.WrittenAt names s order j o := by
  induction h with
  | done => exact List.forall_mem_nil _
  | entry hw _ ih => exact List.forall_mem_cons.mpr ⟨⟨_, _, hw⟩, ih⟩

/-- The section is read up to its end. -/
theorem Names.cursor_of_typeSection {names : Names} {s : Source} {c : Cursor}
    {infos : List TypeInfo} {start stop : Nat} (hstart : names.header.typeStart = start)
    (hstop : names.header.typeEnd = stop) (hle : start ≤ stop)
    (h : names.typeSection.outcome s c = .ok infos) :
    ((names.typeSection.run s c).2.offset : Int) = names.header.typeEnd := by
  by_cases hin : start ≤ s.bytes.size
  · have hinside : ¬ (names.header.typeStart < 0 ∨ (s.bytes.size : Int) < names.header.typeStart) := by
      rw [hstart]
      omega
    rw [Read.outcome, run_typeSection, if_neg hinside] at h
    rw [run_typeSection, if_neg hinside]
    obtain ⟨hcursor, -⟩ := cursor_of_entriesUpTo (c := { c with offset := names.header.typeStart.toNat })
      (by rw [hstart, hstop]; exact Int.ofNat_le.mpr hle) (by rw [hstart]; exact hin) (Prod.ext h rfl)
    have hoffset : _ = names.header.typeEnd.toNat := congrArg Cursor.offset hcursor
    rw [hstop, Int.toNat_natCast] at hoffset
    rw [hstop]
    exact congrArg Int.ofNat hoffset
  · rw [Read.outcome, run_typeSection, if_pos (.inr (by rw [hstart]; omega))] at h
    cases h

namespace Table

/-- A table lies within its blob: the header and the section do, and every name is decoded from bytes
of the blob up to a zero byte of it. -/
structure Within (t : Table) (s : Source) (options : TextOptions) (order : ByteOrder) : Prop where
  size : 24 ≤ s.bytes.size
  header : t.header = s.header order
  stop : t.header.headerSize + t.header.typeOffset + t.header.typeSize ≤ s.bytes.size
  names : ∀ e ∈ t.types, ∀ name ∈ e.info.names, ∃ offset start stop : Nat,
    1 ≤ offset ∧ offset < 0x100000000 ∧
      start = t.header.headerSize + t.header.stringOffset + offset ∧
        s.Spells options start stop name

variable {options : TextOptions} {s : Source} {c : Cursor} {t : Table} {order : ByteOrder}

/-- **A table that is decoded lies within its blob.** -/
theorem within_of_decode (hc : c.IsOpen) (h : (decode options s c).1.outcome = .ok t) :
    ∃ order, t.Within s options order := by
  obtain ⟨order, os, infos, hsize, -, hin, htiled, rfl⟩ := (decode_ok_iff hc).mp h
  obtain ⟨hstop, -⟩ := htiled.words hin
  refine ⟨order, hsize, rfl, Int.ofNat_le.mpr hstop, fun e he name hname => ?_⟩
  have hinfo : e.info ∈ infos := by
    rw [← TypeEntry.map_info_numbered infos]
    exact List.mem_map_of_mem he
  obtain ⟨i, o, hw⟩ := htiled.exists_writtenAt e.info hinfo
  exact hw.spells hname

/-- **The cursor ends at the end of the section.** -/
theorem cursor_of_decode (hc : c.IsOpen) (h : (decode options s c).1.outcome = .ok t) :
    ((decode options s c).2.offset : Int) = t.header.typeEnd := by
  rw [outcome_decode] at h
  unfold decode
  rcases hlayout : Read.layout.run s c with ⟨fault | layout, c₁⟩
  · rw [hlayout] at h
    cases h
  · rw [hlayout] at h
    obtain ⟨infos, hinfos, h⟩ := bind_eq_ok.mp h
    cases h
    obtain ⟨-, hheader, -, -⟩ := (Read.layout_run_iff hc).mp hlayout
    exact Names.cursor_of_typeSection (hheader ▸ s.typeStart_header _)
      (hheader ▸ s.typeEnd_header _) (Nat.le_add_right _ _) hinfos

/-- **A section that starts outside of the blob** is refused, wherever it would end. -/
theorem outcome_outside (hc : c.IsOpen) (hsize : 24 ≤ s.bytes.size)
    (hmagic : (s.header order).magic = Header.magicNumber)
    (hout : (s.bytes.size : Int) < (s.header order).typeStart) :
    (decode options s c).1.outcome =
      .error (.source (.outside (s.header order).typeStart s.bytes.size)) := by
  have hlayout := (Read.layout_run_iff (l := ⟨order, s.header order⟩) hc).mpr
    ⟨hsize, rfl, hmagic, rfl⟩
  rw [outcome_decode, hlayout]
  dsimp only
  rw [Read.outcome, Names.run_typeSection, if_pos (.inr hout)]
  rfl

end Table

/-- **What decodes is within its blob, and what starts outside is refused.** The header and the section
of a blob that is decoded lie within it, the cursor ends at the end of the section, and every name is
decoded from bytes of the blob. A blob whose section starts beyond its end is refused for that, with the
place where it would start. -/
theorem decode_within (settings : Settings) (buffer : Buffer) :
    (∀ t, (settings.decode (.ofBuffer buffer)).outcome = .ok t →
      ∃ config options order, settings.make.outcome = .ok config ∧
        config.textOptions = .ok options ∧ t.Within { bytes := buffer.content } options order ∧
          ((Table.decode options { bytes := buffer.content } {}).2.offset : Int) =
            t.header.typeEnd) ∧
    ∀ config options order, settings.make.outcome = .ok config → config.textOptions = .ok options →
      24 ≤ buffer.content.size →
      (Source.header { bytes := buffer.content } order).magic = Header.magicNumber →
      buffer.content.size < (Source.header { bytes := buffer.content } order).headerSize +
        (Source.header { bytes := buffer.content } order).typeOffset →
      ∃ fault details, (settings.decode (.ofBuffer buffer)).outcome = .error (.blob fault) ∧
        fault.report? = some ⟨.ioError,
          some ⟨(Source.header { bytes := buffer.content } order).headerSize +
            (Source.header { bytes := buffer.content } order).typeOffset, 0⟩, details⟩ := by
  constructor
  · intro t h
    rw [Settings.outcome_decode, bind_eq_ok] at h
    obtain ⟨config, hmake, h⟩ := h
    obtain ⟨options, hoptions, htable⟩ := Config.outcome_tableFrom_ok_iff.mp h
    obtain ⟨order, hwithin⟩ := Table.within_of_decode Cursor.isOpen_start htable
    exact ⟨config, options, order, mapError_eq_ok.mp hmake, hoptions, hwithin,
      Table.cursor_of_decode Cursor.isOpen_start htable⟩
  · intro config options order hmake hoptions hsize hmagic hout
    have hrefused : (Table.decode options { bytes := buffer.content } {}).1.outcome = _ :=
      Table.outcome_outside Cursor.isOpen_start hsize hmagic hout
    have htable : (settings.decode (.ofBuffer buffer)).outcome = _ :=
      Settings.outcome_decode_of_make hmake _
    rw [Input.ofBuffer, Config.table_memory, Config.tableFrom_eq hoptions, Logged.outcome_mapError,
      hrefused] at htable
    exact ⟨_, _, htable, rfl⟩

/-- A header alone, with a section at `0x100000018`, the last 32 bits of which would be its end. -/
def farBlob : Bytes := #[
  0x9F, 0xEB, 1, 0, 0xFF, 0xFF, 0xFF, 0xFF, 25, 0, 0, 0, 0, 0, 0, 0, 0, 0, 0, 0, 0, 0, 0, 0]

theorem decode_within_far :
    ((Settings.value .null).decode (.ofBuffer (.fixed variadicBlob))).outcome = .ok variadicTable ∧
    (∃ config options order, (Settings.value .null).make.outcome = .ok config ∧
      config.textOptions = .ok options ∧
        variadicTable.Within { bytes := variadicBlob } options order ∧
          ((Table.decode options { bytes := variadicBlob } {}).2.offset : Int) = 68) ∧
    ∃ fault details, ((Settings.value .null).decode (.ofBuffer (.fixed farBlob))).outcome =
        .error (.blob fault) ∧
      fault.report? = some ⟨.ioError, some ⟨0x100000018, 0⟩, details⟩ := by
  have h : ((Settings.value .null).decode (.ofBuffer (.fixed variadicBlob))).outcome =
      .ok variadicTable := toOption_eq_some_iff.mp (by decide +kernel)
  obtain ⟨config, hmake⟩ : ∃ config, (Settings.value .null).make.outcome = .ok config := ⟨_, rfl⟩
  exact ⟨h, (decode_within (.value .null) (.fixed variadicBlob)).1 _ h,
    (decode_within (.value .null) (.fixed farBlob)).2 config config.decoderOptions.text .little hmake
      (Config.textOptions_of_make hmake) (by decide) rfl (by decide)⟩

end Btf
