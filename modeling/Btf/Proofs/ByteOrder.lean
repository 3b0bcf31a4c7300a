import Btf.Proofs.Faults
import Btf.Proofs.InStep
import Btf.Proofs.WordImage

/-!
# Byte orders

The same words are written in two byte orders. Entries that lie within the type section are read in
step, and names stand behind it in the same bytes; so the two blobs are decoded to the same table, or
refused for the same entry.

* `Mirrors`: two blobs say the same words in two byte orders, and the same bytes behind them;
* `Mirrors.text`, `Mirrors.tiled`: names and entries that are read;
* `Mirrors.inStep_info`, `Mirrors.entry_refused`: entries that are refused;
* `Fault.InSection`: a fault is reported for bytes of the section;
* `Mirrors.entriesUpTo_refused`: the loop over the section;
* **`decode_byteOrder`**: the byte order of a blob that is put together does not matter.
-/

namespace Btf

/-- A fault is reported with a code other than that of reads, and for bytes between two offsets. -/
def Fault.InSection (fault : Fault) (start stop : Int) : Prop :=
  ∃ r range, fault.report? = some r ∧ r.code ≠ .ioError ∧ r.range = some range ∧
    start ≤ range.offset ∧ range.offset + range.size ≤ stop

theorem Fault.InSection.not_ioError {fault : Fault} {start stop : Int}
    (h : fault.InSection start stop) : ¬fault.HasCode .ioError := by
  rintro ⟨r, hr, hcode⟩
  obtain ⟨r', -, hr', hcode', -⟩ := h
  cases hr.symm.trans hr'
  exact hcode' hcode

/-- Two blobs say the same `n` words from `start` on, each in its byte order, and the same bytes behind
them. -/
structure Mirrors (s s' : Source) (order order' : ByteOrder) (start n : Nat) : Prop where
  words : s'.words order' start n = s.words order start n
  rest : s'.bytes.toList.drop (start + 4 * n) = s.bytes.toList.drop (start + 4 * n)
  size : s'.bytes.size = s.bytes.size
  inside : start + 4 * n ≤ s.bytes.size

namespace Mirrors

variable {s s' : Source} {order order' : ByteOrder} {start n : Nat} {names : Names}

theorem word (h : Mirrors s s' order order' start n) {j : Nat} (hj : j < n) :
    s'.word order' (start + 4 * j) = s.word order (start + 4 * j) := by
  have hget := s'.getElem?_words order' (i := start) hj
  rw [h.words, s.getElem?_words order hj] at hget
  exact (Option.some.inj hget).symm

/-- The first words are the same too. -/
theorem words_le (h : Mirrors s s' order order' start n) {k : Nat} (hk : k ≤ n) :
    s'.words order' start k = s.words order start k := by
  obtain ⟨m, rfl⟩ := Nat.exists_eq_add_of_le hk
  have hwords := h.words
  rw [Source.words_add, Source.words_add] at hwords
  exact (List.append_inj hwords (by rw [Source.length_words, Source.length_words])).1

/-! ## Names -/

/-- **A name behind the words** is the same in both blobs. -/
theorem text (h : Mirrors s s' order order' start n)
    (hstrings : (start + 4 * n : Nat) ≤ names.header.stringStart) (offset : Nat) :
    names.text s' offset = names.text s offset := by
  obtain ⟨i, hi⟩ : ∃ i, names.header.stringAddress offset = (start + 4 * n + i : Nat) := by
    refine ⟨(names.header.stringAddress offset).toNat - (start + 4 * n), ?_⟩
    unfold Header.stringAddress
    omega
  have hrest : s'.bytes.toList.drop (start + 4 * n + i) = s.bytes.toList.drop (start + 4 * n + i) := by
    rw [← List.drop_drop, h.rest, List.drop_drop]
  have hslice : ∀ stop, (s'.bytes.extract (start + 4 * n + i) stop).toList =
      (s.bytes.extract (start + 4 * n + i) stop).toList := by
    intro stop
    rw [Array.toList_extract, Array.toList_extract, List.extract_eq_take_drop,
      List.extract_eq_take_drop, hrest]
  rw [Names.text, Names.text, Names.get, Read.outcome_stringAt, Read.outcome_stringAt,
    Read.outcome_bytesAt Cursor.isOpen_start, Read.outcome_bytesAt Cursor.isOpen_start, hi,
    Int.toNat_natCast, h.size, Read.nulFrom_congr hrest]
  simp only [hslice]

/-! ## Entries that are read -/

/-- **Entries that stand in the words** of one blob stand in those of the other. -/
theorem tiled (h : Mirrors s s' order order' start n)
    (hstrings : (start + 4 * n : Nat) ≤ names.header.stringStart) {mid : Nat}
    (hmid : mid ≤ start + 4 * n) {os : List NameOffsets} {infos : List TypeInfo}
    (htiled : Names.Tiled names s order mid start os infos) :
    Names.Tiled names s' order' mid start os infos := by
  have hin := h.inside
  obtain ⟨-, k, hk, hwords⟩ := htiled.words (by omega)
  rw [← h.words_le (by omega)] at hwords
  exact Names.tiled_of_words htiled.wellFormed
    (htiled.denote.imp fun _ _ hdenote => hdenote.of_text (h.text hstrings)) hk
    (by rw [h.size]; omega) hwords

theorem typeSection (h : Mirrors s s' order order' start n) {c c' : Cursor} (hc : c.IsOpen)
    (hc' : c'.IsOpen) (horder : c.order = order) (horder' : c'.order = order')
    (hstrings : (start + 4 * n : Nat) ≤ names.header.stringStart)
    (hstart : names.header.typeStart = start) (hstop : names.header.typeEnd = (start + 4 * n : Nat))
    {infos : List TypeInfo} (hinfos : names.typeSection.outcome s c = .ok infos) :
    names.typeSection.outcome s' c' = .ok infos := by
  rw [Names.typeSection_ok_iff hstart hstop (Nat.le_add_right _ _) hc, horder] at hinfos
  rw [Names.typeSection_ok_iff hstart hstop (Nat.le_add_right _ _) hc', horder', h.size]
  obtain ⟨hin, os, htiled⟩ := hinfos
  exact ⟨hin, os, h.tiled hstrings (Nat.le_refl _) htiled⟩

/-! ## Entries that are refused -/

/-- Cursors at the same word of the section, with `k` bytes of it ahead. -/
structure Ahead (order order' : ByteOrder) (start n k : Nat) (c c' : Cursor) : Prop where
  offset : c.offset = c'.offset
  left : c.IsOpen ∧ c.order = order
  right : c'.IsOpen ∧ c'.order = order'
  aligned : ∃ j, c.offset = start + 4 * j
  inside : c.offset + k ≤ start + 4 * n

theorem Ahead.word (h : Mirrors s s' order order' start n) {k : Nat} {c c' : Cursor}
    (hahead : Ahead order order' start n (4 + k) c c') :
    s'.word c'.order c'.offset = s.word c.order c.offset := by
  obtain ⟨hoffset, ⟨-, horder⟩, ⟨-, horder'⟩, ⟨j, hj⟩, hin⟩ := hahead
  rw [← hoffset, horder, horder', hj]
  exact h.word (by omega)

theorem Ahead.skip {k : Nat} {c c' : Cursor} (m : Nat)
    (hahead : Ahead order order' start n (4 * m + k) c c') :
    Ahead order order' start n k (c.skip (4 * m)) (c'.skip (4 * m)) := by
  obtain ⟨hoffset, hleft, hright, ⟨j, hj⟩, hin⟩ := hahead
  refine ⟨?_, hleft, hright, ⟨j + m, ?_⟩, ?_⟩
  · rw [Cursor.skip_offset, Cursor.skip_offset, hoffset]
  · rw [Cursor.skip_offset]
    omega
  · rw [Cursor.skip_offset]
    omega

/-- A word of the section is read in step. -/
theorem inStep_u32 (h : Mirrors s s' order order' start n) :
    Read.InStep (Ahead order order' start n) (fun _ => False) s s' 4 Read.u32 := by
  have hin := h.inside
  have hsize := h.size
  refine .of_outcome (Read.consumes_word 4) (fun k c c' hahead => hahead.skip 1)
    fun k c c' hahead => ?_
  have hle := hahead.inside
  have hoffset := hahead.offset
  have hword : c'.order.value (s'.slice c'.offset 4) = c.order.value (s.slice c.offset 4) :=
    hahead.word h
  left
  rw [Read.u32, Read.outcome_word hahead.left.1 (by omega),
    Read.outcome_word hahead.right.1 (by omega), hword]

/-- The head of an entry in the section is the same in both blobs. -/
theorem outcome_typeHeader (h : Mirrors s s' order order' start n) {k : Nat} {c c' : Cursor}
    (hahead : Ahead order order' start n (12 + k) c c') :
    Read.typeHeader.outcome s' c' = Read.typeHeader.outcome s c := by
  have hword := h.inStep_u32
  have hstep : Read.InStep (Ahead order order' start n) (fun _ => False) s s' 12 Read.typeHeader :=
    .mapError (hword.bind fun _ => hword.bind fun _ => hword.bind fun _ => .pure _)
  exact (hstep k c c' hahead).outcome_eq fun _ _ => id

/-- **An entry whose payload lies in the section** is read in step. -/
theorem inStep_info (h : Mirrors s s' order order' start n) {e : Entry}
    (hstrings : (start + 4 * n : Nat) ≤ e.names.header.stringStart) :
    Read.InStep (Ahead order order' start n) (fun _ => False) s s' e.head.payloadSize e.info := by
  refine Entry.inStep_info (.mapError h.inStep_u32) fun offset => ?_
  refine .of_outcome (e.names.consumes_get offset) ?_ fun k c c' hahead => ?_
  · intro k c c' hahead
    rwa [Nat.zero_add] at hahead
  · left
    rw [Names.outcome_get hahead.left.1, Names.outcome_get hahead.right.1, h.text hstrings]

/-- **What an entry is refused for**, if that is reported for bytes of the section, is what the entry
breaks: its names stand behind the section. -/
theorem invalid_of_refused {e : Entry} {c : Cursor} {fault : Fault} {stop : Nat} (hc : c.IsOpen)
    (hstrings : (stop : Int) ≤ e.names.header.stringStart)
    (h : e.info.outcome s c = .error fault) (hfault : fault.InSection start stop) :
    ∃ what, fault = .invalid e.offset e.head what := by
  let Φ : Fault → Prop := fun fault => fault.InSection start stop →
    ∃ what, fault = .invalid e.offset e.head what
  have hsource : ∀ f : SourceFault, (Fault.source f).HasCode .ioError → Φ (.source f) :=
    fun _ hcode hfault => absurd hcode hfault.not_ioError
  have hget : ∀ offset, Read.Upholds Φ (e.names.get offset) := by
    intro offset
    refine Read.upholds_stringAt (fun _ _ => hsource _ ⟨_, rfl, rfl⟩)
      (fun _ _ => hsource _ ⟨_, rfl, rfl⟩) fun bs => ?_
    split
    · trivial
    · rintro ⟨r, range, ⟨⟩, -, ⟨⟩, -, hle⟩
      unfold Header.stringAddress at hle
      dsimp only at hle
      omega
    · rintro ⟨r, range, ⟨⟩, -⟩
  exact (Entry.upholds_info (fun what _ => ⟨what, rfl⟩) (fun _ _ => hsource _ ⟨_, rfl, rfl⟩)
    hget).error hc h hfault

/-- **An entry that is refused** for bytes of the section is refused in both blobs. -/
theorem entry_refused (h : Mirrors s s' order order' start n) {c c' : Cursor}
    (hahead : Ahead order order' start n 0 c c')
    (hstrings : (start + 4 * n : Nat) ≤ names.header.stringStart) {fault : Fault}
    (hfault : fault.InSection start (start + 4 * n : Nat))
    (hentry : names.entry.outcome s c = .error fault) :
    names.entry.outcome s' c' = .error fault := by
  have hc := hahead.left.1
  rw [Names.outcome_entry] at hentry ⊢
  cases hhead : Read.typeHeader.outcome s c with
  | error e =>
    have hcode : e.HasCode .ioError :=
      (Read.upholds_typeHeader fun _ _ => ⟨_, rfl, rfl⟩).error hc hhead
    rw [hhead, error_bind] at hentry
    cases hentry
    exact absurd hcode hfault.not_ioError
  | ok head =>
    rw [hhead, ok_bind] at hentry
    -- The fault is for all bytes of the entry, which lie in the section with it.
    obtain ⟨what, rfl⟩ := invalid_of_refused (hc.skip 12) hstrings hentry hfault
    obtain ⟨r, range, ⟨⟩, -, ⟨⟩, -, hle⟩ := hfault
    have hahead' : Ahead order order' start n (4 * 3 + head.payloadSize) c c' :=
      { hahead with inside := Int.ofNat_le.mp hle }
    have hinfo := h.inStep_info (e := ⟨names, c.offset, head⟩) hstrings 0 _ _ (hahead'.skip 3)
    rw [h.outcome_typeHeader hahead', hhead, ok_bind, ← hahead.offset, ← hentry]
    exact hinfo.outcome_eq fun _ _ => id

/-- **The loop over the section** ends with the same fault in both blobs, if that is reported for bytes
of the section. -/
theorem entriesUpTo_refused (h : Mirrors s s' order order' start n) {c c' : Cursor}
    (hahead : Ahead order order' start n 0 c c') (hfirst : c.offset = start)
    (hstrings : (start + 4 * n : Nat) ≤ names.header.stringStart) {fault : Fault}
    (hfault : fault.InSection start (start + 4 * n : Nat))
    (hloop : (names.entriesUpTo (start + 4 * n : Nat) s [] c).1 = .error fault) :
    (names.entriesUpTo (start + 4 * n : Nat) s' [] c').1 = .error fault := by
  have hin := h.inside
  have hsize := h.size
  obtain ⟨hoffset, ⟨hc, horder⟩, ⟨hc', horder'⟩, -, -⟩ := id hahead
  obtain ⟨mid, hmid, hstop, ⟨infos, hinfos⟩, hentry⟩ := Names.entriesUpTo_error_iff.mp hloop
  -- What stands before the refused entry is read in both blobs.
  obtain ⟨os, new, htiled, hnew⟩ :=
    (Names.entriesUpTo_ok_iff hc hmid).mp (congrArg Prod.fst hinfos)
  rw [horder, hfirst] at htiled
  obtain ⟨-, k, hk, -⟩ := htiled.words (by omega)
  have hinfos' : (names.entriesUpTo mid s' [] c').1 = .ok infos := by
    rw [Names.entriesUpTo_ok_iff hc' (by omega), horder', ← hoffset, hfirst]
    exact ⟨os, new, h.tiled hstrings (by omega) htiled, hnew⟩
  have hrun' : names.entriesUpTo mid s' [] c' = (.ok infos, _) := Prod.ext hinfos' rfl
  obtain ⟨hcursor, -⟩ := Names.cursor_of_entriesUpTo (by omega) (by omega) hrun'
  rw [hcursor, Int.toNat_natCast] at hrun'
  have hmiddle : Ahead order order' start n 0 { c with offset := mid } { c' with offset := mid } :=
    ⟨rfl, ⟨hc, horder⟩, ⟨hc', horder'⟩, ⟨k, hk.symm⟩, by show mid + 0 ≤ start + 4 * n; omega⟩
  rcases Names.refused_of_entryWithin hentry with hentry | ⟨reached, rfl⟩
  · exact Names.entriesUpTo_error_iff.mpr ⟨mid, by omega, hstop, ⟨infos, hrun'⟩,
      Names.outcome_entryWithin_error (h.entry_refused hmiddle hstrings hfault hentry)⟩
  · exact absurd ⟨_, rfl, rfl⟩ hfault.not_ioError

theorem typeSection_refused (h : Mirrors s s' order order' start n) {c c' : Cursor}
    (hc : c.IsOpen) (hc' : c'.IsOpen) (horder : c.order = order) (horder' : c'.order = order')
    (hstrings : (start + 4 * n : Nat) ≤ names.header.stringStart)
    (hstart : names.header.typeStart = start) (hstop : names.header.typeEnd = (start + 4 * n : Nat))
    {fault : Fault} (hfault : fault.InSection start (start + 4 * n : Nat))
    (hsection : names.typeSection.outcome s c = .error fault) :
    names.typeSection.outcome s' c' = .error fault := by
  have hin := h.inside
  have hsize := h.size
  have hahead : Ahead order order' start n 0 { c with offset := start } { c' with offset := start } :=
    ⟨rfl, ⟨hc, horder⟩, ⟨hc', horder'⟩, ⟨0, rfl⟩, Nat.le_add_right _ _⟩
  rw [Names.outcome_typeSection hstart (by omega), hstop] at hsection ⊢
  exact h.entriesUpTo_refused hahead rfl hstrings hfault hsection

end Mirrors

namespace WordImage

variable {image : WordImage}

/-- **The blobs of two byte orders** say the same words. -/
theorem mirrors (h : image.WellFormed) (order order' : ByteOrder) :
    Mirrors (image.source order) (image.source order') order order' (24 + image.padding.length)
      image.words.length where
  words := by rw [image.words_eq h, image.words_eq h]
  rest := by rw [drop_strings, drop_strings]
  size := by rw [size_bytes, size_bytes]
  inside := by rw [size_bytes]; omega

theorem outcome_tableFrom (h : image.WellFormed) (config : Config) (order : ByteOrder) :
    (config.tableFrom (image.source order) {}).outcome =
      config.textOptions.mapError .config >>= fun options =>
        ((Names.typeSection ⟨image.header, options⟩).outcome (image.source order)
          { offset := 24, order }).mapError .blob >>= fun infos =>
            .ok ⟨image.header, TypeEntry.numbered infos⟩ := by
  rw [Config.outcome_tableFrom, image.layout_run h]

theorem typeStart_header (image : WordImage) :
    image.header.typeStart = (24 + image.padding.length : Nat) := Int.add_zero _

theorem typeEnd_header (image : WordImage) : image.header.typeEnd =
    (24 + image.padding.length + 4 * image.words.length : Nat) := by
  rw [Header.typeEnd, typeStart_header]
  rfl

theorem stringStart_header (image : WordImage) : image.header.stringStart =
    (24 + image.padding.length + 4 * image.words.length : Nat) := rfl

variable {config : Config} {order order' : ByteOrder}

/-- The cursor behind the header. -/
theorem isOpen_section (order : ByteOrder) : Cursor.IsOpen { offset := 24, order } := by
  intro h
  cases h

theorem tableFrom_ok (h : image.WellFormed) {t : Table}
    (ht : (config.tableFrom (image.source order) {}).outcome = .ok t) :
    (config.tableFrom (image.source order') {}).outcome = .ok t := by
  rw [image.outcome_tableFrom h] at ht ⊢
  obtain ⟨options, hoptions, ht⟩ := bind_eq_ok.mp ht
  obtain ⟨infos, hinfos, ht⟩ := bind_eq_ok.mp ht
  have hsection := (mirrors h order order').typeSection
    (isOpen_section order) (isOpen_section order') rfl rfl image.stringStart_header.ge
    image.typeStart_header image.typeEnd_header (mapError_eq_ok.mp hinfos)
  rw [hoptions, ok_bind, hsection, mapError_ok, ok_bind, ht]

theorem tableFrom_refused (h : image.WellFormed) {fault : Fault}
    (hfault : fault.InSection image.header.typeStart image.header.typeEnd)
    (ht : (config.tableFrom (image.source order) {}).outcome = .error (.blob fault)) :
    (config.tableFrom (image.source order') {}).outcome = .error (.blob fault) := by
  rw [typeStart_header, typeEnd_header] at hfault
  rw [image.outcome_tableFrom h] at ht ⊢
  cases hoptions : config.textOptions with
  | error e =>
    rw [hoptions] at ht
    cases ht
  | ok options =>
    rw [hoptions, mapError_ok, ok_bind] at ht
    rw [mapError_ok, ok_bind]
    cases hsection : (Names.typeSection ⟨image.header, options⟩).outcome (image.source order)
        { offset := 24, order } with
    | ok infos =>
      rw [hsection] at ht
      cases ht
    | error fault' =>
      rw [hsection] at ht
      cases ht
      have hsection' := (mirrors h order order').typeSection_refused (isOpen_section order)
        (isOpen_section order') rfl rfl image.stringStart_header.ge image.typeStart_header
        image.typeEnd_header hfault hsection
      rw [hsection', mapError_error, error_bind]

end WordImage

/-- **The byte order of a blob does not matter**: a blob that is put together in two byte orders is
decoded to the same table from both, and refused for the same entry if that lies in the type section. -/
theorem decode_byteOrder {image : WordImage} (h : image.WellFormed) (settings : Settings)
    (order order' : ByteOrder) :
    (∀ t, (settings.decode (.memory (image.bytes order))).outcome = .ok t ↔
      (settings.decode (.memory (image.bytes order'))).outcome = .ok t) ∧
    ∀ fault, fault.InSection image.header.typeStart image.header.typeEnd →
      ((settings.decode (.memory (image.bytes order))).outcome = .error (.blob fault) ↔
        (settings.decode (.memory (image.bytes order'))).outcome = .error (.blob fault)) := by
  cases hmake : settings.make.outcome with
  | error e =>
    have hrefused := Settings.outcome_decode_of_refused hmake
    exact ⟨fun t => by rw [hrefused, hrefused], fun fault _ => by rw [hrefused, hrefused]⟩
  | ok config =>
    have hdecode : ∀ order, (settings.decode (.memory (image.bytes order))).outcome =
        (config.tableFrom (image.source order) {}).outcome :=
      fun _ => Settings.outcome_decode_of_make hmake _
    rw [hdecode, hdecode]
    exact ⟨fun t => ⟨WordImage.tableFrom_ok h, WordImage.tableFrom_ok h⟩, fun fault hfault =>
      ⟨WordImage.tableFrom_refused h hfault, WordImage.tableFrom_refused h hfault⟩⟩

/-- A pointer and then an enumeration without constants, behind a header with one more byte. -/
def emptyEnumImage : WordImage where
  version := 7
  flags := 255
  stringSize := 9
  padding := [1]
  words := [0, 0x02000000, 5, 0, 0x06000000, 4]
  strings := [0]

theorem decode_byteOrder_emptyEnum :
    let fault : Fault := .invalid 37 ⟨0, 0, 6, false, 4⟩ .enumEmpty
    (emptyEnumImage.WellFormed ∧
      fault.InSection emptyEnumImage.header.typeStart emptyEnumImage.header.typeEnd) ∧
    ((Settings.value .null).decode (.memory (emptyEnumImage.bytes .little))).outcome =
      .error (.blob fault) ∧
    ((Settings.value .null).decode (.memory (emptyEnumImage.bytes .big))).outcome =
      .error (.blob fault) := by
  intro fault
  have himage : emptyEnumImage.WellFormed := by
    constructor <;> decide
  have hfault : fault.InSection emptyEnumImage.header.typeStart emptyEnumImage.header.typeEnd :=
    ⟨_, _, rfl, by decide, rfl, by decide, by decide⟩
  have hlittle : ((Settings.value .null).decode (.memory (emptyEnumImage.bytes .little))).outcome =
      .error (.blob fault) := refusal?_eq_some_iff.mp (by decide +kernel)
  obtain ⟨-, hrefused⟩ := decode_byteOrder himage (.value .null) .little .big
  exact ⟨⟨himage, hfault⟩, hlittle, (hrefused fault hfault).mp hlittle⟩

end Btf
