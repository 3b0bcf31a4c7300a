import Btf.Proofs.Config
import Btf.Proofs.Table
import Btf.Proofs.Utf8
import Btf.Proofs.WordImage

/-!
# Blobs that are put together

A blob is put together from types: a header, any padding, the words of the types one after the other,
and a string table in which every name stands. Decoding it gives the types back.

* `Image`, `Image.bytes`: what a blob is put together from, and its bytes;
* `Image.WellFormed`: the types can be written, every name stands in the string table, and all sizes
  are words;
* `Image.header_eq`, `Image.words_eq`, `Image.denote`: the parts of the blob, found where its header
  says;
* **`decode_image`**: the types are decoded from the blob.
-/

namespace Btf

/-- What a blob is put together from. -/
structure Image where
  order : ByteOrder
  version : Nat
  flags : Nat
  padding : List UInt8
  types : List TypeInfo
  offsets : List NameOffsets
  strings : List UInt8
  deriving DecidableEq, Repr

/-- A text of characters other than code point zero. -/
def Text.IsName (t : Text) : Prop := ∀ c ∈ t, c.isSurrogate = false ∧ c ≠ nul

instance (t : Text) : Decidable t.IsName :=
  List.decidableBAll (fun c : CodePoint => c.isSurrogate = false ∧ c ≠ Text.nul) t

/-- A name stands in a string table at an offset, which is zero only for no name. -/
def StandsAt (strings : List UInt8) (offset : Nat) : Option Text → Prop
  | none => offset = 0
  | some t => offset ≠ 0 ∧ Utf8.encode t ++ [0] <+: strings.drop offset ∧ t.IsName

instance (strings : List UInt8) (offset : Nat) : (name : Option Text) →
    Decidable (StandsAt strings offset name)
  | none => inferInstanceAs (Decidable (_ = _))
  | some _ => inferInstanceAs (Decidable (_ ∧ _ ∧ _))

namespace Image

/-- The words of the types, one after the other. -/
def cells (image : Image) : List Cell :=
  (List.zipWith (fun o info => info.cells o) image.offsets image.types).flatten

def words (image : Image) : List Nat := image.cells.map Cell.value

/-- The header: the type section stands right behind it, and the string table behind that. -/
def header (image : Image) : Header where
  magic := Header.magicNumber
  version := image.version
  flags := image.flags
  headerSize := (24 + image.padding.length : Nat)
  typeOffset := 0
  typeSize := (4 * image.words.length : Nat)
  stringOffset := (4 * image.words.length : Nat)
  stringSize := image.strings.length

def headerBytes (image : Image) : List UInt8 :=
  image.order.bytes 2 Header.magicNumber ++ (image.order.bytes 1 image.version ++
    (image.order.bytes 1 image.flags ++ (image.order.bytes 4 (24 + image.padding.length) ++
      (image.order.bytes 4 0 ++ (image.order.bytes 4 (4 * image.words.length) ++
        (image.order.bytes 4 (4 * image.words.length) ++
          image.order.bytes 4 image.strings.length))))))

/-- **The blob that is put together.** -/
def bytes (image : Image) : Bytes :=
  (image.headerBytes ++ (image.padding ++
    (image.words.flatMap (image.order.bytes 4) ++ image.strings))).toArray

def table (image : Image) : Table := ⟨image.header, TypeEntry.numbered image.types⟩

/-- The types can be written, their names stand in the string table, and the fields of the header are
words. -/
structure WellFormed (image : Image) : Prop where
  version : image.version < 0x100
  flags : image.flags < 0x100
  headerSize : 24 + image.padding.length < 0x100000000
  typeSize : 4 * image.words.length < 0x100000000
  stringSize : image.strings.length < 0x100000000
  types : ∀ info ∈ image.types, info.WellFormed
  names : List.Forall₂ (fun o info => StandsAt image.strings o.head info.headName ∧
    List.Forall₂ (StandsAt image.strings) o.parts (info.parts.map TypePart.name))
      image.offsets image.types

variable {image : Image}

/-! ## The words of the types -/

theorem rows_lt {info : TypeInfo} {o : NameOffsets} (hoffsets : ∀ i ∈ o.parts, i < 0x100000000)
    (hwords : ∀ p ∈ info.parts, ∀ w ∈ p.words, w < 0x100000000) :
    ∀ w ∈ info.rows o, w < 0x100000000 := by
  intro w hw
  obtain ⟨row, hrow, hw⟩ := List.mem_flatten.mp hw
  rw [← List.map_uncurry_zip_eq_zipWith, List.mem_map] at hrow
  obtain ⟨⟨i, p⟩, hip, rfl⟩ := hrow
  obtain ⟨hi, hp⟩ := List.of_mem_zip hip
  rcases List.mem_cons.mp hw with rfl | hw
  · exact hoffsets _ hi
  · exact hwords p hp w hw

theorem parts_lt {info : TypeInfo} (hwf : info.WellFormed) :
    ∀ p ∈ info.parts, ∀ w ∈ p.words, w < 0x100000000 := by
  cases info with
  | int | ref | array | typedef | fwd | func => exact List.forall_mem_nil _
  | composite kind name size flag ms =>
    obtain ⟨-, -, hms⟩ := hwf
    intro p hp w hw
    obtain ⟨m, hm, rfl⟩ := List.mem_map.mp hp
    obtain ⟨htype, hoffset, -⟩ := hms m hm
    simp only [Member.part, List.mem_cons, List.not_mem_nil, or_false] at hw
    rcases hw with rfl | rfl
    · exact htype
    · exact hoffset
  | enum name size xs =>
    intro p hp w hw
    obtain ⟨x, -, rfl⟩ := List.mem_map.mp hp
    rw [List.mem_singleton.mp hw]
    exact unsigned_lt x.value
  | funcProto result params variadic =>
    obtain ⟨-, -, htypes, -⟩ := hwf
    intro p hp w hw
    obtain ⟨q, hq, rfl⟩ := List.mem_map.mp hp
    rw [List.mem_singleton.mp hw]
    rcases List.mem_append.mp hq with hq | hq
    · exact htypes q hq
    · cases variadic with
      | true => rw [List.mem_singleton.mp hq]; decide
      | false => cases hq

theorem fixed_lt {info : TypeInfo} (hwf : info.WellFormed) :
    ∀ cell ∈ info.fixed, cell.value < 0x100000000 := by
  cases info with
  | int name size bits bitOffset encoding =>
    obtain ⟨hset, hbits, hplace⟩ := hwf
    have hsize : size ≤ 16 := by revert hset; unfold Entry.intSizes; simp; omega
    exact List.forall_mem_singleton.mpr (intWord_lt (by omega) (by omega))
  | array element index count =>
    obtain ⟨helement, hindex, hcount⟩ := hwf
    intro cell hcell
    simp only [TypeInfo.fixed, List.mem_cons, List.not_mem_nil, or_false] at hcell
    rcases hcell with rfl | rfl | rfl
    · exact helement
    · exact hindex
    · exact hcount
  | ref | typedef | composite | enum | fwd | func | funcProto => exact List.forall_mem_nil _

/-- The words of a type that can be written are words. -/
theorem cells_lt {info : TypeInfo} {o : NameOffsets} (hwf : info.WellFormed)
    (hhead : o.head < 0x100000000) (hparts : ∀ i ∈ o.parts, i < 0x100000000) :
    ∀ cell ∈ info.cells o, cell.value < 0x100000000 := by
  intro cell hcell
  rcases List.mem_append.mp hcell with hcell | hcell
  · simp only [TypeHeader.cells, List.mem_cons, List.not_mem_nil, or_false] at hcell
    rcases hcell with rfl | rfl | rfl
    · exact hhead
    · exact TypeHeader.infoWord_lt (Nat.lt_succ_of_le hwf.length_parts) info.kind_number_lt
    · exact hwf.sizeOrType_lt
  rcases List.mem_append.mp hcell with hcell | hcell
  · exact fixed_lt hwf cell hcell
  · obtain ⟨w, hw, rfl⟩ := List.mem_map.mp hcell
    exact rows_lt hparts (parts_lt hwf) w hw

/-- An offset at which something stands is one of the string table. -/
theorem offset_lt {strings : List UInt8} {offset : Nat} {name : Option Text}
    (hstrings : strings.length < 0x100000000) (h : StandsAt strings offset name) :
    offset < 0x100000000 := by
  cases name with
  | none =>
    have hzero : offset = 0 := h
    omega
  | some t =>
    obtain ⟨-, hstands, -⟩ := h
    have hlen := hstands.length_le
    rw [List.length_append, List.length_singleton, List.length_drop] at hlen
    omega

theorem offsets_lt {strings : List UInt8} {os : List Nat} {names : List (Option Text)}
    (hstrings : strings.length < 0x100000000) (h : List.Forall₂ (StandsAt strings) os names) :
    ∀ i ∈ os, i < 0x100000000 := by
  induction h with
  | nil => exact List.forall_mem_nil _
  | cons h _ ih => exact List.forall_mem_cons.mpr ⟨offset_lt hstrings h, ih⟩

theorem WellFormed.cells_lt (h : image.WellFormed) :
    ∀ cell ∈ image.cells, cell.value < 0x100000000 := by
  intro cell hcell
  obtain ⟨row, hrow, hcell⟩ := List.mem_flatten.mp hcell
  rw [← List.map_uncurry_zip_eq_zipWith, List.mem_map] at hrow
  obtain ⟨⟨o, info⟩, hzip, rfl⟩ := hrow
  obtain ⟨hhead, hparts⟩ := List.forall₂_zip h.names hzip
  exact Image.cells_lt (h.types info (List.of_mem_zip hzip).2) (offset_lt h.stringSize hhead)
    (offsets_lt h.stringSize hparts) cell hcell

theorem WellFormed.words_lt (h : image.WellFormed) : ∀ w ∈ image.words, w < 0x100000000 := by
  intro w hw
  obtain ⟨cell, hcell, rfl⟩ := List.mem_map.mp hw
  exact h.cells_lt cell hcell

theorem forall₂_admits_value {cells : List Cell} (h : ∀ cell ∈ cells, cell.value < 0x100000000) :
    List.Forall₂ Cell.Admits cells (cells.map Cell.value) := by
  rw [List.forall₂_map_right_iff, List.forall₂_same]
  exact fun cell hcell => ⟨h cell hcell, rfl⟩

/-! ## The parts of the blob -/

/-- What the blob is put together from once its types are words. -/
def raw (image : Image) : WordImage where
  version := image.version
  flags := image.flags
  stringSize := image.strings.length
  padding := image.padding
  words := image.words
  strings := image.strings

theorem WellFormed.raw (h : image.WellFormed) : image.raw.WellFormed where
  version := h.version
  flags := h.flags
  headerSize := h.headerSize
  typeSize := h.typeSize
  stringSize := h.stringSize
  words := h.words_lt

def source (image : Image) : Source := { bytes := image.bytes }

/-- **The header is found at the start of the blob.** -/
theorem header_eq (h : image.WellFormed) : image.source.header image.order = image.header :=
  image.raw.header_eq h.raw image.order

/-- **The words of the types are found in the type section.** -/
theorem words_eq (h : image.WellFormed) :
    image.source.words image.order (24 + image.padding.length) image.words.length =
      image.words :=
  image.raw.words_eq h.raw image.order

theorem drop_strings (image : Image) :
    image.source.bytes.toList.drop (24 + image.padding.length + 4 * image.words.length) =
      image.strings :=
  image.raw.drop_strings image.order

theorem size_bytes (image : Image) : image.source.bytes.size =
    24 + image.padding.length + 4 * image.words.length + image.strings.length :=
  image.raw.size_bytes image.order

variable {options : TextOptions}

/-- A name that stands in the string table is found there. -/
theorem hasString {offset : Nat} {t : Text} (h : StandsAt image.strings offset (some t)) :
    image.source.HasString (24 + image.padding.length + 4 * image.words.length + offset)
      (Utf8.encode t) := by
  obtain ⟨-, ⟨rest, hrest⟩, ht⟩ := h
  have hdrop : image.source.bytes.toList.drop
      (24 + image.padding.length + 4 * image.words.length + offset) =
        (Utf8.encode t ++ [0]) ++ rest := by
    rw [← List.drop_drop, drop_strings, hrest]
  have hslice := (Source.slice_of_drop hdrop).1
  rw [List.length_append, List.length_singleton] at hslice
  exact ⟨hslice, Utf8.zero_notMem_encode fun hnul => (ht _ hnul).2 rfl⟩

theorem denotes (hnames : (Text.nameFault? options.encoding <|> Text.nameFault? options.errors) = none)
    (hcodec : Codec.find? options.encoding = some .utf8) {offset : Nat} {name : Option Text}
    (h : StandsAt image.strings offset name) :
    Names.Denotes ⟨image.header, options⟩ image.source offset name := by
  cases name with
  | none => exact h
  | some t =>
    refine ⟨h.1, _, _, ?_, hasString h, Text.decode_encode hnames hcodec fun c hc => (h.2.2 c hc).1⟩
    change ((24 + image.padding.length : Nat) : Int) + (4 * image.words.length : Nat) + offset = _
    omega

theorem denote (himage : image.WellFormed)
    (hnames : (Text.nameFault? options.encoding <|> Text.nameFault? options.errors) = none)
    (hcodec : Codec.find? options.encoding = some .utf8) :
    List.Forall₂ (fun o info => o.Denote ⟨image.header, options⟩ image.source info)
      image.offsets image.types :=
  himage.names.imp fun _ _ h => ⟨denotes hnames hcodec h.1, h.2.imp fun _ _ => denotes hnames hcodec⟩

/-- The table of the blob is that of the types it is put together from. -/
theorem outcome_decode (himage : image.WellFormed)
    (hnames : (Text.nameFault? options.encoding <|> Text.nameFault? options.errors) = none)
    (hcodec : Codec.find? options.encoding = some .utf8) :
    (Table.decode options image.source {}).1.outcome = .ok image.table := by
  have hheader := header_eq himage
  have hsize := image.size_bytes
  have hstart : image.source.word image.order 4 + image.source.word image.order 8 =
      24 + image.padding.length := Int.ofNat.inj (congrArg Header.typeStart hheader)
  have hcount : image.source.word image.order 12 = 4 * image.words.length :=
    Int.ofNat.inj (congrArg Header.typeSize hheader)
  have hwords : List.Forall₂ Cell.Admits image.cells (image.source.words image.order
      (24 + image.padding.length) image.words.length) := by
    rw [words_eq himage]
    exact forall₂_admits_value himage.cells_lt
  rw [Table.decode_ok_iff Cursor.isOpen_start]
  refine ⟨image.order, image.offsets, image.types, by omega, by rw [hheader]; rfl, by omega, ?_,
    by rw [hheader]; rfl⟩
  rw [hheader, hstart, hcount]
  exact Names.tiled_of_words himage.types (denote himage hnames hcodec) rfl (by omega) hwords

end Image

/-- **The types that a blob is put together from are decoded from it**, with any configuration whose
codec is that of UTF-8. -/
theorem decode_image {image : Image} (himage : image.WellFormed) {conf : Value}
    {options : DecoderOptions} (hconf : (DecoderOptions.configured conf).outcome = .ok options)
    (hcodec : Codec.find? options.text.encoding = some .utf8) :
    (decode (.memory image.bytes) conf).outcome = .ok image.table := by
  have htable := Image.outcome_decode himage (DecoderOptions.nameFault_of_configured hconf) hcodec
  rw [outcome_decode_memory, hconf]
  exact mapError_eq_ok.mpr htable

/-- A big endian blob with padding: an anonymous structure with a bit field and an anonymous member,
an enumeration with a negative constant, a function type with further parameters, a function with the
empty name, and an integer type with a name beyond ASCII. -/
def mixedImage : Image where
  order := .big
  version := 7
  flags := 255
  padding := [1, 2, 3]
  types :=
    [.composite .struct none 8 true [⟨some "a", 5, 0x03000002, true⟩, ⟨none, 0, 0, true⟩],
      .enum (some "e") 4 [⟨"a", -2147483648⟩, ⟨"e", 7⟩],
      .funcProto 0 [⟨some "a", 2⟩, ⟨none, 5⟩] true,
      .func "" 3,
      .int (some "é€😀") 16 128 0 .bool]
  offsets := [⟨0, [1, 0]⟩, ⟨3, [1, 3]⟩, ⟨0, [1, 0, 0]⟩, ⟨2, []⟩, ⟨5, []⟩]
  strings := [0, 97, 0, 101, 0, 0xC3, 0xA9, 0xE2, 0x82, 0xAC, 0xF0, 0x9F, 0x98, 0x80, 0]

theorem decode_mixedImage : mixedImage.WellFormed ∧
    (DecoderOptions.configured .null).outcome = .ok {} ∧
    Codec.find? ({} : DecoderOptions).text.encoding = some .utf8 ∧
    (decode (.memory mixedImage.bytes) .null).outcome = .ok mixedImage.table := by
  have himage : mixedImage.WellFormed := by
    constructor <;> decide
  have hconf : (DecoderOptions.configured .null).outcome = .ok {} :=
    toOption_eq_some_iff.mp (by decide +kernel)
  have hcodec : Codec.find? ({} : DecoderOptions).text.encoding = some .utf8 := by decide
  exact ⟨himage, hconf, hcodec, decode_image himage hconf hcodec⟩

end Btf
