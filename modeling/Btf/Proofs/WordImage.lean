import Btf.Proofs.Layout

/-!
# Blobs that are put together from words

A blob is put together from a header, any padding, the words of its type section and a string table.
Whatever the words are, each of these parts is found where the header says.

* `Source.slice_of_drop`, `Source.value_of_drop`: finding what has been written;
* `WordImage`, `WordImage.bytes`: what a blob is put together from, and its bytes in a byte order;
* `WordImage.WellFormed`: fields of the header and words fit;
* **`WordImage.header_eq`**, **`WordImage.words_eq`**, `WordImage.drop_strings`: the parts of the blob;
* `WordImage.layout_run`: the layout that is read.
-/

namespace Btf

/-! ## Finding what has been written -/

namespace Source

variable {s : Source} {i : Nat} {bs rest : List UInt8}

theorem slice_of_drop (h : s.bytes.toList.drop i = bs ++ rest) :
    s.slice i bs.length = bs ∧ s.bytes.toList.drop (i + bs.length) = rest := by
  constructor
  · rw [slice_eq, h, List.take_left]
  · rw [← List.drop_drop, h, List.drop_left]

theorem value_of_drop {order : ByteOrder} {width n : Nat} (hn : n < Nat.pow 256 width)
    (h : s.bytes.toList.drop i = order.bytes width n ++ rest) :
    order.value (s.slice i width) = n ∧ s.bytes.toList.drop (i + width) = rest := by
  have hslice := slice_of_drop h
  rw [order.length_bytes] at hslice
  exact ⟨by rw [hslice.1, order.value_bytes hn], hslice.2⟩

end Source

/-- What a blob is put together from, but for its byte order. -/
structure WordImage where
  version : Nat
  flags : Nat
  stringSize : Nat
  padding : List UInt8
  words : List Nat
  strings : List UInt8
  deriving DecidableEq, Repr

namespace WordImage

/-- The header: the type section stands right behind it and its padding, and the string table behind
that. -/
def header (image : WordImage) : Header where
  magic := Header.magicNumber
  version := image.version
  flags := image.flags
  headerSize := (24 + image.padding.length : Nat)
  typeOffset := 0
  typeSize := (4 * image.words.length : Nat)
  stringOffset := (4 * image.words.length : Nat)
  stringSize := image.stringSize

def headerBytes (image : WordImage) (order : ByteOrder) : List UInt8 :=
  order.bytes 2 Header.magicNumber ++ (order.bytes 1 image.version ++
    (order.bytes 1 image.flags ++ (order.bytes 4 (24 + image.padding.length) ++
      (order.bytes 4 0 ++ (order.bytes 4 (4 * image.words.length) ++
        (order.bytes 4 (4 * image.words.length) ++ order.bytes 4 image.stringSize))))))

/-- **The blob that is put together**, with all numbers in a byte order. -/
def bytes (image : WordImage) (order : ByteOrder) : Bytes :=
  (image.headerBytes order ++ (image.padding ++
    (image.words.flatMap (order.bytes 4) ++ image.strings))).toArray

def source (image : WordImage) (order : ByteOrder) : Source := { bytes := image.bytes order }

/-- The fields of the header and the words of the type section fit. -/
structure WellFormed (image : WordImage) : Prop where
  version : image.version < 0x100
  flags : image.flags < 0x100
  headerSize : 24 + image.padding.length < 0x100000000
  typeSize : 4 * image.words.length < 0x100000000
  stringSize : image.stringSize < 0x100000000
  words : ∀ w ∈ image.words, w < 0x100000000

variable {image : WordImage}

theorem toList_bytes (image : WordImage) (order : ByteOrder) :
    (image.source order).bytes.toList = image.headerBytes order ++
      (image.padding ++ (image.words.flatMap (order.bytes 4) ++ image.strings)) := rfl

theorem length_headerBytes (image : WordImage) (order : ByteOrder) :
    (image.headerBytes order).length = 24 := by
  simp only [headerBytes, List.length_append, ByteOrder.length_bytes]

theorem length_section (image : WordImage) (order : ByteOrder) :
    (image.words.flatMap (order.bytes 4)).length = 4 * image.words.length :=
  ByteOrder.length_flatMap_bytes _ _ _

/-- **The header is found at the start of the blob.** -/
theorem header_eq (h : image.WellFormed) (order : ByteOrder) :
    (image.source order).header order = image.header := by
  have h0 : (image.source order).bytes.toList.drop 0 = _ := image.toList_bytes order
  unfold headerBytes at h0
  simp only [List.append_assoc] at h0
  obtain ⟨hmagic, h2⟩ := Source.value_of_drop (by decide) h0
  obtain ⟨hversion, h3⟩ := Source.value_of_drop h.version h2
  obtain ⟨hflags, h4⟩ := Source.value_of_drop h.flags h3
  obtain ⟨hheader, h8⟩ := Source.value_of_drop h.headerSize h4
  obtain ⟨htype, h12⟩ := Source.value_of_drop (by decide) h8
  obtain ⟨htypes, h16⟩ := Source.value_of_drop h.typeSize h12
  obtain ⟨hstring, h20⟩ := Source.value_of_drop h.typeSize h16
  obtain ⟨hstrings, -⟩ := Source.value_of_drop h.stringSize h20
  rw [Source.header, header, Header.mk.injEq]
  exact ⟨congrArg Int.ofNat hmagic, congrArg Int.ofNat hversion, congrArg Int.ofNat hflags,
    congrArg Int.ofNat hheader, congrArg Int.ofNat htype, congrArg Int.ofNat htypes,
    congrArg Int.ofNat hstring, congrArg Int.ofNat hstrings⟩

theorem drop_section (image : WordImage) (order : ByteOrder) :
    (image.source order).bytes.toList.drop (24 + image.padding.length) =
      image.words.flatMap (order.bytes 4) ++ image.strings := by
  have h := image.toList_bytes order
  rw [← List.append_assoc] at h
  rw [h, List.drop_left' (by rw [List.length_append, length_headerBytes])]

/-- **The words are found in the type section.** -/
theorem words_eq (h : image.WellFormed) (order : ByteOrder) :
    (image.source order).words order (24 + image.padding.length) image.words.length =
      image.words := by
  have hslice := (Source.slice_of_drop (image.drop_section order)).1
  rw [length_section] at hslice
  exact Source.words_of_slice h.words hslice

theorem drop_strings (image : WordImage) (order : ByteOrder) :
    (image.source order).bytes.toList.drop (24 + image.padding.length + 4 * image.words.length) =
      image.strings := by
  have h := (Source.slice_of_drop (image.drop_section order)).2
  rwa [length_section] at h

theorem size_bytes (image : WordImage) (order : ByteOrder) : (image.source order).bytes.size =
    24 + image.padding.length + 4 * image.words.length + image.strings.length := by
  have h := congrArg List.length (image.toList_bytes order)
  rw [Array.length_toList, List.length_append, List.length_append, List.length_append,
    length_headerBytes, length_section] at h
  omega

/-- **The layout that is read** is the one that the blob is put together with. -/
theorem layout_run (h : image.WellFormed) (order : ByteOrder) :
    Read.layout.run (image.source order) {} =
      (.ok ⟨order, image.header⟩, { offset := 24, order }) := by
  have hsize := image.size_bytes order
  exact (Read.layout_run_iff Cursor.isOpen_start).mpr
    ⟨by omega, (image.header_eq h order).symm, rfl, rfl⟩

end WordImage

end Btf
