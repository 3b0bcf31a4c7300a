import Mathlib.Data.List.Forall2
import Btf.Decode.Entry
import Btf.Proofs.Bits
import Btf.Proofs.Names

/-!
# How types are written

The entry of a type is a sequence of words: three for its head, then those that its kind asks for, and
then for each of its parts the offset of its name and the words of the part.

* `Cell`, `Cell.Admits`: a word, the bits of it that mean nothing, and the words that say the same;
* `TypePart`, `Member.part`, `Enumerator.part`, `Param.part`: members, enumerators and parameters;
* `TypeInfo.head`, `TypeInfo.payload`, `TypeInfo.cells`: the words of an entry, given the offsets of
  its names;
* `TypeInfo.WellFormed`: the types that can be written;
* **`TypeHeader.ofWords_eq_iff`**, **`intWord_agree_iff`**: what packed words say.
-/

namespace Btf

/-- A word of an entry and the bits of it that mean nothing. -/
structure Cell where
  value : Nat
  free : Nat := 0
  deriving DecidableEq, Repr

/-- A word says the same as that of a cell. -/
def Cell.Admits (cell : Cell) (w : Nat) : Prop := w < 0x100000000 ∧ Agree cell.free w cell.value

instance (cell : Cell) (w : Nat) : Decidable (cell.Admits w) := inferInstanceAs (Decidable (_ ∧ _))

/-- A part of a type: its name, and the words after the offset of the name. -/
structure TypePart where
  name : Option Text
  words : List Nat
  deriving DecidableEq, Repr

/-- The words of a part whose name has the given offset. -/
def TypePart.row (offset : Nat) (p : TypePart) : List Nat := offset :: p.words

/-- The word of a signed number of 32 bits. -/
def unsigned (n : Int) : Nat := (n % 0x100000000).toNat

def Member.part (m : Member) : TypePart := ⟨m.name, [m.type, m.offset]⟩

/-- What is written for a named constant. -/
def Enumerator.part (x : Enumerator) : TypePart := ⟨some x.name, [unsigned x.value]⟩

def Param.part (p : Param) : TypePart := ⟨p.name, [p.type]⟩

def IntEncoding.bits : IntEncoding → Nat
  | none => 0
  | signed => 1
  | char => 2
  | bool => 4

/-- The word after the head of an integer type. -/
def intWord (bits bitOffset : Nat) (encoding : IntEncoding) : Nat :=
  0x1000000 * encoding.bits + 0x10000 * bitOffset + bits

/-- The bits of the word of an integer type that mean nothing. -/
def intFree : Nat := 0xF800FF00

namespace TypeHeader

/-- The second word of the head of an entry. -/
def infoWord (h : TypeHeader) : Nat :=
  0x80000000 * h.kindFlag.toNat + 0x1000000 * h.kind + h.vlen

/-- The bits of the second word that mean nothing. -/
def infoFree : Nat := 0x60FF0000

/-- The words of the head of an entry. -/
def cells (h : TypeHeader) : List Cell :=
  [⟨h.nameOffset, 0⟩, ⟨h.infoWord, infoFree⟩, ⟨h.sizeOrType, 0⟩]

end TypeHeader

/-- Offsets for the names of a type: its own, and those of its parts. -/
structure NameOffsets where
  head : Nat := 0
  parts : List Nat := []
  deriving DecidableEq, Repr

namespace TypeInfo

/-- The parameters that are written for a function type: any further ones are one without name and
type. -/
def writtenParams (params : List Param) (variadic : Bool) : List Param :=
  params ++ if variadic then [Entry.ellipsis] else []

def headName : TypeInfo → Option Text
  | int name .. | composite _ name .. | enum name .. => name
  | typedef name _ | fwd name _ | func name _ => some name
  | ref .. | array .. | funcProto .. => none

def parts : TypeInfo → List TypePart
  | composite _ _ _ _ members => members.map Member.part
  | enum _ _ enumerators => enumerators.map Enumerator.part
  | funcProto _ params variadic => (writtenParams params variadic).map Param.part
  | _ => []

/-- The flag in the head of the entry of a type. -/
def kindFlag : TypeInfo → Bool
  | composite _ _ _ kindFlag _ => kindFlag
  | fwd _ isUnion => isUnion
  | _ => false

def sizeOrType : TypeInfo → Nat
  | int _ size .. | composite _ _ size .. | enum _ size _ => size
  | ref _ target | typedef _ target => target
  | func _ signature => signature
  | funcProto result _ _ => result
  | array .. | fwd .. => 0

/-- The words between the head of an entry and the parts. -/
def fixed : TypeInfo → List Cell
  | int _ _ bits bitOffset encoding => [⟨intWord bits bitOffset encoding, intFree⟩]
  | array element index count => [⟨element, 0⟩, ⟨index, 0⟩, ⟨count, 0⟩]
  | _ => []

def head (info : TypeInfo) (o : NameOffsets) : TypeHeader where
  nameOffset := o.head
  vlen := info.parts.length
  kind := info.kind.number
  kindFlag := info.kindFlag
  sizeOrType := info.sizeOrType

/-- The words of the parts of a type. -/
def rows (info : TypeInfo) (o : NameOffsets) : List Nat :=
  (List.zipWith TypePart.row o.parts info.parts).flatten

theorem rows_eq_nil {info : TypeInfo} {o : NameOffsets} (h : info.parts = []) : info.rows o = [] := by
  rw [rows, h, List.zipWith_nil_right, List.flatten_nil]

/-- The words after the head of the entry of a type. -/
def payload (info : TypeInfo) (o : NameOffsets) : List Cell :=
  info.fixed ++ (info.rows o).map fun w => ⟨w, 0⟩

/-- **The words of the entry of a type.** -/
def cells (info : TypeInfo) (o : NameOffsets) : List Cell :=
  (info.head o).cells ++ info.payload o

theorem length_rows {info : TypeInfo} {o : NameOffsets} {k : Nat}
    (ho : o.parts.length = info.parts.length) (hk : ∀ p ∈ info.parts, p.words.length + 1 = k) :
    (info.rows o).length = k * info.parts.length := by
  rw [rows]
  generalize info.parts = ps at ho hk
  generalize o.parts = os at ho
  induction ps generalizing os with
  | nil => rw [List.eq_nil_of_length_eq_zero ho]; rfl
  | cons p ps ih =>
    obtain ⟨i, os, rfl⟩ := List.exists_cons_of_length_eq_add_one ho
    have htail := ih (fun q hq => hk q (List.mem_cons_of_mem p hq)) os (Nat.succ.inj ho)
    have hrow : (p.row i).length = k := hk p List.mem_cons_self
    rw [List.zipWith_cons_cons, List.flatten_cons, List.length_append, hrow, htail,
      List.length_cons, Nat.mul_succ, Nat.add_comm]

/-- **The words after a head are as many as its kind and the number of parts say.** -/
theorem length_payload {info : TypeInfo} {o : NameOffsets}
    (ho : o.parts.length = info.parts.length) :
    4 * (info.payload o).length = info.kind.payloadSize info.parts.length := by
  rw [payload, List.length_append, List.length_map]
  cases info with
  | int | array | typedef | fwd | func => rw [rows_eq_nil rfl]; rfl
  | ref kind => rw [rows_eq_nil rfl]; cases kind <;> rfl
  | composite kind name size flag ms =>
    rw [length_rows (k := 3) ho (by simp [parts, Member.part])]
    cases kind <;> (change 4 * (0 + 3 * _) = 12 * _; omega)
  | enum name size xs =>
    rw [length_rows (k := 2) ho (by simp [parts, Enumerator.part])]
    change 4 * (0 + 2 * _) = 8 * _
    omega
  | funcProto result ps variadic =>
    rw [length_rows (k := 2) ho (by simp [parts, Param.part])]
    change 4 * (0 + 2 * _) = 8 * _
    omega

theorem payloadSize_head (info : TypeInfo) (o : NameOffsets) :
    (info.head o).payloadSize = info.kind.payloadSize info.parts.length := by
  rw [TypeHeader.payloadSize, TypeHeader.kind?, head, Kind.ofNumber?_number]

/-- The types that can be written: sizes, identifiers and offsets are words, sizes and places of
integers and constants are possible ones, and a function type without further parameters does not end
in the parameter that stands for them. -/
def WellFormed : TypeInfo → Prop
  | int _ size bits bitOffset _ =>
    size ∈ Entry.intSizes ∧ bits ≤ 128 ∧ bitOffset + bits ≤ 8 * size
  | ref _ target => target < 0x100000000
  | array element index count =>
    element < 0x100000000 ∧ index < 0x100000000 ∧ count < 0x100000000
  | typedef _ target => target < 0x100000000
  | composite _ _ size kindFlag members =>
    size < 0x100000000 ∧ members.length ≤ 65535 ∧ ∀ m ∈ members,
      m.type < 0x100000000 ∧ m.offset < 0x100000000 ∧ m.kindFlag = kindFlag
  | enum _ size enumerators =>
    size ∈ Entry.enumSizes ∧ 1 ≤ enumerators.length ∧ enumerators.length ≤ 65535 ∧
      ∀ x ∈ enumerators, -0x80000000 ≤ x.value ∧ x.value < 0x80000000
  | fwd .. => True
  | func _ signature => signature < 0x100000000
  | funcProto result params variadic =>
    result < 0x100000000 ∧ (writtenParams params variadic).length ≤ 65535 ∧
      (∀ p ∈ params, p.type < 0x100000000) ∧
      (variadic = false → params.getLast? ≠ some Entry.ellipsis)

instance : (info : TypeInfo) → Decidable info.WellFormed
  | int .. | array .. => inferInstanceAs (Decidable (_ ∧ _ ∧ _))
  | ref .. | typedef .. | func .. => inferInstanceAs (Decidable (_ < _))
  | composite .. => inferInstanceAs (Decidable (_ ∧ _ ∧ ∀ _ ∈ _, _ ∧ _ ∧ _))
  | enum .. => inferInstanceAs (Decidable (_ ∧ _ ∧ _ ∧ ∀ _ ∈ _, _ ∧ _))
  | fwd .. => inferInstanceAs (Decidable True)
  | funcProto .. => inferInstanceAs (Decidable (_ ∧ _ ∧ (∀ _ ∈ _, _) ∧ (_ → _)))

end TypeInfo

/-! ## Packed words -/

theorem signed_eq (w : Nat) : Entry.signed w =
    if (w : Int) % 0x100000000 < 0x80000000 then (w : Int) % 0x100000000
    else (w : Int) % 0x100000000 - 0x100000000 := Int.bmod_def w 0x100000000

theorem signed_unsigned {n : Int} (hlow : -0x80000000 ≤ n) (hhigh : n < 0x80000000) :
    Entry.signed (unsigned n) = n := by
  rw [signed_eq, unsigned]
  split <;> omega

theorem unsigned_signed {w : Nat} (h : w < 0x100000000) : unsigned (Entry.signed w) = w := by
  rw [signed_eq, unsigned]
  split <;> omega

theorem signed_range (w : Nat) : -0x80000000 ≤ Entry.signed w ∧ Entry.signed w < 0x80000000 := by
  rw [signed_eq]
  split <;> omega

theorem unsigned_lt (n : Int) : unsigned n < 0x100000000 := by
  unfold unsigned
  omega

theorem IntEncoding.ofBits?_eq_some_iff {flags : Nat} {encoding : IntEncoding} :
    IntEncoding.ofBits? flags = some encoding ↔ flags % 8 = encoding.bits := by
  have hlt : flags % 8 < 8 := Nat.mod_lt flags (by decide)
  unfold IntEncoding.ofBits?
  generalize flags % 8 = bits at hlt
  cases encoding <;> revert bits <;> decide

theorem agree_info_iff {a b : Nat} (ha : a < 0x100000000) (hb : b < 0x100000000) :
    Agree TypeHeader.infoFree a b ↔ a % 0x10000 = b % 0x10000 ∧
      a / 0x1000000 % 0x20 = b / 0x1000000 % 0x20 ∧ a / 0x80000000 % 2 = b / 0x80000000 % 2 := by
  rw [agree_iff_bitFields [(0, 16), (24, 5), (31, 1)] (by decide) (by decide) ha hb]
  simp only [List.forall_mem_cons, List.not_mem_nil, false_imp_iff, implies_true, and_true]
  change a / 1 % 0x10000 = b / 1 % 0x10000 ∧ _ ∧ _ ↔ _
  rw [Nat.div_one, Nat.div_one]
  rfl

theorem agree_intWord_iff {a b : Nat} (ha : a < 0x100000000) (hb : b < 0x100000000) :
    Agree intFree a b ↔ a % 0x100 = b % 0x100 ∧ a / 0x10000 % 0x100 = b / 0x10000 % 0x100 ∧
      a / 0x1000000 % 8 = b / 0x1000000 % 8 := by
  rw [agree_iff_bitFields [(0, 8), (16, 8), (24, 3)] (by decide) (by decide) ha hb]
  simp only [List.forall_mem_cons, List.not_mem_nil, false_imp_iff, implies_true, and_true]
  change a / 1 % 0x100 = b / 1 % 0x100 ∧ _ ∧ _ ↔ _
  rw [Nat.div_one, Nat.div_one]
  rfl

theorem TypeHeader.infoWord_lt {h : TypeHeader} (hvlen : h.vlen < 0x10000) (hkind : h.kind < 0x20) :
    h.infoWord < 0x100000000 := by
  unfold infoWord
  cases h.kindFlag <;> simp only [Bool.toNat_true, Bool.toNat_false] <;> omega

theorem intWord_lt {bits bitOffset : Nat} {encoding : IntEncoding} (hbits : bits < 0x100)
    (hoffset : bitOffset < 0x100) : intWord bits bitOffset encoding < 0x100000000 := by
  have henc : encoding.bits < 8 := by cases encoding <;> decide
  unfold intWord
  omega

/-- **The second word of a head** says what the head says, in all but the bits that mean nothing. -/
theorem TypeHeader.ofWords_eq_iff {nameOffset info sizeOrType : Nat} (hinfo : info < 0x100000000)
    {h : TypeHeader} (hvlen : h.vlen < 0x10000) (hkind : h.kind < 0x20) :
    TypeHeader.ofWords nameOffset info sizeOrType = h ↔
      nameOffset = h.nameOffset ∧ Agree TypeHeader.infoFree info h.infoWord ∧
        sizeOrType = h.sizeOrType := by
  obtain ⟨n, vlen, kind, flag, z⟩ := h
  replace hvlen : vlen < 0x10000 := hvlen
  replace hkind : kind < 0x20 := hkind
  rw [agree_info_iff hinfo (TypeHeader.infoWord_lt hvlen hkind)]
  simp only [TypeHeader.ofWords, TypeHeader.mk.injEq, TypeHeader.infoWord]
  cases flag <;> simp only [Bool.toNat_true, Bool.toNat_false, beq_iff_eq, beq_eq_false_iff_ne] <;>
    omega

theorem TypeHeader.admits_cells_iff {nameOffset info sizeOrType : Nat}
    (hname : nameOffset < 0x100000000) (hinfo : info < 0x100000000)
    (hsize : sizeOrType < 0x100000000) {h : TypeHeader} (hvlen : h.vlen < 0x10000)
    (hkind : h.kind < 0x20) :
    List.Forall₂ Cell.Admits h.cells [nameOffset, info, sizeOrType] ↔
      TypeHeader.ofWords nameOffset info sizeOrType = h := by
  rw [TypeHeader.ofWords_eq_iff hinfo hvlen hkind, cells]
  simp only [List.forall₂_cons, Cell.Admits, agree_zero_iff, List.Forall₂.nil, and_true]
  exact ⟨fun h => ⟨h.1.2, h.2.1.2, h.2.2.2⟩, fun h => ⟨⟨hname, h.1⟩, ⟨hinfo, h.2.1⟩, hsize, h.2.2⟩⟩

/-- **The word of an integer type** says its bits, its place and its encoding. -/
theorem intWord_agree_iff {w bits bitOffset : Nat} {encoding : IntEncoding} (hw : w < 0x100000000)
    (hbits : bits < 0x100) (hoffset : bitOffset < 0x100) :
    Agree intFree w (intWord bits bitOffset encoding) ↔ w % 0x100 = bits ∧
      w / 0x10000 % 0x100 = bitOffset ∧
        IntEncoding.ofBits? (w / 0x1000000 % 0x10) = some encoding := by
  have henc : encoding.bits < 8 := by cases encoding <;> decide
  rw [agree_intWord_iff hw (intWord_lt hbits hoffset), IntEncoding.ofBits?_eq_some_iff, intWord]
  omega

theorem forall₂_append_iff {α β : Type} {R : α → β → Prop} {as as' : List α} {bs bs' : List β}
    (h : as.length = bs.length) :
    List.Forall₂ R (as ++ as') (bs ++ bs') ↔ List.Forall₂ R as bs ∧ List.Forall₂ R as' bs' := by
  induction as generalizing bs with
  | nil =>
    rw [List.eq_nil_of_length_eq_zero h.symm]
    exact ⟨fun h => ⟨.nil, h⟩, And.right⟩
  | cons a as ih =>
    obtain ⟨b, bs, rfl⟩ := List.exists_cons_of_length_eq_add_one h.symm
    rw [List.cons_append, List.cons_append, List.forall₂_cons, List.forall₂_cons,
      ih (Nat.succ.inj h), and_assoc]

/-- Words without free bits are themselves. -/
theorem forall₂_admits_exact {vs ws : List Nat} (hws : ∀ w ∈ ws, w < 0x100000000) :
    List.Forall₂ Cell.Admits (vs.map fun v => ⟨v, 0⟩) ws ↔ ws = vs := by
  induction ws generalizing vs with
  | nil =>
    rw [List.forall₂_nil_right_iff, List.map_eq_nil_iff]
    exact eq_comm
  | cons w ws ih =>
    cases vs with
    | nil => exact ⟨fun h => (by cases h), fun h => by cases h⟩
    | cons v vs =>
      rw [List.map_cons, List.forall₂_cons, ih fun u hu => hws u (List.mem_cons_of_mem w hu),
        Cell.Admits, agree_zero_iff, List.cons.injEq]
      constructor
      · rintro ⟨⟨-, h⟩, h'⟩
        exact ⟨h, h'⟩
      · rintro ⟨h, h'⟩
        exact ⟨⟨hws w List.mem_cons_self, h⟩, h'⟩

/-! ## Names of a type -/

/-- The offsets stand for the names of a type. -/
structure NameOffsets.Denote (o : NameOffsets) (names : Names) (s : Source) (info : TypeInfo) :
    Prop where
  head : names.Denotes s o.head info.headName
  parts : List.Forall₂ (names.Denotes s) o.parts (info.parts.map TypePart.name)

theorem NameOffsets.Denote.of_text {o : NameOffsets} {names : Names} {s s' : Source}
    {info : TypeInfo} (htext : ∀ offset, names.text s' offset = names.text s offset)
    (h : o.Denote names s info) : o.Denote names s' info :=
  ⟨(Names.denotes_congr (htext _)).mpr h.head,
    h.parts.imp fun offset _ hoffset => (Names.denotes_congr (htext offset)).mpr hoffset⟩

end Btf
