import Btf.Proofs.Settings
import Btf.Record.OfType

/-!
# Records are well formed

Whoever reads the records of a table does not check them again. What they can rely on is said here of
the records themselves, by their attributes, and holds of every record that is decoded.

* `Record.Shows`, `Record.Word`, `Record.Parts`: what can be read from a record;
* `Record.IsMember`, `Record.IsEnumerator`, `Record.IsParam`: well-formed parts of records;
* `Record.Shape`, `Record.WellFormed`: well-formed records, by their classes;
* `TypeInfo.WellFormed.shape`: the record of a type that can be written;
* `Names.Tiled.length_le`, `TypeEntry.mem_numbered`: there are few enough entries for their identifiers;
* `Settings.exists_decode_of_ok`: a table is decoded from bytes that are there;
* **`decode_wellFormed`**: every record that is decoded is well formed.
-/

namespace Btf

namespace Record

/-! ## What can be read from a record -/

/-- An attribute of a record is a value. -/
def Shows (r : Record) (attr : String) (v : Value) : Prop := r.get attr = .ok (.value v)

/-- An attribute of a record is a number of 32 bits. -/
def Word (r : Record) (attr : String) (n : Nat) : Prop :=
  r.Shows attr (natValue n) ∧ n < 0x100000000

/-- An attribute of a record is a sequence of records. -/
def Parts (r : Record) (attr : String) (ps : List Record) : Prop :=
  r.Shows attr (.tuple (ps.map value))

/-- The member of a type whose members pack the size of a bit field into their offset if `flag`. -/
structure IsMember (flag : Bool) (r : Record) : Prop where
  cls : r.cls = .member
  name : ∃ name, r.Shows "name" (nameValue name)
  type : ∃ id, r.Word "typ" id
  kindFlag : r.Shows "kind_flag" (.bool flag)
  place : ∃ offset bitOffset bitfieldSize, r.Word "offset" offset ∧
    r.Word "bit_offset" bitOffset ∧ r.Word "bitfield_size" bitfieldSize ∧
      if flag then
        offset = bitfieldSize * 0x1000000 + bitOffset ∧ bitOffset < 0x1000000 ∧ bitfieldSize < 256
      else bitOffset = offset ∧ bitfieldSize = 0

/-- A named constant of 32 bits with a sign. -/
structure IsEnumerator (r : Record) : Prop where
  cls : r.cls = .enumerator
  name : ∃ name, r.Shows "name" (.str name)
  value : ∃ n : Int, r.Shows "value" (.int n) ∧ -0x80000000 ≤ n ∧ n < 0x80000000

structure IsParam (r : Record) : Prop where
  cls : r.cls = .param
  name : ∃ name, r.Shows "name" (nameValue name)
  type : ∃ id, r.Word "typ" id

/-- A parameter without name and type, by which further parameters are written. -/
def IsEllipsis (r : Record) : Prop := r.Shows "name" .null ∧ r.Shows "typ" (natValue 0)

/-- What the attributes of a record are, by its class. -/
inductive Shape (r : Record) : Prop
  | int {name : Option Text} {size bits bitOffset : Nat} {signed char bool : Bool}
      {encoding : IntEncoding} (cls : r.cls = .type .int) (hname : r.Shows "name" (nameValue name))
      (hsize : r.Word "size" size) (hbits : r.Word "bits" bits)
      (hplace : r.Word "bit_offset" bitOffset) (hsigned : r.Shows "is_signed" (.bool signed))
      (hchar : r.Shows "is_char" (.bool char)) (hbool : r.Shows "is_bool" (.bool bool))
      (hencoding : r.get ("encoding" : String) = .ok (.encoding encoding))
      (sizes : size ∈ [1, 2, 4, 8, 16]) (width : bits ≤ 128) (inside : bitOffset + bits ≤ 8 * size)
      (flags : [signed, char, bool].count true ≤ 1)
      (named : (encoding = .signed ↔ signed = true) ∧ (encoding = .char ↔ char = true) ∧
        (encoding = .bool ↔ bool = true))
  | ref {kind : RefKind} {target : Nat} (cls : r.cls = .type kind.kind)
      (htarget : r.Word "typ" target)
  | array {element index count : Nat} (cls : r.cls = .type .array)
      (helement : r.Word "typ" element) (hindex : r.Word "index_typ" index)
      (hcount : r.Word "nelems" count)
  | composite {kind : CompositeKind} {name : Option Text} {size : Nat} {flag : Bool}
      {ms : List Record} (cls : r.cls = .type kind.kind) (hname : r.Shows "name" (nameValue name))
      (hsize : r.Word "size" size) (hflag : r.Shows "kind_flag" (.bool flag))
      (hmembers : r.Parts "members" ms) (few : ms.length ≤ 65535)
      (members : ∀ m ∈ ms, m.IsMember flag)
  | enum {name : Option Text} {size : Nat} {xs : List Record} (cls : r.cls = .type .enum)
      (hname : r.Shows "name" (nameValue name)) (hsize : r.Word "size" size)
      (hxs : r.Parts "enumerators" xs) (sizes : size ∈ [1, 2, 4, 8]) (some : 1 ≤ xs.length)
      (few : xs.length ≤ 65535) (enumerators : ∀ x ∈ xs, x.IsEnumerator)
  | fwd {name : Text} {isUnion : Bool} (cls : r.cls = .type .fwd) (hname : r.Shows "name" (.str name))
      (hunion : r.Shows "is_union" (.bool isUnion))
  | named {name : Text} {target : Nat} (cls : r.cls = .type .typedef ∨ r.cls = .type .func)
      (hname : r.Shows "name" (.str name)) (htarget : r.Word "typ" target)
  | funcProto {result : Nat} {ps : List Record} {variadic : Bool} (cls : r.cls = .type .funcProto)
      (hresult : r.Word "typ" result) (hparams : r.Parts "params" ps)
      (hvariadic : r.Shows "variadic" (.bool variadic)) (few : ps.length ≤ 65535)
      (fewer : variadic = true → ps.length ≤ 65534) (params : ∀ p ∈ ps, p.IsParam)
      (last : variadic = false → ∀ p, ps.getLast? = some p → ¬ p.IsEllipsis)

/-- A well-formed record of a type: its identifier is a word other than that of `void`, and its
attributes are those of its class. -/
structure WellFormed (r : Record) : Prop where
  id : ∃ id, 1 ≤ id ∧ r.Word "id" id
  shape : r.Shape

/-- Attributes that every record of a class has are read as such. -/
theorem get_of_own {r : Record} {attr : String} {a : Except RecordFault Attribute}
    (h : r.own? attr = some a) : r.get attr = a := by
  rw [get, Text.toString?_ofString, Option.bind_some, h]

theorem shows_of_own {r : Record} {attr : String} {v : Value}
    (h : r.own? attr = some (.ok (.value v))) : r.Shows attr v := get_of_own h

theorem word_of_own {r : Record} {attr : String} {n : Nat}
    (h : r.own? attr = some (.ok (.value (natValue n)))) (hn : n < 0x100000000) : r.Word attr n :=
  ⟨get_of_own h, hn⟩

end Record

/-! ## The parts of types as records -/

def Member.record (m : Member) : Record where
  cls := .member
  fields := [nameValue m.name, natValue m.type, natValue m.offset, .bool m.kindFlag]

def Enumerator.record (x : Enumerator) : Record where
  cls := .enumerator
  fields := [.str x.name, .int x.value]

def Param.record (p : Param) : Record where
  cls := .param
  fields := [nameValue p.name, natValue p.type]

open Record (shows_of_own word_of_own)

theorem Member.isMember {m : Member} (htype : m.type < 0x100000000)
    (hoffset : m.offset < 0x100000000) : m.record.IsMember m.kindFlag where
  cls := rfl
  name := ⟨m.name, shows_of_own rfl⟩
  type := ⟨m.type, word_of_own rfl htype⟩
  kindFlag := shows_of_own rfl
  place := by
    obtain ⟨name, type, offset, flag⟩ := m
    have hword : ∀ flag, (Member.record ⟨name, type, offset, flag⟩).Word "offset" offset :=
      fun _ => word_of_own rfl hoffset
    replace hoffset : offset < 0x100000000 := hoffset
    cases flag with
    | false =>
      exact ⟨offset, offset, 0, hword false, word_of_own rfl hoffset,
        word_of_own rfl (by decide), rfl, rfl⟩
    | true =>
      have hlow : offset % 0x1000000 < 0x1000000 := Nat.mod_lt _ (by decide)
      have hhigh : offset / 0x1000000 < 256 := Nat.div_lt_of_lt_mul hoffset
      refine ⟨offset, offset % 0x1000000, offset / 0x1000000, hword true,
        word_of_own rfl (by omega), word_of_own rfl (by omega), ?_, hlow, hhigh⟩
      rw [Nat.mul_comm, Nat.div_add_mod]

theorem Enumerator.isEnumerator {x : Enumerator} (hlow : -0x80000000 ≤ x.value)
    (hhigh : x.value < 0x80000000) : x.record.IsEnumerator where
  cls := rfl
  name := ⟨x.name, shows_of_own rfl⟩
  value := ⟨x.value, shows_of_own rfl, hlow, hhigh⟩

theorem Param.isParam {p : Param} (htype : p.type < 0x100000000) : p.record.IsParam where
  cls := rfl
  name := ⟨p.name, shows_of_own rfl⟩
  type := ⟨p.type, word_of_own rfl htype⟩

/-- Only the parameter without name and type reads as one. -/
theorem Param.eq_ellipsis {p : Param} (h : p.record.IsEllipsis) : p = Entry.ellipsis := by
  obtain ⟨name, type⟩ := p
  have hname : (Param.record ⟨name, type⟩).Shows "name" (nameValue name) := shows_of_own rfl
  have htype : (Param.record ⟨name, type⟩).Shows "typ" (natValue type) := shows_of_own rfl
  cases name with
  | some t => cases hname.symm.trans h.1
  | none =>
    cases htype.symm.trans h.2
    rfl

namespace TypeInfo

theorem shape_int {name : Option Text} {size bits bitOffset : Nat} {encoding : IntEncoding} (id : Nat)
    (h : (int name size bits bitOffset encoding).WellFormed) :
    (TypeEntry.record ⟨id, int name size bits bitOffset encoding⟩).Shape := by
  obtain ⟨hsizes, hbits, hinside⟩ := h
  have hsize : size ≤ 16 := by
    simp [Entry.intSizes] at hsizes
    omega
  have hencoding : (TypeEntry.record ⟨id, int name size bits bitOffset encoding⟩).get
      ("encoding" : String) = .ok (.encoding encoding) := by
    rw [Record.get_of_own rfl]
    cases encoding <;> rfl
  refine .int rfl (shows_of_own rfl) (word_of_own rfl (by omega)) (word_of_own rfl (by omega))
    (word_of_own rfl (by omega)) (shows_of_own rfl) (shows_of_own rfl) (shows_of_own rfl)
    hencoding hsizes hbits hinside ?_ ?_
  · cases encoding <;> decide
  · cases encoding <;> decide

theorem shape_composite {kind : CompositeKind} {name : Option Text} {size : Nat} {flag : Bool}
    {members : List Member} (id : Nat) (h : (composite kind name size flag members).WellFormed) :
    (TypeEntry.record ⟨id, composite kind name size flag members⟩).Shape := by
  obtain ⟨hsize, hfew, hmembers⟩ := h
  have hparts : (TypeEntry.record ⟨id, composite kind name size flag members⟩).Parts "members"
      (members.map Member.record) := by
    rw [Record.Parts, List.map_map]
    cases kind <;> exact shows_of_own rfl
  refine .composite rfl (by cases kind <;> exact shows_of_own rfl)
    (by cases kind <;> exact word_of_own rfl hsize) (by cases kind <;> exact shows_of_own rfl) hparts
    (by rwa [List.length_map]) (List.forall_mem_map.mpr fun m hm => ?_)
  obtain ⟨htype, hoffset, rfl⟩ := hmembers m hm
  exact Member.isMember htype hoffset

theorem shape_enum {name : Option Text} {size : Nat} {enumerators : List Enumerator} (id : Nat)
    (h : (enum name size enumerators).WellFormed) :
    (TypeEntry.record ⟨id, enum name size enumerators⟩).Shape := by
  have hsize := h.sizeOrType_lt
  obtain ⟨hsizes, hsome, hfew, hrange⟩ := h
  have hparts : (TypeEntry.record ⟨id, enum name size enumerators⟩).Parts "enumerators"
      (enumerators.map Enumerator.record) := by
    rw [Record.Parts, List.map_map]
    exact shows_of_own rfl
  exact .enum rfl (shows_of_own rfl) (word_of_own rfl hsize) hparts hsizes
    (by rwa [List.length_map]) (by rwa [List.length_map])
    (List.forall_mem_map.mpr fun x hx => Enumerator.isEnumerator (hrange x hx).1 (hrange x hx).2)

theorem shape_funcProto {result : Nat} {params : List Param} {variadic : Bool} (id : Nat)
    (h : (funcProto result params variadic).WellFormed) :
    (TypeEntry.record ⟨id, funcProto result params variadic⟩).Shape := by
  obtain ⟨hresult, hfew, hparams, hlast⟩ := h
  have hparts : (TypeEntry.record ⟨id, funcProto result params variadic⟩).Parts "params"
      (params.map Param.record) := by
    rw [Record.Parts, List.map_map]
    exact shows_of_own rfl
  rw [writtenParams, List.length_append] at hfew
  refine .funcProto rfl (word_of_own rfl hresult) hparts (shows_of_own rfl) ?_ ?_ ?_ ?_
  · rw [List.length_map]
    omega
  · -- the parameter that stands for further ones is written too
    rintro rfl
    rw [List.length_map]
    exact Nat.le_of_succ_le_succ hfew
  · exact List.forall_mem_map.mpr fun p hp => Param.isParam (hparams p hp)
  · intro hvariadic r hr hellipsis
    rw [List.getLast?_map, Option.map_eq_some_iff] at hr
    obtain ⟨p, hp, rfl⟩ := hr
    exact hlast hvariadic (Param.eq_ellipsis hellipsis ▸ hp)

/-- **The record of a type that can be written** has the attributes of its class. -/
theorem WellFormed.shape {info : TypeInfo} (id : Nat) (h : info.WellFormed) :
    (TypeEntry.record ⟨id, info⟩).Shape := by
  cases info with
  | int => exact shape_int id h
  | ref kind target => exact .ref rfl (by cases kind <;> exact word_of_own rfl h)
  | array element index count =>
    exact .array rfl (word_of_own rfl h.1) (word_of_own rfl h.2.1) (word_of_own rfl h.2.2)
  | typedef name target => exact .named (.inl rfl) (shows_of_own rfl) (word_of_own rfl h)
  | composite => exact shape_composite id h
  | enum => exact shape_enum id h
  | fwd name isUnion => exact .fwd rfl (shows_of_own rfl) (shows_of_own rfl)
  | func name signature => exact .named (.inr rfl) (shows_of_own rfl) (word_of_own rfl h)
  | funcProto => exact shape_funcProto id h

end TypeInfo

/-! ## Tables -/

/-- Every entry takes at least the bytes of its head. -/
theorem Names.Tiled.length_le {names : Names} {s : Source} {order : ByteOrder} {stop i : Nat}
    {os : List NameOffsets} {infos : List TypeInfo} (h : Tiled names s order stop i os infos) :
    i + TypeHeader.size * infos.length ≤ stop := by
  induction h with
  | done => exact Nat.le_refl _
  | entry _ _ ih =>
    unfold TypeInfo.entrySize at ih
    rw [List.length_cons, TypeHeader.size] at *
    omega

theorem TypeEntry.mem_numbered {infos : List TypeInfo} {e : TypeEntry}
    (h : e ∈ TypeEntry.numbered infos) : 1 ≤ e.id ∧ e.id ≤ infos.length ∧ e.info ∈ infos := by
  have hid := List.mem_map_of_mem (f := TypeEntry.id) h
  have hinfo := List.mem_map_of_mem (f := TypeEntry.info) h
  rw [map_id_numbered, List.mem_range'_1] at hid
  rw [map_info_numbered] at hinfo
  exact ⟨hid.1, by omega, hinfo⟩

/-- Nothing is decoded from bytes that have been released. -/
theorem Read.layout_run_released {s : Source} {c : Cursor} (h : ¬ c.IsOpen) :
    ∃ fault c', layout.run s c = (.error fault, c') := by
  have hreleased : Cursor.holding { c with offset := 0, order := .little } = .released :=
    not_not.mp h
  have hword : ∃ fault c', (Read.word 2).run s { c with offset := 0, order := .little } =
      (.error fault, c') := by
    rw [word, run_ofRun, if_pos hreleased]
    split <;> exact ⟨_, _, rfl⟩
  obtain ⟨fault, c', hword⟩ := hword
  rw [layout, run_bind, detectOrder_run, hword]
  exact ⟨_, _, rfl⟩

namespace Table

variable {options : TextOptions} {s : Source} {c : Cursor} {t : Table}

theorem isOpen_of_decode (h : (decode options s c).1.outcome = .ok t) : c.IsOpen := by
  by_contra hc
  obtain ⟨fault, c', hlayout⟩ := Read.layout_run_released (s := s) hc
  rw [outcome_decode, hlayout] at h
  cases h

/-- **The records of a table** are well formed. -/
theorem wellFormed_of_decode (h : (decode options s c).1.outcome = .ok t) :
    ∀ e ∈ t.types, e.record.WellFormed := by
  obtain ⟨order, os, infos, -, -, -, htiled, rfl⟩ := (decode_ok_iff (isOpen_of_decode h)).mp h
  intro e he
  obtain ⟨hpos, hle, hinfo⟩ := TypeEntry.mem_numbered he
  have hlength := htiled.length_le
  have hsize := s.word_lt order 12
  rw [TypeHeader.size] at hlength
  refine ⟨⟨e.id, hpos, ?_⟩, (htiled.wellFormed _ hinfo).shape e.id⟩
  exact word_of_own rfl (by omega)

end Table

/-- A table is decoded from some bytes, with the options for names that a configuration has. -/
theorem Settings.exists_decode_of_ok {settings : Settings} {input : Input} {t : Table}
    (h : (settings.decode input).outcome = .ok t) :
    ∃ options s c, (Table.decode options s c).1.outcome = .ok t := by
  obtain ⟨-, options, s, c, -, -, -, htable⟩ := exists_table_of_ok h
  exact ⟨options, s, c, htable⟩

/-- **Every record that is decoded is well formed**, from whatever input and with whatever settings. -/
theorem decode_wellFormed {settings : Settings} {input : Input} {t : Table}
    (h : (settings.decode input).outcome = .ok t) : ∀ e ∈ t.types, e.record.WellFormed := by
  obtain ⟨options, s, c, htable⟩ := Settings.exists_decode_of_ok h
  exact Table.wellFormed_of_decode htable

/-- A blob with a bit field, a constant below zero, a function type and a union that is declared. -/
def partsBlob : Bytes := #[
  0x9F, 0xEB, 1, 0, 24, 0, 0, 0, 0, 0, 0, 0, 112, 0, 0, 0, 112, 0, 0, 0, 15, 0, 0, 0,
  1, 0, 0, 0, 0, 0, 0, 1, 4, 0, 0, 0, 16, 0, 8, 1,
  3, 0, 0, 0, 2, 0, 0, 0x84, 8, 0, 0, 0, 5, 0, 0, 0, 1, 0, 0, 0, 0, 0, 0, 0,
  0, 0, 0, 0, 1, 0, 0, 0, 32, 0, 0, 3, 9, 0, 0, 0, 1, 0, 0, 6, 1, 0, 0, 0, 11, 0, 0, 0,
  0xFB, 0xFF, 0xFF, 0xFF, 0, 0, 0, 0, 2, 0, 0, 13, 1, 0, 0, 0, 13, 0, 0, 0, 1, 0, 0, 0,
  0, 0, 0, 0, 0, 0, 0, 0, 7, 0, 0, 0, 0, 0, 0, 0x87, 0, 0, 0, 0,
  0, 105, 0, 115, 0, 102, 0, 103, 0, 69, 0, 65, 0, 112, 0]

def partsTable : Table where
  header := ⟨0xEB9F, 1, 0, 24, 0, 112, 112, 15⟩
  types := [⟨1, .int (some "i") 4 16 8 .signed⟩,
    ⟨2, .composite .struct (some "s") 8 true
      [⟨some "f", 1, 0, true⟩, ⟨none, 1, 0x3000020, true⟩]⟩,
    ⟨3, .enum (some "E") 1 [⟨"A", -5⟩]⟩, ⟨4, .funcProto 1 [⟨some "p", 1⟩] true⟩, ⟨5, .fwd "g" true⟩]

theorem decode_wellFormed_parts :
    ((Settings.value .null).decode (.memory partsBlob)).outcome = .ok partsTable ∧
      ∀ e ∈ partsTable.types, e.record.WellFormed := by
  have h : ((Settings.value .null).decode (.memory partsBlob)).outcome = .ok partsTable :=
    toOption_eq_some_iff.mp (by decide +kernel)
  exact ⟨h, decode_wellFormed h⟩

end Btf
