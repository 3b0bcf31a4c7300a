import Btf.Proofs.Footprint
import Btf.Proofs.WellFormed

/-!
# Types by their identifiers

The types of a blob are the entries of its type section, in the order in which these stand there. They
are numbered from one on, so that the identifier of a type is the place of its entry. Whoever asks for
an identifier gets the one type that has it; zero, a number below it and one behind the last type are
identifiers of no type.

* `Names.Tiled.outcome_entries`, `Names.Tiled.entryStarts_succ`: the entries of a section, and where
  they end;
* `Table.InFileOrder`: the types of a table are the entries of a section;
* `Table.Numbered`: the identifiers of a table are the numbers from one on;
* `Table.get?_isSome_iff`, `Table.get_ok_iff`, `Table.get_error_iff`: when there is an answer;
* **`Table.Numbered.get_ok_iff_mem`**: the answer is the type with that identifier;
* **`decode_indexed`**: the types of every table that is decoded, by their identifiers.
-/

namespace Btf

/-- Behind an entry that is written starts the next one. -/
theorem TypeInfo.WrittenAt.entryStarts_succ {info : TypeInfo} {names : Names} {s : Source}
    {order : ByteOrder} {i : Nat} {o : NameOffsets} (h : info.WrittenAt names s order i o) (n : Nat) :
    s.entryStarts order i (n + 1) = i :: s.entryStarts order (i + info.entrySize) n := by
  rw [Source.entryStarts, h.entryHead_eq, payloadSize_head]
  rfl

namespace Names

variable {names : Names} {s : Source} {order : ByteOrder} {stop i : Nat} {os : List NameOffsets}
  {infos : List TypeInfo}

/-- **The types of a section** are what is read at the places where its entries start. -/
theorem Tiled.outcome_entries (h : Tiled names s order stop i os infos) :
    List.Forall₂ (fun start info => names.entry.outcome s { offset := start, order } = .ok info)
      (s.entryStarts order i infos.length) infos := by
  induction h with
  | done => exact .nil
  | @entry i o info os infos hw _ ih =>
    have hopen : Cursor.IsOpen { offset := i, order } := Cursor.isOpen_start
    rw [List.length_cons, hw.entryStarts_succ]
    exact .cons ((entry_ok_iff hopen).mpr ⟨o, hw⟩) ih

/-- Behind its last entry a section ends. -/
theorem Tiled.entryStarts_succ (h : Tiled names s order stop i os infos) :
    s.entryStarts order i (infos.length + 1) = s.entryStarts order i infos.length ++ [stop] := by
  induction h with
  | done => rfl
  | entry hw _ ih =>
    rw [List.length_cons, hw.entryStarts_succ, hw.entryStarts_succ, List.cons_append]
    exact congrArg _ ih

end Names

namespace Table

variable {t : Table} {n : Int} {e : TypeEntry}

/-- The types of a table are the entries of the type section of a blob, in the order of the file and
without gaps: each one is what is read where the one before ends, up to the end of the section. -/
structure InFileOrder (t : Table) (s : Source) (options : TextOptions) (order : ByteOrder) : Prop where
  header : t.header = s.header order
  magic : t.header.magic = Header.magicNumber
  entries : List.Forall₂ (fun start e => (Names.entry ⟨t.header, options⟩).outcome s
      { offset := start, order } = .ok e.info)
    (s.entryStarts order t.header.typeStart.toNat t.size) t.types
  complete : s.entryStarts order t.header.typeStart.toNat (t.size + 1) =
    s.entryStarts order t.header.typeStart.toNat t.size ++ [t.header.typeEnd.toNat]

/-- The identifiers of a table are the numbers from one on. -/
def Numbered (t : Table) : Prop := t.types.map TypeEntry.id = List.range' 1 t.size

/-! ## Identifiers -/

theorem Numbered.id_getElem (h : t.Numbered) {i : Nat} (hi : i < t.types.length) :
    t.types[i].id = i + 1 := by
  have hid : (t.types.map TypeEntry.id)[i]? = some t.types[i].id := by
    rw [List.getElem?_map, List.getElem?_eq_getElem hi, Option.map_some]
  rw [h, size, List.getElem?_range' hi, Nat.one_mul, Nat.add_comm] at hid
  exact (Option.some.inj hid).symm

/-- Only the places of the table have a type. -/
theorem get?_isSome_iff : (t.get? n).isSome ↔ 1 ≤ n ∧ n ≤ t.size := by
  unfold get? size
  split
  · next hpos =>
    rw [isSome_getElem?]
    omega
  · next hneg => exact ⟨fun h => (by cases h), fun h => absurd h.1 hneg⟩

theorem get_ok_iff : t.get n = .ok e ↔ t.get? n = some e := by
  unfold get
  cases t.get? n <;> simp

/-- An identifier that no type has is told as it was asked for. -/
theorem get_error_iff {fault : UnknownId} :
    t.get n = .error fault ↔ ¬ (1 ≤ n ∧ n ≤ t.size) ∧ fault = ⟨n⟩ := by
  rw [← get?_isSome_iff]
  unfold get
  cases t.get? n <;> simp [eq_comm]

theorem getOr_of_get_ok {α : Type} (h : t.get n = .ok e) (default : α) :
    t.getOr n default = .inl e := by rw [getOr, h]

theorem getOr_of_get_error {α : Type} {fault : UnknownId} (h : t.get n = .error fault)
    (default : α) : t.getOr n default = .inr default := by rw [getOr, h]

/-- **A type is found by its identifier.** -/
theorem Numbered.get_ok_iff_mem (h : t.Numbered) :
    t.get n = .ok e ↔ e ∈ t.types ∧ (e.id : Int) = n := by
  rw [get_ok_iff, get?]
  constructor
  · intro hget
    split at hget
    · next hpos =>
      obtain ⟨hi, rfl⟩ := List.getElem?_eq_some_iff.mp hget
      exact ⟨List.getElem_mem hi, by rw [h.id_getElem hi]; omega⟩
    · cases hget
  · rintro ⟨hmem, rfl⟩
    obtain ⟨i, hi, rfl⟩ := List.mem_iff_getElem.mp hmem
    have hplace : (((i + 1 : Nat) : Int) - 1).toNat = i := by omega
    rw [h.id_getElem hi, if_pos (by omega), hplace, List.getElem?_eq_getElem hi]

/-- Going through a table gives the types with the identifiers one, two and so on. -/
theorem Numbered.map_get (h : t.Numbered) :
    (List.range' 1 t.size).map (fun id : Nat => t.get id) = t.types.map .ok := by
  rw [← h, List.map_map]
  exact List.map_congr_left fun e he => h.get_ok_iff_mem.mpr ⟨he, rfl⟩

/-! ## Tables that are decoded -/

/-- **The types of a table** are the entries of its blob, numbered in their order. -/
theorem inFileOrder_of_decode {options : TextOptions} {s : Source} {c : Cursor}
    (h : (decode options s c).1.outcome = .ok t) :
    t.Numbered ∧ ∃ order, t.InFileOrder s options order := by
  obtain ⟨order, os, infos, -, hmagic, -, htiled, rfl⟩ := (decode_ok_iff (isOpen_of_decode h)).mp h
  have hsize : size ⟨s.header order, TypeEntry.numbered infos⟩ = infos.length :=
    TypeEntry.length_numbered infos
  refine ⟨?_, order, rfl, hmagic, ?_, ?_⟩
  · rw [Numbered, hsize]
    exact TypeEntry.map_id_numbered infos
  · have hentries := htiled.outcome_entries
    rw [← TypeEntry.map_info_numbered infos, List.forall₂_map_right_iff, List.length_map,
      TypeEntry.length_numbered] at hentries
    rw [hsize]
    exact hentries
  · rw [hsize]
    exact htiled.entryStarts_succ

end Table

/-- **Types by their identifiers**, for every table that is decoded. -/
theorem decode_indexed {settings : Settings} {input : Input} {t : Table}
    (h : (settings.decode input).outcome = .ok t) :
    (∃ config options s order, settings.make.outcome = .ok config ∧
      config.textOptions = .ok options ∧ input.bytes? = some s.bytes ∧
        t.InFileOrder s options order) ∧
    (∀ i (hi : i < t.types.length), t.types[i].id = i + 1) ∧
    (List.range' 1 t.size).map (fun id : Nat => t.get id) = t.types.map .ok ∧
    (∀ n : Int, (1 ≤ n ∧ n ≤ t.size → ∃ e, (∀ e', e' ∈ t.types ∧ (e'.id : Int) = n ↔ e' = e) ∧
        t.get n = .ok e ∧ ∀ {α : Type} (default : α), t.getOr n default = .inl e) ∧
      (¬ (1 ≤ n ∧ n ≤ t.size) →
        t.get n = .error ⟨n⟩ ∧ ∀ {α : Type} (default : α), t.getOr n default = .inr default)) := by
  obtain ⟨config, options, s, c, hmake, hoptions, hbytes, htable⟩ := Settings.exists_table_of_ok h
  obtain ⟨hnumbered, order, horder⟩ := Table.inFileOrder_of_decode htable
  refine ⟨⟨config, options, s, order, hmake, hoptions, hbytes, horder⟩,
    fun i hi => hnumbered.id_getElem hi, hnumbered.map_get, fun n => ⟨fun hn => ?_, fun hn => ?_⟩⟩
  · obtain ⟨e, he⟩ := Option.isSome_iff_exists.mp (Table.get?_isSome_iff.mpr hn)
    have hget : t.get n = .ok e := Table.get_ok_iff.mpr he
    refine ⟨e, fun e' => ?_, hget, Table.getOr_of_get_ok hget⟩
    rw [← hnumbered.get_ok_iff_mem, hget, Except.ok.injEq, eq_comm]
  · have hget : t.get n = .error ⟨n⟩ := Table.get_error_iff.mpr ⟨hn, rfl⟩
    exact ⟨hget, Table.getOr_of_get_error hget⟩

theorem decode_indexed_variadic :
    ((Settings.value .null).decode (.memory variadicBlob)).outcome = .ok variadicTable ∧
      variadicTable.get 2 = .ok ⟨2, .funcProto 1 [⟨some "a", 1⟩] true⟩ ∧
      variadicTable.get 0 = .error ⟨0⟩ ∧ variadicTable.get (-1) = .error ⟨-1⟩ ∧
      variadicTable.getOr 3 () = .inr () := by
  have h : ((Settings.value .null).decode (.memory variadicBlob)).outcome = .ok variadicTable :=
    toOption_eq_some_iff.mp (by decide +kernel)
  obtain ⟨-, -, hlisted, hget⟩ := decode_indexed h
  have hsecond : variadicTable.get 2 = .ok ⟨2, .funcProto 1 [⟨some "a", 1⟩] true⟩ :=
    (List.cons.inj (List.cons.inj hlisted).2).1
  exact ⟨h, hsecond, ((hget 0).2 (by decide)).1, ((hget (-1)).2 (by decide)).1,
    ((hget 3).2 (by decide)).2 ()⟩

end Btf
