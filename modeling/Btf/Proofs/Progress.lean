import Btf.Proofs.Section.Split
import Btf.Proofs.Table

/-!
# How long decoding takes

An entry that is decoded takes the twelve bytes of its head, and its payload has at most as many parts
as sixteen bits can count. So the loop over the section moves forward with every entry, stays within the
bytes, and comes to its end however the header describes the section.

* `Names.entriesIn`, `Names.typeSectionIn`: the section with at most some number of entries;
* `Read.vlen_le`, `TypeHeader.payloadSize_le`, **`Names.entryWithin_progress`**: what one step moves;
* **`Names.entriesIn_eq`**: the loop ends by itself, by induction on the steps that are allowed;
* `Names.length_of_entriesUpTo`: what the loop reads is bounded by what it moves;
* **`typeSection_progress`**: both of a whole section.
-/

namespace Btf

namespace Names

/-- The entries from the cursor `c` up to `stop` if there are no more than `n`, the last of which may be
one that is refused. -/
def entriesIn (names : Names) (stop : Int) (s : Source) :
    Nat → List TypeInfo → Cursor → Option (Except Fault (List TypeInfo) × Cursor)
  | 0, done, c => if c.offset < stop then none else some (.ok done.reverse, c)
  | n + 1, done, c =>
    if c.offset < stop then
      match (names.entryWithin stop).run s c with
      | (.ok info, c') => entriesIn names stop s n (info :: done) c'
      | (.error fault, c') => some (.error fault, c')
    else some (.ok done.reverse, c)

/-- The section if it has no more than `n` entries. -/
def typeSectionIn (names : Names) (n : Nat) (s : Source) (c : Cursor) :
    Option (Except Fault (List TypeInfo) × Cursor) :=
  match ((Read.seek names.header.typeStart).mapError Fault.source).run s c with
  | (.ok _, c') => names.entriesIn names.header.typeEnd s n [] c'
  | (.error fault, c') => some (.error fault, c')

end Names

/-! ## One step -/

theorem Read.vlen_le {s : Source} {c c' : Cursor} {head : TypeHeader}
    (h : typeHeader.run s c = (.ok head, c')) : head.vlen ≤ 65535 := by
  have houtcome : typeHeader.outcome s c = .ok head := congrArg Prod.fst h
  have hu32 : Consumes 4 u32 := consumes_word 4
  rw [typeHeader, outcome_mapError, mapError_eq_ok] at houtcome
  simp only [outcome_bind_ok_iff hu32, outcome_pure] at houtcome
  obtain ⟨_, -, info, -, _, -, hhead⟩ := houtcome
  rw [← Except.ok.inj hhead]
  exact Nat.le_of_lt_succ (Nat.mod_lt info (by decide))

/-- The parts of an entry take at most twelve bytes each. -/
theorem TypeHeader.payloadSize_le {head : TypeHeader} (h : head.vlen ≤ 65535) :
    head.payloadSize ≤ 12 * 65535 := by
  unfold payloadSize
  cases head.kind? with
  | none => exact Nat.zero_le _
  | some k => cases k <;> simp only [Kind.payloadSize] <;> omega

namespace Names

variable {names : Names} {s : Source} {c c' : Cursor} {info : TypeInfo} {stop : Int}
  {done infos : List TypeInfo}

theorem run_entry_of_within (h : (names.entryWithin stop).run s c = (.ok info, c')) :
    names.entry.run s c = (.ok info, c') ∧ c'.offset ≤ stop := by
  rcases hrun : names.entry.run s c with ⟨fault | info', c₁⟩
  · rw [run_entryWithin_error hrun] at h
    cases h
  · by_cases hover : stop < c₁.offset
    · rw [run_entryWithin_overrun hrun hover] at h
      cases h
    · rw [run_entryWithin_ok hrun (Int.not_lt.mp hover)] at h
      cases h
      exact ⟨rfl, Int.not_lt.mp hover⟩

/-- **What one step moves.** Only the offset changes; it grows by the bytes of an entry and stays within
the bytes and the section. -/
theorem entryWithin_progress (h : (names.entryWithin stop).run s c = (.ok info, c')) :
    c' = { c with offset := c'.offset } ∧ c.offset + 12 ≤ c'.offset ∧
      c'.offset ≤ c.offset + (12 + 12 * 65535) ∧ c'.offset ≤ stop ∧
        (c.offset ≤ s.bytes.size → c'.offset ≤ s.bytes.size) := by
  obtain ⟨hentry, hstop⟩ := run_entry_of_within h
  obtain ⟨hcursor, hwithin⟩ := cursor_of_entry hentry
  obtain ⟨head, c₁, hhead, hend⟩ := entry_offset hentry
  have hpayload := TypeHeader.payloadSize_le (Read.vlen_le hhead)
  have hoffset : c'.offset = c.offset + 12 + head.payloadSize := congrArg Cursor.offset hend
  exact ⟨hcursor, by omega, by omega, hstop, hwithin⟩

/-- **The loop ends by itself** before it has used up the bytes. -/
theorem entriesIn_eq {n : Nat} (hin : c.offset ≤ s.bytes.size) (hn : s.bytes.size < c.offset + 12 * n) :
    names.entriesIn stop s n done c = some (names.entriesUpTo stop s done c) := by
  induction n generalizing done c with
  | zero => omega
  | succ n ih =>
    rw [entriesIn]
    by_cases hlt : c.offset < stop
    · rw [if_pos hlt, entriesUpTo_step hlt]
      rcases hrun : (names.entryWithin stop).run s c with ⟨fault | info, c'⟩
      · rfl
      · obtain ⟨-, hadvance, -, -, hwithin⟩ := entryWithin_progress hrun
        exact ih (hwithin hin) (by omega)
    · rw [if_neg hlt, entriesUpTo_end (Int.not_lt.mp hlt)]

/-- **The section ends by itself** wherever it starts. -/
theorem typeSectionIn_eq (names : Names) (s : Source) (c : Cursor) :
    names.typeSectionIn (((s.bytes.size : Int) - names.header.typeStart) / 12 + 1).toNat s c =
      some (names.typeSection.run s c) := by
  rw [run_typeSection, typeSectionIn, Read.run_mapError, Read.seek, Read.run_ofRun]
  by_cases hout : names.header.typeStart < 0 ∨ (s.bytes.size : Int) < names.header.typeStart
  · rw [if_pos hout, if_pos hout]
    rfl
  · rw [if_neg hout, if_neg hout]
    exact entriesIn_eq (by dsimp only; omega) (by dsimp only; omega)

/-! ## The whole section -/

/-- **What the loop reads** is bounded by what it moves. -/
theorem length_of_entriesUpTo (h : names.entriesUpTo stop s done c = (.ok infos, c')) :
    ∃ new, infos = done.reverse ++ new ∧ 12 * new.length + c.offset ≤ c'.offset ∧
      (new = [] ↔ stop ≤ c.offset) := by
  fun_induction entriesUpTo names stop s done c with
  | case1 => cases h
  | case2 done c hlt info c₁ hrun hover hadvance ih =>
    obtain ⟨new, rfl, hlength, -⟩ := ih h
    unfold TypeHeader.size at hadvance
    refine ⟨info :: new, ?_, ?_, ?_⟩
    · rw [List.reverse_cons, List.append_assoc]
      rfl
    · rw [List.length_cons]
      omega
    · exact iff_of_false (List.cons_ne_nil _ _) (Int.not_le.mpr hlt)
  | case3 => cases h
  | case4 done c hend =>
    cases h
    exact ⟨[], (List.append_nil _).symm, by simp, iff_of_true rfl (Int.not_lt.mp hend)⟩

/-- **The types of a section** take at least twelve bytes each, and there are none only if there is
nothing to read. -/
theorem bounds_of_typeSection (h : names.typeSection.run s c = (.ok infos, c')) :
    12 * infos.length ≤ max 0 names.header.typeSize ∧
      (infos = [] ↔ names.header.typeSize ≤ 0) ∧
        (0 ≤ names.header.typeSize → c'.offset = names.header.typeEnd) := by
  rw [run_typeSection] at h
  by_cases hout : names.header.typeStart < 0 ∨ (s.bytes.size : Int) < names.header.typeStart
  · rw [if_pos hout] at h
    cases h
  · rw [if_neg hout] at h
    obtain ⟨new, hnew, hlength, hnil⟩ := length_of_entriesUpTo h
    rw [List.reverse_nil, List.nil_append] at hnew
    subst hnew
    have hend : names.header.typeEnd = names.header.typeStart + names.header.typeSize := rfl
    dsimp only at hlength hnil
    have hempty : infos = [] ↔ names.header.typeSize ≤ 0 := by
      rw [hnil]
      omega
    by_cases hsize : 0 ≤ names.header.typeSize
    · obtain ⟨hcursor, -⟩ := cursor_of_entriesUpTo (by dsimp only; omega) (by dsimp only; omega) h
      have hoffset : c'.offset = names.header.typeEnd.toNat := congrArg Cursor.offset hcursor
      exact ⟨by omega, hempty, fun _ => by omega⟩
    · have hnone : infos = [] := hempty.mpr (by omega)
      rw [hnone]
      exact ⟨Int.le_max_left _ _, hnone ▸ hempty, fun h0 => absurd h0 hsize⟩

end Names

/-- **Decoding a section ends, and what it gives is bounded by what it reads.** Every step moves the
cursor forward within the bytes, by the bytes of a head at least and by those of the largest payload at
most. The section therefore ends by itself after as many steps as heads fit between its start and the
end of the bytes, and one more that fails. On success its types take at least twelve bytes each, there
are none only if the section is empty, and the cursor is at its end. -/
theorem typeSection_progress (names : Names) (s : Source) (c : Cursor) :
    (∀ {stop : Int} {c₁ c₂ : Cursor} {info : TypeInfo}, c₁.offset ≤ s.bytes.size →
      (names.entryWithin stop).run s c₁ = (.ok info, c₂) →
        c₁.offset + 12 ≤ c₂.offset ∧ c₂.offset ≤ c₁.offset + (12 + 12 * 65535) ∧
          c₂.offset ≤ s.bytes.size) ∧
    names.typeSectionIn (((s.bytes.size : Int) - names.header.typeStart) / 12 + 1).toNat s c =
      some (names.typeSection.run s c) ∧
    ∀ {infos : List TypeInfo} {c' : Cursor}, names.typeSection.run s c = (.ok infos, c') →
      12 * infos.length ≤ max 0 names.header.typeSize ∧
        (infos = [] ↔ names.header.typeSize ≤ 0) ∧
          (0 ≤ names.header.typeSize → c'.offset = names.header.typeEnd) := by
  refine ⟨fun hin h => ?_, names.typeSectionIn_eq s c, Names.bounds_of_typeSection⟩
  obtain ⟨-, hadvance, hbound, -, hwithin⟩ := Names.entryWithin_progress h
  exact ⟨hadvance, hbound, hwithin hin⟩

/-- The section of a big endian blob, and its first entry. -/
theorem typeSection_progress_variadic :
    let names : Names := ⟨variadicTable.header, {}⟩
    let s : Source := { bytes := variadicBlob }
    let first : Cursor := { offset := 24, order := .big }
    let second : Cursor := { offset := 40, order := .big }
    let last : Cursor := { offset := 68, order := .big }
    ((names.entryWithin 68).run s first = (.ok (.int (some "int") 4 32 0 .signed), second) ∧
      first.offset + 12 ≤ second.offset ∧ second.offset ≤ s.bytes.size) ∧
    names.typeSectionIn 5 s {} = some (names.typeSection.run s {}) ∧
    names.typeSection.run s first = (.ok variadicTable.infos, last) ∧
      12 * variadicTable.infos.length ≤ max 0 variadicTable.header.typeSize ∧
        last.offset = names.header.typeEnd := by
  intro names s first second last
  have hentry : (names.entryWithin 68).run s first =
      (.ok (.int (some "int") 4 32 0 .signed), second) :=
    Prod.ext (toOption_eq_some_iff.mp (by decide +kernel)) (by decide +kernel)
  have hsection : names.typeSection.run s first = (.ok variadicTable.infos, last) :=
    Prod.ext (toOption_eq_some_iff.mp (by decide +kernel)) (by decide +kernel)
  have hfirst : first.offset ≤ s.bytes.size := by decide
  have hcount : (((s.bytes.size : Int) - names.header.typeStart) / 12 + 1).toNat = 5 := by
    decide +kernel
  obtain ⟨hstep, hends, -⟩ := typeSection_progress names s {}
  rw [hcount] at hends
  obtain ⟨hadvance, -, hwithin⟩ := hstep hfirst hentry
  obtain ⟨hlength, -, hend⟩ := (typeSection_progress names s first).2.2 hsection
  exact ⟨⟨hentry, hadvance, hwithin⟩, hends, hsection, hlength, hend (by decide)⟩

end Btf
