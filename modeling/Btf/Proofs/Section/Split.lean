import Btf.Proofs.Layout
import Btf.Proofs.Traversal

/-!
# The section in parts

Entries are read one after the other from absolute places, and nothing of one entry is kept for the
next but the list of what was read. A section is therefore read as its first bytes and then as the
section that begins behind them.

* `Names.entry_congr`: an entry depends on its header only through the strings that its names are;
* `Names.entryWithin`: one step of the loop; `Names.entriesUpTo_step`;
* `Names.entriesUpTo_resume`: **the loop goes on** where the loop up to an earlier end stops;
* `Names.entriesUpTo_error_iff`: the loop fails with the fault of the first entry that is refused;
* `Names.types`: the types of the section with their identifiers;
* **`Names.types_compose`**: the types of a section are those of its first bytes and then of the rest.
-/

namespace Btf

/-! ## What an entry depends on -/

theorem Read.congruence_eq : Congruence fun _ _ m m' => m = m' where
  pure _ := rfl
  bind hm hf := by rw [hm, funext hf]

theorem Entry.info_congr {names names' : Names} (hget : names.get = names'.get) (offset : Nat)
    (head : TypeHeader) : info ⟨names, offset, head⟩ = info ⟨names', offset, head⟩ :=
  congruence_info Read.congruence_eq names names' (fun _ _ _ => rfl) rfl (congrFun hget)

namespace Names

variable {names names' : Names} {s : Source} {c c' : Cursor} {info : TypeInfo} {fault : Fault}
  {stop mid : Int} {done infos : List TypeInfo}

/-- **An entry depends on the header** only through the strings that its names are. -/
theorem entry_congr (hstrings : names.header.stringStart = names'.header.stringStart)
    (hoptions : names.options = names'.options) : names.entry = names'.entry := by
  have hget : names.get = names'.get := by
    funext offset
    rw [get, get, Header.stringAddress, Header.stringAddress, hstrings, hoptions]
  unfold entry
  simp only [Entry.info_congr hget]

/-- An entry that is read leaves the cursor within the blob, and changes nothing of it but the
offset. -/
theorem cursor_of_entry (h : names.entry.run s c = (.ok info, c')) :
    c' = { c with offset := c'.offset } ∧
      (c.offset ≤ s.bytes.size → c'.offset ≤ s.bytes.size) := by
  obtain ⟨head, c₁, hhead, rfl⟩ := entry_offset h
  refine ⟨rfl, fun hin => ?_⟩
  have hin₁ := Read.consumes_typeHeader.within hin hhead
  have hentry : names.entry.run s c = (Entry.info ⟨names, c.offset, head⟩).run s c₁ := by
    change (Read.typeHeader >>= fun head => Entry.info ⟨names, c.offset, head⟩).run s c = _
    rw [Read.run_bind, hhead]
  rw [hentry] at h
  exact (Entry.consumes_info _).within hin₁ h

/-! ## Steps of the loop -/

/-- The entry at the cursor, which may not reach beyond `stop`. -/
def entryWithin (names : Names) (stop : Int) : Read Fault TypeInfo := .ofRun fun s c =>
  match names.entry.run s c with
  | (.ok info, c') =>
    (if stop < c'.offset then .error (.overrun c.offset c'.offset stop) else .ok info, c')
  | (.error fault, c') => (.error fault, c')

theorem run_entryWithin_ok (h : names.entry.run s c = (.ok info, c')) (hle : c'.offset ≤ stop) :
    (names.entryWithin stop).run s c = (.ok info, c') := by
  rw [entryWithin, Read.run_ofRun, h]
  dsimp only
  rw [if_neg (Int.not_lt.mpr hle)]

theorem run_entryWithin_overrun (h : names.entry.run s c = (.ok info, c'))
    (hover : stop < c'.offset) :
    (names.entryWithin stop).run s c = (.error (.overrun c.offset c'.offset stop), c') := by
  rw [entryWithin, Read.run_ofRun, h]
  dsimp only
  rw [if_pos hover]

theorem run_entryWithin_error (h : names.entry.run s c = (.error fault, c')) :
    (names.entryWithin stop).run s c = (.error fault, c') := by
  rw [entryWithin, Read.run_ofRun, h]

theorem outcome_entryWithin_error (h : names.entry.outcome s c = .error fault) :
    (names.entryWithin stop).outcome s c = .error fault := by
  have hrun : names.entry.run s c = (.error fault, (names.entry.run s c).2) := Prod.ext h rfl
  rw [Read.outcome, run_entryWithin_error hrun]

/-- An entry that may not reach beyond `stop` is refused as such, or for reaching beyond it. -/
theorem refused_of_entryWithin (h : (names.entryWithin stop).outcome s c = .error fault) :
    names.entry.outcome s c = .error fault ∨ ∃ reached, fault = .overrun c.offset reached stop := by
  rcases hrun : names.entry.run s c with ⟨e | info, c'⟩
  · rw [Read.outcome, run_entryWithin_error hrun] at h
    exact .inl ((congrArg Prod.fst hrun).trans h)
  · by_cases hover : stop < c'.offset
    · rw [Read.outcome, run_entryWithin_overrun hrun hover] at h
      cases h
      exact .inr ⟨c'.offset, rfl⟩
    · rw [Read.outcome, run_entryWithin_ok hrun (Int.not_lt.mp hover)] at h
      cases h

theorem entriesUpTo_end (h : stop ≤ c.offset) :
    names.entriesUpTo stop s done c = (.ok done.reverse, c) := by
  rw [entriesUpTo, if_neg (Int.not_lt.mpr h)]

/-- **One step of the loop** is one entry. -/
theorem entriesUpTo_step (hlt : c.offset < stop) : names.entriesUpTo stop s done c =
    match (names.entryWithin stop).run s c with
    | (.ok info, c') => names.entriesUpTo stop s (info :: done) c'
    | (.error fault, c') => (.error fault, c') := by
  rw [entriesUpTo, if_pos hlt]
  split
  · next info c' h =>
    by_cases hover : stop < c'.offset
    · rw [if_pos hover, run_entryWithin_overrun h hover]
    · rw [if_neg hover, run_entryWithin_ok h (Int.not_lt.mp hover)]
  · next fault c' h => rw [run_entryWithin_error h]

theorem entriesUpTo_entry (h : names.entry.run s c = (.ok info, c')) (hle : c'.offset ≤ stop) :
    names.entriesUpTo stop s done c = names.entriesUpTo stop s (info :: done) c' := by
  have hadvance := entry_advances h
  unfold TypeHeader.size at hadvance
  rw [entriesUpTo_step (by omega), run_entryWithin_ok h hle]

/-- The loop ends where an entry is refused. -/
theorem entriesUpTo_refused (hlt : c.offset < stop)
    (h : (names.entryWithin stop).run s c = (.error fault, c')) :
    names.entriesUpTo stop s done c = (.error fault, c') := by
  rw [entriesUpTo_step hlt, h]

theorem entriesUpTo_congr (h : names.entry = names'.entry) :
    names.entriesUpTo stop s done c = names'.entriesUpTo stop s done c := by
  fun_induction entriesUpTo names stop s done c with
  | case1 done c hlt info c' hrun hover =>
    rw [h] at hrun
    rw [entriesUpTo_refused hlt (run_entryWithin_overrun hrun hover)]
  | case2 done c hlt info c' hrun hle _ ih =>
    rw [h] at hrun
    rw [ih, entriesUpTo_entry hrun (Int.not_lt.mp hle)]
  | case3 done c hlt fault c' hrun =>
    rw [h] at hrun
    rw [entriesUpTo_refused hlt (run_entryWithin_error hrun)]
  | case4 done c hend => rw [entriesUpTo_end (Int.not_lt.mp hend)]

/-- What was read before an entry does not change how it and the entries behind it are read. -/
theorem entriesUpTo_append (names : Names) (stop : Int) (s : Source)
    (done before : List TypeInfo) (c : Cursor) :
    names.entriesUpTo stop s (done ++ before) c =
      ((names.entriesUpTo stop s done c).1.map (before.reverse ++ ·),
        (names.entriesUpTo stop s done c).2) := by
  fun_induction entriesUpTo names stop s done c with
  | case1 done c hlt info c' hrun hover =>
    rw [entriesUpTo_refused hlt (run_entryWithin_overrun hrun hover)]
    rfl
  | case2 done c hlt info c' hrun hle _ ih =>
    rw [entriesUpTo_entry hrun (Int.not_lt.mp hle), ← ih, List.cons_append]
  | case3 done c hlt fault c' hrun =>
    rw [entriesUpTo_refused hlt (run_entryWithin_error hrun)]
    rfl
  | case4 done c hend =>
    rw [entriesUpTo_end (Int.not_lt.mp hend), List.reverse_append]
    rfl

/-! ## Where the loop stops -/

/-- The loop ends at its end, and within the blob. -/
theorem cursor_of_entriesUpTo (hle : c.offset ≤ stop) (hin : c.offset ≤ s.bytes.size)
    (h : names.entriesUpTo stop s done c = (.ok infos, c')) :
    c' = { c with offset := stop.toNat } ∧ stop ≤ s.bytes.size := by
  fun_induction entriesUpTo names stop s done c with
  | case1 => cases h
  | case2 done c hlt info c₁ hrun hover _ ih =>
    obtain ⟨hcursor, hwithin⟩ := cursor_of_entry hrun
    obtain ⟨hc', hstop⟩ := ih (Int.not_lt.mp hover) (hwithin hin) h
    rw [hcursor] at hc'
    exact ⟨hc', hstop⟩
  | case3 => cases h
  | case4 done c hend =>
    have heq : stop = c.offset := Int.le_antisymm (Int.not_lt.mp hend) hle
    cases h
    rw [heq]
    exact ⟨rfl, Int.ofNat_le.mpr hin⟩

/-- The loop over `m` bytes from the cursor ends `m` bytes further on. -/
theorem cursor_of_section {start : Nat} {m : Int} (hm : 0 ≤ m) (hin : start ≤ s.bytes.size)
    (h : names.entriesUpTo (start + m) s done { c with offset := start } = (.ok infos, c')) :
    c' = { c with offset := (start + m).toNat } ∧ start + m ≤ s.bytes.size := by
  have hle : (Cursor.offset { c with offset := start } : Int) ≤ start + m :=
    Int.le_add_of_nonneg_right hm
  have hcursor := cursor_of_entriesUpTo hle hin h
  exact hcursor

/-- **The loop goes on** where the loop up to an earlier end stops. -/
theorem entriesUpTo_resume (hle : mid ≤ stop)
    (h : names.entriesUpTo mid s done c = (.ok infos, c')) :
    names.entriesUpTo stop s done c = names.entriesUpTo stop s infos.reverse c' := by
  fun_induction entriesUpTo names mid s done c with
  | case1 => cases h
  | case2 done c hlt info c₁ hrun hover _ ih =>
    rw [entriesUpTo_entry hrun (by omega), ih h]
  | case3 => cases h
  | case4 done c hend =>
    cases h
    rw [List.reverse_reverse]

theorem entriesUpTo_split (hle : mid ≤ stop)
    (h : names.entriesUpTo mid s done c = (.ok infos, c')) : names.entriesUpTo stop s done c =
      ((names.entriesUpTo stop s [] c').1.map (infos ++ ·), (names.entriesUpTo stop s [] c').2) := by
  have happend := names.entriesUpTo_append stop s [] infos.reverse c'
  rw [List.nil_append, List.reverse_reverse] at happend
  rw [entriesUpTo_resume hle h, happend]

/-- **The loop fails** with the fault of the first entry that is refused: the loop up to that entry
succeeds. -/
theorem entriesUpTo_error_iff :
    (names.entriesUpTo stop s done c).1 = .error fault ↔ ∃ mid : Nat, c.offset ≤ mid ∧ mid < stop ∧
      (∃ infos, names.entriesUpTo mid s done c = (.ok infos, { c with offset := mid })) ∧
      (names.entryWithin stop).outcome s { c with offset := mid } = .error fault := by
  constructor
  · intro h
    fun_induction entriesUpTo names stop s done c with
    | case1 done c hlt info c' hrun hover =>
      refine ⟨c.offset, Nat.le_refl _, hlt, ⟨_, entriesUpTo_end (Int.le_refl _)⟩, ?_⟩
      cases h
      exact congrArg Prod.fst (run_entryWithin_overrun hrun hover)
    | case2 done c hlt info c' hrun hover hadvance ih =>
      obtain ⟨hcursor, -⟩ := cursor_of_entry hrun
      obtain ⟨mid, hmid, hstop, ⟨infos, hinfos⟩, hfault⟩ := ih h
      have hsame : { c' with offset := mid } = { c with offset := mid } := by rw [hcursor]
      rw [hsame] at hinfos hfault
      unfold TypeHeader.size at hadvance
      refine ⟨mid, by omega, hstop, ⟨infos, ?_⟩, hfault⟩
      rw [entriesUpTo_entry hrun (Int.ofNat_le.mpr hmid), hinfos]
    | case3 done c hlt fault' c' hrun =>
      refine ⟨c.offset, Nat.le_refl _, hlt, ⟨_, entriesUpTo_end (Int.le_refl _)⟩, ?_⟩
      cases h
      exact congrArg Prod.fst (run_entryWithin_error hrun)
    | case4 => cases h
  · rintro ⟨mid, -, hstop, ⟨infos, hinfos⟩, hfault⟩
    have hrun : (names.entryWithin stop).run s { c with offset := mid } = (.error fault, _) :=
      Prod.ext hfault rfl
    rw [entriesUpTo_resume (Int.le_of_lt hstop) hinfos, entriesUpTo_refused hstop hrun]

end Names

/-! ## Sections -/

namespace TypeEntry

/-- The type with an identifier that is `n` higher. -/
def shift (n : Nat) (e : TypeEntry) : TypeEntry := { e with id := e.id + n }

/-- The identifiers of types behind others are higher by their number. -/
theorem numbered_append (xs ys : List TypeInfo) :
    numbered (xs ++ ys) = numbered xs ++ (numbered ys).map (shift (numbered xs).length) := by
  rw [length_numbered, numbered, numbered, numbered, List.zipIdx_append, List.map_append,
    List.map_map]
  congr 1
  refine List.ext_getElem (by simp) fun i h₁ h₂ => ?_
  simp only [List.getElem_map, List.getElem_zipIdx, Function.comp_apply, shift,
    TypeEntry.mk.injEq, and_true]
  omega

end TypeEntry

namespace Names

variable {names names' : Names} {s : Source} {c : Cursor} {header : Header} {options : TextOptions}
  {m n : Int} {fault : Fault} {xs : List TypeEntry}

theorem run_typeSection (names : Names) (s : Source) (c : Cursor) : names.typeSection.run s c =
    if names.header.typeStart < 0 ∨ (s.bytes.size : Int) < names.header.typeStart then
      (.error (.source (.outside names.header.typeStart s.bytes.size)), c)
    else names.entriesUpTo names.header.typeEnd s []
      { c with offset := names.header.typeStart.toNat } := by
  rw [typeSection, Read.run_bind, Read.run_mapError, Read.seek, Read.run_ofRun]
  by_cases hout : names.header.typeStart < 0 ∨ (s.bytes.size : Int) < names.header.typeStart
  · rw [if_pos hout, if_pos hout]
    rfl
  · rw [if_neg hout, if_neg hout]
    rfl

/-- **The types of the section** with their identifiers. -/
def types (names : Names) (s : Source) (c : Cursor) : Except Fault (List TypeEntry) :=
  (names.typeSection.outcome s c).map TypeEntry.numbered

/-- Where the cursor was before does not matter. -/
theorem types_offset (names : Names) (s : Source) (c : Cursor) (i : Nat) :
    names.types s { c with offset := i } = names.types s c := by
  rw [types, types, Read.outcome, Read.outcome, run_typeSection, run_typeSection]
  split <;> rfl

theorem types_outside
    (h : names.header.typeStart < 0 ∨ (s.bytes.size : Int) < names.header.typeStart) :
    names.types s c = .error (.source (.outside names.header.typeStart s.bytes.size)) := by
  rw [types, Read.outcome, run_typeSection, if_pos h]
  rfl

/-- The types of a section that starts within the blob are what the loop gives, whose entries do not
depend on where the section is. -/
theorem types_inside {offset size stop : Int} {start : Nat}
    (hstart : header.headerSize + offset = start) (hstop : start + size = stop)
    (hin : start ≤ s.bytes.size) :
    types ⟨{ header with typeOffset := offset, typeSize := size }, options⟩ s c =
      (entriesUpTo ⟨header, options⟩ stop s [] { c with offset := start }).1.map
        TypeEntry.numbered := by
  have hentry : entry ⟨{ header with typeOffset := offset, typeSize := size }, options⟩ =
      entry ⟨header, options⟩ := entry_congr rfl rfl
  rw [types, Read.outcome, run_typeSection, entriesUpTo_congr hentry]
  unfold Header.typeEnd Header.typeStart
  dsimp only
  rw [hstart, hstop, if_neg (by omega)]
  rfl

theorem exists_start (h : names.types s c = .ok xs) :
    ∃ start : Nat, names.header.typeStart = start ∧ start ≤ s.bytes.size := by
  by_cases hout : names.header.typeStart < 0 ∨ (s.bytes.size : Int) < names.header.typeStart
  · rw [types_outside hout] at h
    cases h
  · exact ⟨names.header.typeStart.toNat, by omega, by omega⟩

/-- The first `m` bytes of a section and the rest of it, each read on its own. -/
theorem types_split (hm : 0 ≤ m) (hmn : m ≤ n)
    (h : types ⟨{ header with typeSize := m }, options⟩ s c = .ok xs) :
    types ⟨{ header with typeSize := n }, options⟩ s c =
      (types ⟨{ header with typeOffset := header.typeOffset + m, typeSize := n - m }, options⟩ s
        c).map fun ys => xs ++ ys.map (.shift xs.length) := by
  obtain ⟨start, hstart, hin⟩ := exists_start h
  have hstart : header.headerSize + header.typeOffset = start := hstart
  have hstart' : header.headerSize + (header.typeOffset + m) = ((start + m).toNat : Nat) := by
    omega
  rw [types_inside hstart rfl hin, map_eq_ok] at h
  obtain ⟨infos, hinfos, rfl⟩ := h
  -- the loop over the first part ends where the second part starts
  have hfirst : entriesUpTo ⟨header, options⟩ (start + m) s [] { c with offset := start } =
      (.ok infos, _) := Prod.ext hinfos rfl
  obtain ⟨hcursor, hsize⟩ := cursor_of_section hm hin hfirst
  rw [hcursor] at hfirst
  have hstop' : ((start + m).toNat : Int) + (n - m) = start + n := by omega
  rw [types_inside hstart rfl hin, types_inside hstart' hstop' (by omega),
    entriesUpTo_split (by omega) hfirst]
  cases (entriesUpTo ⟨header, options⟩ (start + n) s []
      { c with offset := (start + m).toNat }).1 with
  | error fault => rfl
  | ok ys => exact congrArg Except.ok (TypeEntry.numbered_append infos ys)

/-- The types of a section are refused for where it starts, or for its first entry that is
refused. -/
theorem types_error_iff : types ⟨{ header with typeSize := n }, options⟩ s c = .error fault ↔
    ((header.typeStart < 0 ∨ (s.bytes.size : Int) < header.typeStart) ∧
      fault = .source (.outside header.typeStart s.bytes.size)) ∨
    ∃ (m : Nat) (xs : List TypeEntry), m < n ∧
      types ⟨{ header with typeSize := m }, options⟩ s c = .ok xs ∧
      (entryWithin ⟨header, options⟩ (header.typeStart + n)).outcome s
        { c with offset := header.typeStart.toNat + m } = .error fault := by
  by_cases hout : header.typeStart < 0 ∨ (s.bytes.size : Int) < header.typeStart
  · have houtside : ∀ k : Int, types ⟨{ header with typeSize := k }, options⟩ s c =
        .error (.source (.outside header.typeStart s.bytes.size)) := fun _ => types_outside hout
    rw [houtside]
    constructor
    · intro h
      exact .inl ⟨hout, (Except.error.inj h).symm⟩
    · rintro (⟨-, rfl⟩ | ⟨m, xs, -, hxs, -⟩)
      · rfl
      · rw [houtside] at hxs
        cases hxs
  · obtain ⟨start, hstart⟩ := Int.eq_ofNat_of_zero_le (Int.not_lt.mp fun h => hout (.inl h))
    have hin : start ≤ s.bytes.size := by omega
    have hinside : ∀ k : Int, types ⟨{ header with typeSize := k }, options⟩ s c =
        (entriesUpTo ⟨header, options⟩ (start + k) s [] { c with offset := start }).1.map
          TypeEntry.numbered := fun _ => types_inside hstart rfl hin
    rw [hinside, map_eq_error, entriesUpTo_error_iff, hstart, Int.toNat_natCast]
    constructor
    · rintro ⟨mid, hmid, hstop, ⟨infos, hinfos⟩, hfault⟩
      have hsum : start + (mid - start) = mid := Nat.add_sub_of_le hmid
      refine .inr ⟨mid - start, TypeEntry.numbered infos, by omega, ?_, by rw [hsum]; exact hfault⟩
      rw [hinside, ← Int.natCast_add, hsum, hinfos]
      rfl
    · rintro (⟨hout', -⟩ | ⟨m, xs, hlt, hxs, hfault⟩)
      · exact absurd (hstart ▸ hout') hout
      · rw [hinside, map_eq_ok] at hxs
        obtain ⟨infos, hinfos, -⟩ := hxs
        have hrun : entriesUpTo ⟨header, options⟩ (start + m) s [] { c with offset := start } =
            (.ok infos, _) := Prod.ext hinfos rfl
        obtain ⟨hcursor, -⟩ := cursor_of_section (Int.natCast_nonneg m) hin hrun
        have hmid : ((start : Int) + m).toNat = start + m := by omega
        rw [hcursor, hmid, ← Int.natCast_add] at hrun
        exact ⟨start + m, Nat.le_add_right _ _, by omega, ⟨infos, hrun⟩, hfault⟩

/-- **Decoding is compositional.** Where the first `m` bytes of a section are a section, the whole of
it is decoded as its rest is on its own, with identifiers that follow those before, wherever the cursor
was; and the fault of a section is that of its first entry that is refused. -/
theorem types_compose (header : Header) (options : TextOptions) (s : Source) (c : Cursor) :
    (∀ {m n : Int} {xs : List TypeEntry}, 0 ≤ m → m ≤ n →
      types ⟨{ header with typeSize := m }, options⟩ s c = .ok xs → ∀ i j : Nat,
      types ⟨{ header with typeSize := n }, options⟩ s { c with offset := i } =
        (types ⟨{ header with typeOffset := header.typeOffset + m, typeSize := n - m }, options⟩ s
          { c with offset := j }).map fun ys => xs ++ ys.map (.shift xs.length)) ∧
    ∀ {n : Int} {fault : Fault},
      types ⟨{ header with typeSize := n }, options⟩ s c = .error fault ↔
        ((header.typeStart < 0 ∨ (s.bytes.size : Int) < header.typeStart) ∧
          fault = .source (.outside header.typeStart s.bytes.size)) ∨
        ∃ (m : Nat) (xs : List TypeEntry), m < n ∧
          types ⟨{ header with typeSize := m }, options⟩ s c = .ok xs ∧
          (entryWithin ⟨header, options⟩ (header.typeStart + n)).outcome s
            { c with offset := header.typeStart.toNat + m } = .error fault := by
  refine ⟨fun hm hmn h i j => ?_, types_error_iff⟩
  rw [types_offset _ s c i, types_offset _ s c j]
  exact types_split hm hmn h

/-- A pointer, a function type with any parameters and an entry of no kind. -/
def threeEntries : Source where
  bytes := #[
    0, 0, 0, 0, 0, 0, 0, 2, 3, 0, 0, 0,
    0, 0, 0, 0, 1, 0, 0, 13, 0, 0, 0, 0, 0, 0, 0, 0, 0, 0, 0, 0,
    0, 0, 0, 0, 0, 0, 0, 0, 0, 0, 0, 0]

/-- The types of the first `n` bytes of this blob. -/
def threeTypes (n : Int) : Except Fault (List TypeEntry) :=
  types ⟨⟨0, 0, 0, 0, 0, n, 0, 0⟩, {}⟩ threeEntries {}

theorem types_compose_three : threeTypes 12 = .ok [⟨1, .ref .ptr 3⟩] ∧
    threeTypes 32 = .ok [⟨1, .ref .ptr 3⟩, ⟨2, .funcProto 0 [] true⟩] ∧
    threeTypes 44 = .error (.invalid 32 ⟨0, 0, 0, false, 0⟩ (.unsupportedKind 0)) := by
  have hcompose := types_compose ⟨0, 0, 0, 0, 0, 0, 0, 0⟩ {} threeEntries {}
  have hfirst : threeTypes 12 = .ok [⟨1, .ref .ptr 3⟩] := toOption_eq_some_iff.mp (by decide +kernel)
  have hrest : types ⟨⟨0, 0, 0, 0, 12, 20, 0, 0⟩, {}⟩ threeEntries {} =
      .ok [⟨1, .funcProto 0 [] true⟩] := toOption_eq_some_iff.mp (by decide +kernel)
  have hboth : threeTypes 32 = .ok [⟨1, .ref .ptr 3⟩, ⟨2, .funcProto 0 [] true⟩] := by
    have h := hcompose.1 (by decide) (by decide : (12 : Int) ≤ 32) hfirst 0 0
    refine h.trans ?_
    change (types ⟨⟨0, 0, 0, 0, 12, 20, 0, 0⟩, {}⟩ threeEntries {}).map _ = _
    rw [hrest]
    rfl
  refine ⟨hfirst, hboth, hcompose.2.mpr (.inr ⟨32, _, by decide, hboth, ?_⟩)⟩
  rfl

end Names

end Btf
