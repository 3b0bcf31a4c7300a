import Btf.Decode.Entry

/-!
# The type section

The section is a sequence of entries, one after the other, up to the end that the header states.
Every entry takes at least the twelve bytes of its head, so reading them comes to an end whatever
the header says.

* `Names.entry`: the entry at the cursor;
* `Names.entriesUpTo`: the entries up to an end;
* `Names.typeSection`: all entries of the section;
* `TypeEntry.numbered`: entries with their identifiers;
* **`Names.entry_advances`**: an entry takes at least the bytes of its head.
-/

namespace Btf

namespace Names

/-- What the entry at the cursor says. -/
def entry (names : Names) : Read Fault TypeInfo := do
  let offset ← Read.offset
  let head ← Read.typeHeader
  Entry.info { names, offset, head }

/-- An entry takes the bytes of its head and its payload. -/
theorem entry_offset {names : Names} {s : Source} {c c' : Cursor} {info : TypeInfo}
    (h : names.entry.run s c = (.ok info, c')) :
    ∃ head c₁, Read.typeHeader.run s c = (.ok head, c₁) ∧
      c' = { c with offset := c.offset + TypeHeader.size + head.payloadSize } := by
  rw [entry, Read.run_bind] at h
  change (match (Except.ok c.offset, c) with
    | (.ok a, c') => (Read.typeHeader >>= fun head =>
        Entry.info { names, offset := a, head }).run s c'
    | (.error e, c') => (.error e, c')) = _ at h
  dsimp only at h
  rw [Read.run_bind] at h
  split at h
  · next head c₁ h₁ =>
    refine ⟨head, c₁, h₁, ?_⟩
    rw [(Entry.consumes_info _).ok h, Read.consumes_typeHeader.ok h₁]
  · cases h

/-- **An entry takes at least the bytes of its head.** -/
theorem entry_advances {names : Names} {s : Source} {c c' : Cursor} {info : TypeInfo}
    (h : names.entry.run s c = (.ok info, c')) : c.offset + TypeHeader.size ≤ c'.offset := by
  obtain ⟨head, _, _, rfl⟩ := entry_offset h
  exact Nat.le_add_right _ _

/-- The entries from the cursor `c` up to `stop`, which no entry may overrun; `done` holds what the
entries before said, last first. -/
def entriesUpTo (names : Names) (stop : Int) (s : Source) (done : List TypeInfo) (c : Cursor) :
    Except Fault (List TypeInfo) × Cursor :=
  if (c.offset : Int) < stop then
    match h : names.entry.run s c with
    | (.ok info, c') =>
      if stop < c'.offset then (.error (.overrun c.offset c'.offset stop), c')
      else
        have := entry_advances h
        entriesUpTo names stop s (info :: done) c'
    | (.error e, c') => (.error e, c')
  else (.ok done.reverse, c)
termination_by (stop - c.offset).toNat
decreasing_by
  simp only [TypeHeader.size] at this
  omega

/-- **What the entries of the type section say.** -/
def typeSection (names : Names) : Read Fault (List TypeInfo) := do
  (Read.seek names.header.typeStart).mapError .source
  .ofRun fun s c => names.entriesUpTo names.header.typeEnd s [] c

end Names

/-- Entries with their identifiers: the first one has identifier one. -/
def TypeEntry.numbered (infos : List TypeInfo) : List TypeEntry :=
  (infos.zipIdx 1).map fun (info, id) => { id, info }

theorem TypeEntry.length_numbered (infos : List TypeInfo) :
    (numbered infos).length = infos.length := by
  rw [numbered, List.length_map, List.length_zipIdx]

end Btf
