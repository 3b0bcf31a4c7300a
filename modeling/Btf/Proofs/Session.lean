import Mathlib.Data.Nat.Digits.Defs
import Btf.Proofs.Names

/-!
# Sessions with a byte source

A reader is asked one thing after the other. What it answers depends on the bytes and on its cursor, and
a cursor that has been asked anything is within the bytes, reads in the order that was set last, and has
lost its bytes if they were mapped and it was closed. What fails leaves it where it was.

* `Command`, `Command.action`, `Answer`: what can be asked, and how it is answered;
* `Cursor.start`, `Cursor.after`: the cursor of a new reader, and after some commands;
* `Command.Steps`, `Command.steps_run`: all that a step can do;
* `Cursor.Tracks`: what a cursor is after some commands; `Cursor.Tracks.step`,
  **`Cursor.Tracks.after`**;
* `Command.Meets`, **`Command.Steps.meets`**: how a step ends as long as the bytes are there;
* **`session_step`**: every step of every session.
-/

namespace Btf

/-- What can be asked of a byte source. -/
inductive Command
  | seek (target : Int)
  | u8
  | u16
  | u32
  | cstring
  | setOrder (little : Bool)
  | close
  deriving DecidableEq, Repr

inductive Answer
  | done
  | number (n : Nat)
  | bytes (bs : List UInt8)
  deriving DecidableEq, Repr

/-- How a command is carried out. -/
def Command.action : Command → Read SourceFault Answer
  | seek target => do
    Read.seek target
    return .done
  | u8 => return .number (← Read.u8)
  | u16 => return .number (← Read.u16)
  | u32 => return .number (← Read.u32)
  | cstring => return .bytes (← Read.cstring)
  | setOrder little => do
    Read.setOrder (.ofBool little)
    return .done
  | close => do
    Read.close
    return .done

namespace Cursor

/-- The cursor of a new reader. -/
def start (mapped : Bool) : Cursor := { holding := if mapped then .mapped else .memory }

/-- The cursor after some commands. -/
def after (c : Cursor) (s : Source) (cmds : List Command) : Cursor :=
  cmds.foldl (fun c cmd => (cmd.action.run s c).2) c

end Cursor

/-- The number that bytes are the digits of, the least significant one first in little endian order. -/
def ByteOrder.number : ByteOrder → List UInt8 → Nat
  | little, bs => Nat.ofDigits 256 (bs.map UInt8.toNat)
  | big, bs => Nat.ofDigits 256 (bs.map UInt8.toNat).reverse

theorem ByteOrder.value_eq_number (order : ByteOrder) (bs : List UInt8) :
    order.value bs = order.number bs := by
  have hlittle : ∀ bs, value little bs = Nat.ofDigits 256 (bs.map UInt8.toNat) := by
    intro bs
    induction bs with
    | nil => rfl
    | cons b bs ih => rw [value_little_cons, ih, List.map_cons, Nat.ofDigits_cons]
  cases order with
  | little => exact hlittle bs
  | big => rw [value_big, hlittle, List.map_reverse, number]

namespace Command

/-- The number of bytes that a command reads as a number. -/
def width? : Command → Option Nat
  | u8 => some 1
  | u16 => some 2
  | u32 => some 4
  | _ => none

/-- The bytes that a command is about, which a failure is reported with. -/
def range (s : Source) (c : Cursor) : Command → ByteRange
  | seek target => ⟨target, 0⟩
  | u8 => ⟨c.offset, 1⟩
  | u16 => ⟨c.offset, 2⟩
  | u32 => ⟨c.offset, 4⟩
  | cstring => ⟨c.offset, (s.bytes.size : Int) - c.offset + 1⟩
  | setOrder _ | close => ⟨c.offset, 0⟩

/-! ## All that a step can do -/

/-- A step is a command that is answered or fails, and the cursor that it leaves. -/
inductive Steps (s : Source) (c : Cursor) : Command → Except SourceFault Answer → Cursor → Prop
  | moved {target : Int} (h0 : 0 ≤ target) (h : target ≤ s.bytes.size) :
      Steps s c (.seek target) (.ok .done) { c with offset := target.toNat }
  | outside {target : Int} (h : target < 0 ∨ s.bytes.size < target) :
      Steps s c (.seek target) (.error (.outside target s.bytes.size)) c
  | read {cmd : Command} {n : Nat} (hcmd : cmd.width? = some n) (hopen : c.IsOpen)
      (h : c.offset + n ≤ s.bytes.size) :
      Steps s c cmd (.ok (.number (c.order.number (s.slice c.offset n)))) (c.skip n)
  | past {cmd : Command} {n : Nat} (hcmd : cmd.width? = some n) (h : s.bytes.size < c.offset + n) :
      Steps s c cmd (.error (.pastEnd c.offset n)) c
  | string {stop : Nat} (hopen : c.IsOpen) (h : s.FirstZero c.offset stop) :
      Steps s c .cstring (.ok (.bytes (s.bytes.extract c.offset stop).toList))
        { c with offset := stop + 1 }
  | unterminated (hopen : c.IsOpen) (h : ∀ j, c.offset ≤ j → s.bytes[j]? ≠ some 0) :
      Steps s c .cstring (.error (.unterminated c.offset (s.bytes.size - c.offset))) c
  | gone {cmd : Command} (hcmd : cmd = .cstring ∨ ∃ n, cmd.width? = some n) (hgone : ¬ c.IsOpen) :
      Steps s c cmd (.error .released) c
  | ordered (little : Bool) :
      Steps s c (.setOrder little) (.ok .done) { c with order := .ofBool little }
  | kept (h : c.holding = .memory) : Steps s c .close (.ok .done) c
  | closed (h : c.holding ≠ .memory) : Steps s c .close (.ok .done) { c with holding := .released }

variable {s : Source} {c : Cursor} {cmd : Command}

theorem run_answer {α : Type} (m : Read SourceFault α) (f : α → Answer) (s : Source) (c : Cursor) :
    (m >>= fun a => pure (f a) : Read SourceFault Answer).run s c =
      ((m.run s c).1.map f, (m.run s c).2) := by
  rw [Read.run_bind]
  rcases m.run s c with ⟨_ | _, _⟩ <;> rfl

theorem steps_word {n : Nat} (hcmd : cmd.width? = some n) :
    Steps s c cmd (((Read.word n).run s c).1.map .number) ((Read.word n).run s c).2 := by
  by_cases h : s.bytes.size < c.offset + n
  · rw [Read.word, Read.run_ofRun, if_pos h]
    exact .past hcmd h
  · by_cases hopen : c.IsOpen
    · rw [(Read.consumes_word n).run_eq (Read.outcome_word hopen (Nat.not_lt.mp h)),
        ByteOrder.value_eq_number]
      exact .read hcmd hopen (Nat.not_lt.mp h)
    · rw [Read.word, Read.run_ofRun, if_neg h, if_pos (not_not.mp hopen)]
      exact .gone (.inr ⟨n, hcmd⟩) hopen

theorem steps_cstring :
    Steps s c .cstring ((Read.cstring.run s c).1.map .bytes) (Read.cstring.run s c).2 := by
  rw [Read.cstring, Read.run_ofRun]
  by_cases hopen : c.IsOpen
  · rw [if_neg hopen]
    cases h : Read.nulFrom s.bytes c.offset with
    | none => exact .unterminated hopen (Read.nulFrom_eq_none_iff.mp h)
    | some stop => exact .string hopen (Read.nulFrom_eq_some_iff.mp h)
  · rw [if_pos (not_not.mp hopen)]
    exact .gone (.inl rfl) hopen

/-- **All that a step can do.** -/
theorem steps_run (s : Source) (c : Cursor) (cmd : Command) :
    Steps s c cmd (cmd.action.run s c).1 (cmd.action.run s c).2 := by
  cases cmd with
  | seek target =>
    rw [action, run_answer, Read.seek, Read.run_ofRun]
    by_cases hout : target < 0 ∨ (s.bytes.size : Int) < target
    · rw [if_pos hout]
      exact .outside hout
    · rw [if_neg hout]
      exact .moved (by omega) (by omega)
  | u8 => rw [action, run_answer]; exact steps_word rfl
  | u16 => rw [action, run_answer]; exact steps_word rfl
  | u32 => rw [action, run_answer]; exact steps_word rfl
  | cstring => rw [action, run_answer]; exact steps_cstring
  | setOrder little => exact .ordered little
  | close =>
    obtain ⟨offset, order, holding⟩ := c
    cases holding with
    | memory => exact .kept rfl
    | mapped | released =>
      refine .closed fun h => ?_
      cases h

/-- A step that fails leaves the cursor where it was, and is reported with the bytes that it is about,
unless these are gone. -/
theorem Steps.unchanged {fault : SourceFault} {c' : Cursor} (hin : c.offset ≤ s.bytes.size)
    (h : Steps s c cmd (.error fault) c') : c' = c ∧
      ((∃ details, fault.report? = some ⟨.ioError, some (cmd.range s c), details⟩) ∨
        fault = .released ∧ ¬ c.IsOpen) := by
  cases h with
  | outside => exact ⟨rfl, .inl ⟨_, rfl⟩⟩
  | @past cmd n hcmd =>
    refine ⟨rfl, .inl ⟨some "read past the end of data", ?_⟩⟩
    cases cmd <;> cases hcmd <;> rfl
  | unterminated =>
    refine ⟨rfl, .inl ⟨some "unterminated string", ?_⟩⟩
    rw [SourceFault.report?, range, Int.ofNat_sub hin]
  | gone _ hgone => exact ⟨rfl, .inr ⟨rfl, hgone⟩⟩

/-- A command that changes nothing but where the next bytes are read. -/
def onlyMoves : Command → Bool
  | setOrder _ | close => false
  | _ => true

theorem onlyMoves_of_width? {n : Nat} (h : cmd.width? = some n) : cmd.onlyMoves = true := by
  cases cmd <;> cases h <;> rfl

/-- The byte order is little endian after some commands. -/
def littleAfter (cmds : List Command) : Bool :=
  cmds.foldl (fun little cmd => match cmd with
    | setOrder little => little
    | _ => little) true

theorem littleAfter_concat (cmds : List Command) (cmd : Command) :
    littleAfter (cmds ++ [cmd]) = match cmd with
      | setOrder little => little
      | _ => littleAfter cmds := by
  rw [littleAfter, List.foldl_append]
  rfl

end Command

/-! ## What a cursor is after some commands -/

namespace Cursor

/-- The cursor of a reader after some commands: it is within the bytes, has the byte order that was set
last, and has lost its bytes if they were mapped and it was closed. -/
structure Tracks (s : Source) (mapped : Bool) (cmds : List Command) (c : Cursor) : Prop where
  inside : c.offset ≤ s.bytes.size
  order : c.order = .ofBool (Command.littleAfter cmds)
  holding : c.holding =
    if mapped then if .close ∈ cmds then .released else .mapped else .memory

variable {s : Source} {mapped : Bool} {cmds : List Command} {cmd : Command} {c c' : Cursor}

theorem tracks_start (s : Source) (mapped : Bool) : Tracks s mapped [] (start mapped) :=
  ⟨Nat.zero_le _, rfl, rfl⟩

theorem Tracks.move (h : Tracks s mapped cmds c) (hcmd : cmd.onlyMoves = true) {i : Nat}
    (hi : i ≤ s.bytes.size) : Tracks s mapped (cmds ++ [cmd]) { c with offset := i } := by
  have hclose : .close ≠ cmd := by
    rintro rfl
    cases hcmd
  have hmem : .close ∈ cmds ++ [cmd] ↔ .close ∈ cmds := by
    rw [List.mem_append, List.mem_singleton, or_iff_left hclose]
  refine ⟨hi, ?_, ?_⟩
  · rw [Command.littleAfter_concat]
    cases cmd <;> first | exact h.order | cases hcmd
  · simp only [hmem]
    exact h.holding

/-- A step that only moves the cursor may fail, and then it stays. -/
theorem Tracks.stay (h : Tracks s mapped cmds c) (hcmd : cmd.onlyMoves = true) :
    Tracks s mapped (cmds ++ [cmd]) c := h.move hcmd h.inside

/-- **What one step preserves.** -/
theorem Tracks.step {r : Except SourceFault Answer} (h : Tracks s mapped cmds c)
    (hstep : cmd.Steps s c r c') : Tracks s mapped (cmds ++ [cmd]) c' := by
  cases hstep with
  | moved h0 hle => exact h.move rfl (by omega)
  | outside => exact h.stay rfl
  | read hcmd _ hle => exact h.move (Command.onlyMoves_of_width? hcmd) hle
  | past hcmd => exact h.stay (Command.onlyMoves_of_width? hcmd)
  | string _ hstop =>
    obtain ⟨hlt, -⟩ := Array.getElem?_eq_some_iff.mp hstop.zero
    exact h.move rfl hlt
  | unterminated => exact h.stay rfl
  | gone hcmd =>
    rcases hcmd with rfl | ⟨n, hcmd⟩
    · exact h.stay rfl
    · exact h.stay (Command.onlyMoves_of_width? hcmd)
  | ordered little =>
    have hmem : Command.close ∈ cmds ++ [.setOrder little] ↔ .close ∈ cmds := by simp
    refine ⟨h.inside, by rw [Command.littleAfter_concat], ?_⟩
    simp only [hmem]
    exact h.holding
  | kept hmemory =>
    refine ⟨h.inside, by rw [Command.littleAfter_concat]; exact h.order, ?_⟩
    cases mapped with
    | false => exact hmemory
    | true =>
      -- mapped bytes are never those of memory
      have hholding := h.holding
      rw [hmemory, if_pos rfl] at hholding
      split at hholding <;> cases hholding
  | closed hheld =>
    refine ⟨h.inside, by rw [Command.littleAfter_concat]; exact h.order, ?_⟩
    cases mapped with
    | false => exact absurd h.holding hheld
    | true => rw [if_pos rfl, if_pos (by simp)]

/-- **What a session preserves**, by induction on its commands. -/
theorem Tracks.after (h : Tracks s mapped cmds c) (new : List Command) :
    Tracks s mapped (cmds ++ new) (c.after s new) := by
  induction new generalizing cmds c with
  | nil => rwa [List.append_nil]
  | cons cmd new ih =>
    rw [List.append_cons]
    exact ih (h.step (Command.steps_run s c cmd))

theorem Tracks.isOpen_iff (h : Tracks s mapped cmds c) :
    c.IsOpen ↔ (mapped = true → .close ∉ cmds) := by
  rw [IsOpen, h.holding]
  cases mapped with
  | false => simp
  | true => by_cases hclose : .close ∈ cmds <;> simp [hclose]

end Cursor

/-! ## How a step ends -/

namespace Command

/-- A step fails with a report of the bytes that it is about, and leaves the cursor. -/
def Refuses (s : Source) (c : Cursor) (cmd : Command) (r : Except SourceFault Answer × Cursor) :
    Prop :=
  ∃ fault details, r = (.error fault, c) ∧
    fault.report? = some ⟨.ioError, some (cmd.range s c), details⟩

/-- How a command that reads `n` bytes as a number ends. -/
def MeetsWord (s : Source) (c : Cursor) (r : Except SourceFault Answer × Cursor) (cmd : Command)
    (n : Nat) : Prop :=
  if c.offset + n ≤ s.bytes.size then
    r = (.ok (.number (c.order.number (s.slice c.offset n))), { c with offset := c.offset + n })
  else cmd.Refuses s c r

/-- How a command ends as long as the bytes are there. -/
def Meets (s : Source) (c : Cursor) (r : Except SourceFault Answer × Cursor) : Command → Prop
  | seek target =>
    if 0 ≤ target ∧ target ≤ s.bytes.size then r = (.ok .done, { c with offset := target.toNat })
    else (seek target).Refuses s c r
  | u8 => u8.MeetsWord s c r 1
  | u16 => u16.MeetsWord s c r 2
  | u32 => u32.MeetsWord s c r 4
  | cstring =>
    (∀ stop, s.FirstZero c.offset stop →
      r = (.ok (.bytes (s.bytes.extract c.offset stop).toList), { c with offset := stop + 1 })) ∧
    ((∀ j, c.offset ≤ j → s.bytes[j]? ≠ some 0) → cstring.Refuses s c r)
  | setOrder little => r = (.ok .done, { c with order := .ofBool little })
  | close => ∃ holding, r = (.ok .done, { c with holding })

variable {s : Source} {c c' : Cursor} {cmd : Command}

theorem meets_of_word {r : Except SourceFault Answer × Cursor} {n : Nat} (hcmd : cmd.width? = some n)
    (h : cmd.MeetsWord s c r n) : cmd.Meets s c r := by
  cases cmd <;> cases hcmd <;> exact h

theorem Steps.refuses {fault : SourceFault} (hin : c.offset ≤ s.bytes.size) (hopen : c.IsOpen)
    (h : Steps s c cmd (.error fault) c') : cmd.Refuses s c (.error fault, c') := by
  obtain ⟨rfl, ⟨details, hreport⟩ | ⟨-, hgone⟩⟩ := h.unchanged hin
  · exact ⟨fault, details, rfl, hreport⟩
  · exact absurd hopen hgone

/-- **How a step ends** as long as the bytes are there. -/
theorem Steps.meets {r : Except SourceFault Answer} (hin : c.offset ≤ s.bytes.size)
    (hopen : c.IsOpen) (h : Steps s c cmd r c') : cmd.Meets s c (r, c') := by
  have hrefuses : ∀ {fault}, r = .error fault → cmd.Refuses s c (r, c') := by
    rintro fault rfl
    exact h.refuses hin hopen
  cases h with
  | moved h0 hle => exact (if_pos ⟨h0, hle⟩).mpr rfl
  | outside hout => exact (if_neg (by omega)).mpr (hrefuses rfl)
  | read hcmd _ hle => exact meets_of_word hcmd ((if_pos hle).mpr rfl)
  | past hcmd hlt => exact meets_of_word hcmd ((if_neg (Nat.not_le.mpr hlt)).mpr (hrefuses rfl))
  | string _ hstop =>
    refine ⟨fun stop hstop' => ?_, fun hnone => absurd hstop.zero (hnone _ hstop.le)⟩
    cases (Read.nulFrom_eq_some_iff.mpr hstop).symm.trans (Read.nulFrom_eq_some_iff.mpr hstop')
    rfl
  | unterminated _ hnone =>
    exact ⟨fun stop hstop => absurd hstop.zero (hnone _ hstop.le), fun _ => hrefuses rfl⟩
  | gone _ hgone => exact absurd hopen hgone
  | ordered => rfl
  | kept => exact ⟨c.holding, rfl⟩
  | closed => exact ⟨.released, rfl⟩

end Command

/-- **Every step of every session**, over bytes in memory or mapped. Before and after it the cursor is
within the bytes and reads in the order that was set last. As long as mapped bytes have not been released
by closing the reader, the step ends as its command says. A step that fails leaves the whole cursor as it
was, and is reported with the bytes that it is about unless these have been released. -/
theorem session_step (b : Bytes) (mapped : Bool) (before : List Command) (cmd : Command) :
    let s : Source := { bytes := b }
    let c := (Cursor.start mapped).after s before
    let r := cmd.action.run s c
    c.offset ≤ b.size ∧ r.2.offset ≤ b.size ∧ c.order = .ofBool (Command.littleAfter before) ∧
    ((mapped = true → .close ∉ before) → cmd.Meets s c r) ∧
    ∀ fault, r.1 = .error fault → r.2 = c ∧
      ((∃ details, fault.report? = some ⟨.ioError, some (cmd.range s c), details⟩) ∨
        fault = .released ∧ fault.report? = none ∧ mapped = true ∧ .close ∈ before) := by
  intro s c r
  have htracks : c.Tracks s mapped before := (Cursor.tracks_start s mapped).after before
  have hsteps : cmd.Steps s c r.1 r.2 := Command.steps_run s c cmd
  refine ⟨htracks.inside, (htracks.step hsteps).inside, htracks.order, fun hclose => ?_,
    fun fault hfault => ?_⟩
  · exact hsteps.meets htracks.inside (htracks.isOpen_iff.mpr hclose)
  · rw [hfault] at hsteps
    obtain ⟨hsame, hreport⟩ := hsteps.unchanged htracks.inside
    refine ⟨hsame, hreport.imp_right fun h => ?_⟩
    obtain ⟨rfl, hgone⟩ := h
    rw [htracks.isOpen_iff, Classical.not_imp, not_not] at hgone
    exact ⟨rfl, rfl, hgone⟩

/-- Two bytes of a mapping in big endian order, and a string that is asked for when the mapping has been
released. -/
theorem session_step_mapped :
    Command.u16.Meets { bytes := #[1, 2, 0] } ⟨1, .big, .mapped⟩
      (.ok (.number 512), ⟨3, .big, .mapped⟩) ∧
    ∃ fault, Command.cstring.action.run { bytes := #[1, 2, 0] } ⟨1, .little, .released⟩ =
      (.error fault, ⟨1, .little, .released⟩) ∧ fault.report? = none := by
  have hread := (session_step #[1, 2, 0] true [.u8, .setOrder false] .u16).2.2.2.1 (by decide)
  have hgone := (session_step #[1, 2, 0] true [.u8, .close] .cstring).2.2.2.2 .released rfl
  exact ⟨hread, .released, Prod.ext rfl hgone.1, rfl⟩

end Btf
