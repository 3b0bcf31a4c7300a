import Btf.Report
import Btf.Text.Quoted

/-!
# Byte sources

A blob is read through a cursor that has an offset and a byte order. Reading is a function of the
blob and the cursor; the blob never changes, and the cursor is known also after a failure.

* `Source`, `Cursor`: what is read and where;
* `SourceFault`: why a read fails, with its `report?` and `message`;
* `Read`: an action on a cursor; `Read.seek`, `Read.u8`, `Read.u16`, `Read.u32`, `Read.cstring`;
* `Read.restoring`: an action that leaves the offset where it was;
* `Read.times`: an action repeated;
* **`Read.run_bind`**: the second of two actions starts where the first one ends.
-/

namespace Btf

abbrev Bytes := Array UInt8

/-- The order of the bytes of a word. -/
inductive ByteOrder
  | little
  | big
  deriving DecidableEq, Repr

namespace ByteOrder

/-- The number written with the given bytes. -/
def value : ByteOrder → List UInt8 → Nat
  | little, bs => bs.foldr (fun b n => b.toNat + 256 * n) 0
  | big, bs => bs.foldl (fun n b => 256 * n + b.toNat) 0

def name : ByteOrder → String
  | little => "little"
  | big => "big"

/-- The byte order that is little endian if `b`. -/
def ofBool (b : Bool) : ByteOrder := if b then little else big

end ByteOrder

/-- A blob and the path of the file it comes from, if any. -/
structure Source where
  bytes : Bytes
  path : Option Text := none
  deriving DecidableEq, Repr

/-- How the bytes of a blob are held: a mapping of a file can be released, after which its bytes
are gone. -/
inductive Holding
  | memory
  | mapped
  | released
  deriving DecidableEq, Repr

/-- Where and how the next bytes are read. -/
structure Cursor where
  offset : Nat := 0
  order : ByteOrder := .little
  holding : Holding := .memory
  deriving DecidableEq, Repr

/-- Why a byte source fails. -/
inductive SourceFault
  | outside (offset : Int) (size : Nat)
  | pastEnd (offset width : Nat)
  | unterminated (offset rest : Nat)
  | released
  | nulInPath
  | noSuchFile (path : Text)
  | isDirectory (path : Text)
  | notDirectory (path : Text)
  | nameTooLong (path : Text)
  | outOfMemory
  deriving DecidableEq, Repr

namespace SourceFault

/-- A failed system call in words. -/
def system (number : Nat) (what : String) (path : Text) : Text :=
  "[Errno " ++ Text.decimal number ++ "] " ++ (what : Text) ++ ": " ++ path.quoted

/-- The report of a failure; a released mapping and a path that is none are not reported. -/
def report? : SourceFault → Option (Report SourceCode)
  | outside offset size => some ⟨.ioError, some ⟨offset, 0⟩,
      some ("cannot seek beyond the end of data (" ++ Text.decimal size ++ " bytes)")⟩
  | pastEnd offset width =>
    some ⟨.ioError, some ⟨offset, width⟩, some "read past the end of data"⟩
  | unterminated offset rest =>
    some ⟨.ioError, some ⟨offset, (rest : Int) + 1⟩, some "unterminated string"⟩
  | released => none
  | nulInPath => none
  | noSuchFile path =>
    some ⟨.fileNotFound, none, some (system 2 "No such file or directory" path)⟩
  | isDirectory path => some ⟨.ioError, none, some (system 21 "Is a directory" path)⟩
  | notDirectory path => some ⟨.ioError, none, some (system 20 "Not a directory" path)⟩
  | nameTooLong path => some ⟨.ioError, none, some (system 36 "File name too long" path)⟩
  | outOfMemory => some ⟨.memoryAllocationFailure, none, some "no memory"⟩

def message (f : SourceFault) : Text :=
  match f, f.report? with
  | _, some r => r.text SourceCode.name
  | nulInPath, none => "embedded null byte"
  | _, none => "mmap closed or invalid"

/-- A failure in words, without its code and place. -/
def details (f : SourceFault) : Text := (f.report?.bind fun r => r.details).getD f.message

end SourceFault

/-- An action that reads from a blob at a cursor and may fail. -/
abbrev Read (ε α : Type) := ReaderT Source (ExceptT ε (StateM Cursor)) α

namespace Read

variable {ε ε' α β : Type}

/-- The outcome of an action and the cursor it leaves. -/
def run (m : Read ε α) (s : Source) (c : Cursor) : Except ε α × Cursor := m s c

/-- The action with the given outcomes. -/
def ofRun (f : Source → Cursor → Except ε α × Cursor) : Read ε α := fun s c => f s c

/-- An action whose failures are seen as `f` says. -/
def mapError (f : ε → ε') (m : Read ε α) : Read ε' α := ofRun fun s c =>
  match m.run s c with
  | (.ok a, c) => (.ok a, c)
  | (.error e, c) => (.error (f e), c)

/-- An action after which the offset is what it was before, also when it fails. -/
def restoring (m : Read ε α) : Read ε α := ofRun fun s c =>
  let (r, c') := m.run s c
  (r, { c' with offset := c.offset })

/-- Move to an offset; the end of the blob is still one. -/
def seek (target : Int) : Read SourceFault Unit := ofRun fun s c =>
  if target < 0 ∨ (s.bytes.size : Int) < target then (.error (.outside target s.bytes.size), c)
  else (.ok (), { c with offset := target.toNat })

/-- Read words in the given byte order from now on. -/
def setOrder (order : ByteOrder) : Read ε Unit := ofRun fun _ c => (.ok (), { c with order })

/-- Release a mapping. -/
def close : Read ε Unit := ofRun fun _ c =>
  (.ok (), { c with holding := match c.holding with
    | .memory => .memory
    | .mapped | .released => .released })

/-- The word of `width` bytes at the cursor, which moves past it. -/
def word (width : Nat) : Read SourceFault Nat := ofRun fun s c =>
  if s.bytes.size < c.offset + width then (.error (.pastEnd c.offset width), c)
  else if c.holding = .released then (.error .released, c)
  else (.ok (c.order.value (s.bytes.extract c.offset (c.offset + width)).toList),
    { c with offset := c.offset + width })

def u8 : Read SourceFault Nat := word 1

/-- A word of two bytes. -/
def u16 : Read SourceFault Nat := word 2

/-- A word of four bytes. -/
def u32 : Read SourceFault Nat := word 4

/-- The index of the first zero byte from index `i` on. -/
def nulFrom (bytes : Bytes) (i : Nat) : Option Nat :=
  if h : i < bytes.size then if bytes[i] = 0 then some i else nulFrom bytes (i + 1) else none
termination_by bytes.size - i

/-- The bytes up to the next zero byte; the cursor moves past that byte. -/
def cstring : Read SourceFault (List UInt8) := ofRun fun s c =>
  if c.holding = .released then (.error .released, c)
  else
    match nulFrom s.bytes c.offset with
    | none => (.error (.unterminated c.offset (s.bytes.size - c.offset)), c)
    | some i => (.ok (s.bytes.extract c.offset i).toList, { c with offset := i + 1 })

def offset : Read ε Nat := ofRun fun _ c => (.ok c.offset, c)

/-- Repeat an action `n` times; `done` holds the results so far, last first. -/
def timesFrom (m : Read ε α) : (n : Nat) → (done : List α) → Read ε (List α)
  | 0, done => pure done.reverse
  | n + 1, done => do
    let a ← m
    timesFrom m n (a :: done)

/-- Repeat an action `n` times. -/
def times (n : Nat) (m : Read ε α) : Read ε (List α) := timesFrom m n []

/-! ## Running -/

theorem run_pure (a : α) (s : Source) (c : Cursor) : (pure a : Read ε α).run s c = (.ok a, c) := rfl

theorem run_ofRun (f : Source → Cursor → Except ε α × Cursor) (s : Source) (c : Cursor) :
    (ofRun f).run s c = f s c := rfl

/-- **The second of two actions starts where the first one ends.** -/
theorem run_bind (m : Read ε α) (f : α → Read ε β) (s : Source) (c : Cursor) :
    (m >>= f).run s c = match m.run s c with
      | (.ok a, c') => (f a).run s c'
      | (.error e, c') => (.error e, c') := by
  show (match m s c with
      | (r, c') => (ExceptT.bindCont (fun a => f a s) r) c') = _
  unfold run
  rcases m s c with ⟨r | r, c'⟩ <;> rfl

end Read

end Btf
