import Btf.Fault
import Btf.Source.Consumption

/-!
# Names

Names are strings of the string section, ended by a zero byte. Reading one does not move the cursor
of the entry that refers to it.

* `TextOptions`: the codec and the error handler of names, by name;
* `Read.stringAt`: the string at an address;
* `Names`, `Names.get`, `Names.get?`: the names of a blob by their offset in the string section;
* **`Read.consumes_stringAt`**: reading a name consumes nothing.
-/

namespace Btf

/-- The codec and the error handler of names, by name. -/
structure TextOptions where
  encoding : Text := "utf-8"
  errors : Text := "replace"
  deriving DecidableEq, Repr

namespace Read

/-- The bytes of the string at `address`; the cursor stays where it is. -/
def bytesAt (address : Int) : Read SourceFault (List UInt8) := restoring do
  seek address
  cstring

/-- The text of the string at `address`. -/
def stringAt (address : Int) (options : TextOptions) : Read Fault Text := do
  let bytes ← (bytesAt address).mapError .source
  match Text.decode options.encoding options.errors bytes with
  | .ok t => return t
  | .error (.undecodable run) => throw (.undecodable address bytes.length run)
  | .error (.codec fault) => throw (.codec fault)

theorem consumes_bytesAt (address : Int) : Consumes 0 (bytesAt address) := by
  have key : ∀ s c, ((bytesAt address).run s c).2 = c := by
    intro s c
    simp only [bytesAt, restoring, run_ofRun, run_bind, seek]
    by_cases hout : address < 0 ∨ (s.bytes.size : Int) < address
    · simp only [hout, ↓reduceIte]
    · simp only [hout, ↓reduceIte, cstring, run_ofRun]
      by_cases hrel : c.holding = .released
      · simp only [hrel, ↓reduceIte]; rw [← hrel]
      · simp only [hrel, ↓reduceIte]
        cases nulFrom s.bytes address.toNat <;> rfl
  constructor
  · intro s c a c' h
    rw [← key s c, h]; rfl
  · intro s c e c' h
    exact ⟨0, Nat.le_refl 0, by rw [← key s c, h]; rfl⟩
  · intro s c a c' hc h
    have hc' : c' = c := by rw [← key s c, h]
    rw [hc']; exact hc

/-- **Reading a name consumes nothing.** -/
theorem consumes_stringAt (address : Int) (options : TextOptions) :
    Consumes 0 (stringAt address options) := by
  refine ((consumes_bytesAt address).mapError _).skip fun bytes => ?_
  split
  · exact .pure _
  · exact .throw 0 _
  · exact .throw 0 _

end Read

/-- Where the names of a blob are and how they are decoded. -/
structure Names where
  header : Header
  options : TextOptions := {}
  deriving DecidableEq, Repr

namespace Names

/-- The name at an offset in the string section. -/
def get (names : Names) (offset : Nat) : Read Fault Text :=
  .stringAt (names.header.stringAddress offset) names.options

/-- The name at an offset in the string section, none at offset zero. -/
def get? (names : Names) (offset : Nat) : Read Fault (Option Text) :=
  if offset = 0 then return none else return some (← names.get offset)

theorem consumes_get (names : Names) (offset : Nat) : Read.Consumes 0 (names.get offset) :=
  Read.consumes_stringAt _ _

theorem consumes_get? (names : Names) (offset : Nat) : Read.Consumes 0 (names.get? offset) :=
  .ite _ (fun _ => .pure _) fun _ => (names.consumes_get offset).skip fun _ => .pure _

end Names

end Btf
