import Btf.Proofs.Session

/-!
# Reading a string and coming back

A string is read by moving to it, and the way back is taken whether it could be read or not. From a
cursor within the bytes, as that of every session is, the way back is always open. What is read does not
depend on where the cursor came from.

* `Read.ensuring`, `Read.stringThere`: an action with another one at its end, and the string at an
  address with the way back written out;
* `Read.cursor_stringAt`, **`Read.run_stringThere`**: the cursor is left as it was, and the way back
  never fails;
* `Source.Resolves`, **`Read.resolves_stringAt`**: all that can become of a string;
* `Read.outcome_stringAt_congr`: where the cursor came from does not matter;
* `FailsWith`, `Source.Reported`, **`Source.Resolves.reported`**: what is reported;
* **`stringAt_frame`**: reading a string is a function of the bytes.
-/

namespace Btf

namespace Read

/-- An action after which another one is done, also when it fails. If that one fails too, its fault
counts. -/
def ensuring {ε α : Type} (m : Read ε α) (last : Read ε Unit) : Read ε α := ofRun fun s c =>
  let (r, c₁) := m.run s c
  match last.run s c₁ with
  | (.ok _, c₂) => (r, c₂)
  | (.error e, c₂) => (.error e, c₂)

/-- The text of the string at an address: the cursor moves there, and from wherever it stops to where it
was. -/
def stringThere (address : Int) (options : TextOptions) : Read Fault Text := do
  let here ← offset
  let bytes ← (ensuring (do seek address; cstring) (seek here)).mapError .source
  ofRun fun _ c => (decoded address options bytes, c)

variable {address : Int} {options : TextOptions} {s s' : Source} {c c' : Cursor}

/-- The way back is open from wherever an action leaves the cursor. -/
theorem run_ensuring_seek {α : Type} (m : Read SourceFault α) (hin : c.offset ≤ s.bytes.size) :
    (m.ensuring (seek c.offset)).run s c = (restoring m).run s c := by
  have hseek : ∀ c₁, (seek c.offset).run s c₁ = (.ok (), { c₁ with offset := c.offset }) := by
    intro c₁
    rw [seek, run_ofRun, if_neg (by omega), Int.toNat_natCast]
  rw [ensuring, restoring, run_ofRun, run_ofRun]
  rcases m.run s c with ⟨r, c₁⟩
  dsimp only
  rw [hseek]

/-- **The cursor is left as it was**, whatever the string is. -/
theorem cursor_stringAt (address : Int) (options : TextOptions) (s : Source) (c : Cursor) :
    ((stringAt address options).run s c).2 = c := by
  have hconsumes := consumes_stringAt address options
  rcases hrun : (stringAt address options).run s c with ⟨fault | t, c'⟩
  · obtain ⟨k, hk, rfl⟩ := hconsumes.error hrun
    cases Nat.le_zero.mp hk
    rfl
  · exact hconsumes.ok hrun

/-- **The way back never fails.** -/
theorem run_stringThere (hin : c.offset ≤ s.bytes.size) :
    (stringThere address options).run s c = (stringAt address options).run s c := by
  have hthere : ((ensuring (do seek address; cstring) (seek c.offset)).mapError Fault.source).run s c =
      ((bytesAt address).mapError .source).run s c := by
    rw [mapError, mapError, run_ofRun, run_ofRun, run_ensuring_seek _ hin, bytesAt]
  rw [stringThere, stringAt, run_bind, offset, run_ofRun]
  dsimp only
  rw [run_bind, run_bind, hthere]
  rcases ((bytesAt address).mapError Fault.source).run s c with ⟨fault | bs, c₁⟩
  · rfl
  · dsimp only
    unfold decoded
    rcases Text.decode options.encoding options.errors bs with (run | fault) | t <;> rfl

end Read

/-! ## All that can become of a string -/

/-- How the string at an address is resolved. -/
inductive Source.Resolves (s : Source) (address : Int) (options : TextOptions) :
    Except Fault Text → Prop
  | outside (h : address < 0 ∨ s.bytes.size < address) :
      Resolves s address options (.error (.source (.outside address s.bytes.size)))
  | unterminated {i : Nat} (hi : address = i) (hin : i ≤ s.bytes.size)
      (h : ∀ j, i ≤ j → s.bytes[j]? ≠ some 0) :
      Resolves s address options (.error (.source (.unterminated i (s.bytes.size - i))))
  | terminated {i stop : Nat} (hi : address = i) (h : s.FirstZero i stop) :
      Resolves s address options
        (Read.decoded address options (s.bytes.extract i stop).toList)

namespace Read

variable {address : Int} {options : TextOptions} {s s' : Source} {c c' : Cursor}

/-- **All that can become of a string** as long as the bytes are there. -/
theorem resolves_stringAt (hc : c.IsOpen) (s : Source) (address : Int) (options : TextOptions) :
    s.Resolves address options ((stringAt address options).outcome s c) := by
  rw [outcome_stringAt, outcome_bytesAt hc]
  by_cases hout : address < 0 ∨ (s.bytes.size : Int) < address
  · rw [if_pos hout]
    exact .outside hout
  · obtain ⟨i, rfl⟩ := Int.eq_ofNat_of_zero_le (show 0 ≤ address by omega)
    rw [if_neg hout, Int.toNat_natCast]
    cases hnul : nulFrom s.bytes i with
    | none => exact .unterminated rfl (by omega) (nulFrom_eq_none_iff.mp hnul)
    | some stop => exact .terminated rfl (nulFrom_eq_some_iff.mp hnul)

theorem outcome_bytesAt_released (hc : ¬ c.IsOpen) (address : Int) :
    (bytesAt address).outcome s c =
      if address < 0 ∨ (s.bytes.size : Int) < address then .error (.outside address s.bytes.size)
      else .error .released := by
  have hgone : c.holding = .released := not_not.mp hc
  simp only [bytesAt, restoring, outcome, run_ofRun, run_bind, seek]
  by_cases hout : address < 0 ∨ (s.bytes.size : Int) < address
  · simp only [hout, ↓reduceIte]
  · simp only [hout, ↓reduceIte, cstring, run_ofRun, hgone]

/-- **The cursor does not matter** for a string, nor does the byte order. -/
theorem outcome_stringAt_congr (hbytes : s'.bytes = s.bytes) (hopen : c'.IsOpen ↔ c.IsOpen) :
    (stringAt address options).outcome s' c' = (stringAt address options).outcome s c := by
  rw [outcome_stringAt, outcome_stringAt]
  by_cases hc : c.IsOpen
  · rw [outcome_bytesAt hc, outcome_bytesAt (hopen.mpr hc), hbytes]
  · rw [outcome_bytesAt_released hc, outcome_bytesAt_released (mt hopen.mp hc), hbytes]

end Read

/-! ## Reports -/

/-- An outcome is a failure with a report. -/
def FailsWith {α : Type} (x : Except Fault α) (r : Report ErrorCode) : Prop :=
  ∃ fault, x = .error fault ∧ fault.report? = some r

/-- How a string is resolved, in reports. Just beyond the end of the bytes two of them have the same
range, so that the words are needed to tell them apart. -/
structure Source.Reported (s : Source) (address : Int) (options : TextOptions)
    (x : Except Fault Text) : Prop where
  outside : (∃ details, FailsWith x ⟨.ioError, some ⟨address, 0⟩, details⟩) ↔
    address < 0 ∨ s.bytes.size < address
  unterminated : FailsWith x
      ⟨.ioError, some ⟨address, s.bytes.size - address + 1⟩, some "unterminated string"⟩ ↔
    0 ≤ address ∧ address ≤ s.bytes.size ∧ ∀ j : Nat, address ≤ j → s.bytes[j]? ≠ some 0
  inside : 0 ≤ address → address ≤ s.bytes.size →
    ((∃ details, FailsWith x ⟨.ioError, some ⟨address, s.bytes.size - address + 1⟩, details⟩) ↔
      ∀ j : Nat, address ≤ j → s.bytes[j]? ≠ some 0)
  decoded : ∀ {i stop : Nat}, address = i → s.FirstZero i stop →
    match Text.decode options.encoding options.errors (s.bytes.extract i stop).toList with
    | .ok t => x = .ok t
    | .error (.undecodable run) => FailsWith x ⟨.unknown, some ⟨address, (stop - i : Nat) + 1⟩,
        some ("Could not decode string: " ++ run.message)⟩
    | .error (.codec fault) => x = .error (.codec fault)

namespace Source.Resolves

variable {s : Source} {address : Int} {options : TextOptions} {x : Except Fault Text}

/-- Decoding the bytes of a string is never reported as a failure to read them. -/
theorem not_failsWith_decoded (address : Int) (options : TextOptions) (bs : List UInt8)
    (range : Option ByteRange) (details : Option Text) :
    ¬ FailsWith (Read.decoded address options bs) ⟨.ioError, range, details⟩ := by
  rintro ⟨fault, hfault, hreport⟩
  unfold Read.decoded at hfault
  split at hfault <;> cases hfault <;> cases hreport

theorem outside_iff (h : s.Resolves address options x) :
    (∃ details, FailsWith x ⟨.ioError, some ⟨address, 0⟩, details⟩) ↔
      address < 0 ∨ s.bytes.size < address := by
  cases h with
  | outside h => exact ⟨fun _ => h, fun _ => ⟨_, _, rfl, rfl⟩⟩
  | @unterminated i hi hin hnone =>
    refine ⟨?_, fun hout => (by omega)⟩
    rintro ⟨details, fault, hfault, hreport⟩
    cases hfault
    -- the zero byte that is missing is one of the bytes that are reported
    cases hreport
  | @terminated i stop hi hstop =>
    refine ⟨?_, fun hout => ?_⟩
    · rintro ⟨details, h⟩
      exact absurd h (not_failsWith_decoded _ _ _ _ _)
    · obtain ⟨hlt, -⟩ := Array.getElem?_eq_some_iff.mp hstop.zero
      have hle := hstop.le
      omega

/-- What is reported as a failure to read the bytes from an address among them has no end. -/
theorem no_zero (h : s.Resolves address options x) (hin : ¬ (address < 0 ∨ s.bytes.size < address))
    {range : Option ByteRange} {details : Option Text} (hx : FailsWith x ⟨.ioError, range, details⟩)
    (j : Nat) (hj : address ≤ j) : s.bytes[j]? ≠ some 0 := by
  cases h with
  | outside hout => exact absurd hout hin
  | unterminated hi _ hnone => exact hnone j (by omega)
  | terminated => exact absurd hx (not_failsWith_decoded _ _ _ _ _)

theorem unterminated_iff (h : s.Resolves address options x) :
    FailsWith x ⟨.ioError, some ⟨address, s.bytes.size - address + 1⟩, some "unterminated string"⟩ ↔
      0 ≤ address ∧ address ≤ s.bytes.size ∧ ∀ j : Nat, address ≤ j → s.bytes[j]? ≠ some 0 := by
  constructor
  · intro hx
    have hin : ¬ (address < 0 ∨ s.bytes.size < address) := by
      intro hout
      cases h with
      | outside =>
        obtain ⟨fault, hfault, hreport⟩ := hx
        cases hfault
        have hletter := congrArg (fun r => r.details.bind List.head?) (Option.some.inj hreport)
        cases hletter
      | unterminated => omega
      | terminated => exact not_failsWith_decoded _ _ _ _ _ hx
    exact ⟨by omega, by omega, h.no_zero hin hx⟩
  · rintro ⟨h0, hle, hnone⟩
    cases h with
    | outside => omega
    | @unterminated i hi hin =>
      subst hi
      refine ⟨_, rfl, ?_⟩
      rw [Fault.report?, SourceFault.report?, Int.ofNat_sub hin]
      rfl
    | @terminated i stop hi hstop =>
      have hij := hstop.le
      exact absurd hstop.zero (hnone stop (by omega))

/-- A string that ends is decoded. -/
theorem eq_decoded (h : s.Resolves address options x) {i stop : Nat} (hi : address = i)
    (hstop : s.FirstZero i stop) :
    x = Read.decoded address options (s.bytes.extract i stop).toList := by
  obtain ⟨hlt, -⟩ := Array.getElem?_eq_some_iff.mp hstop.zero
  have hij := hstop.le
  cases h with
  | outside => omega
  | unterminated hi' _ hnone => exact absurd hstop.zero (hnone stop (by omega))
  | @terminated i' stop' hi' hstop' =>
    obtain rfl : i' = i := by omega
    have hsame := (Read.nulFrom_eq_some_iff.mpr hstop').symm.trans (Read.nulFrom_eq_some_iff.mpr hstop)
    cases hsame
    rfl

/-- **A resolved string** is reported as such. -/
theorem reported (h : s.Resolves address options x) : s.Reported address options x where
  outside := h.outside_iff
  unterminated := h.unterminated_iff
  inside h0 hle :=
    ⟨fun ⟨_, hx⟩ => h.no_zero (by omega) hx, fun hnone => ⟨_, h.unterminated_iff.mpr ⟨h0, hle, hnone⟩⟩⟩
  decoded := by
    intro i stop hi hstop
    obtain ⟨hlt, -⟩ := Array.getElem?_eq_some_iff.mp hstop.zero
    have hlength : (s.bytes.extract i stop).toList.length = stop - i := by
      rw [Array.length_toList, Array.size_extract]
      omega
    rw [h.eq_decoded hi hstop, Read.decoded]
    rcases Text.decode options.encoding options.errors _ with (run | fault) | t
    · refine ⟨_, rfl, ?_⟩
      rw [Fault.report?, hlength]
    · rfl
    · rfl

end Source.Resolves

/-- **Reading a string is a function of the bytes.** It leaves the cursor and the byte order as they
were, whatever becomes of it, and the way back from it never fails. Any two cursors read the same from
the same bytes as long as both still have them, and what is read is the string at the address or
reported as what stands there instead. -/
theorem stringAt_frame (s : Source) (address : Int) (options : TextOptions) :
    (∀ c, ((Read.stringAt address options).run s c).2 = c) ∧
    (∀ c, c.offset ≤ s.bytes.size → (Read.stringThere address options).run s c =
      (Read.stringAt address options).run s c) ∧
    (∀ s' c c', s'.bytes = s.bytes → (c'.IsOpen ↔ c.IsOpen) →
      (Read.stringAt address options).outcome s' c' =
        (Read.stringAt address options).outcome s c) ∧
    ∀ c, c.IsOpen →
      s.Reported address options ((Read.stringAt address options).outcome s c) := by
  refine ⟨Read.cursor_stringAt address options s, fun c hin => Read.run_stringThere hin,
    fun s' c c' hbytes hopen => Read.outcome_stringAt_congr hbytes hopen, fun c hc => ?_⟩
  exact (Read.resolves_stringAt hc s address options).reported

/-- Bytes with one string and the beginning of another one. -/
def straySource : Source := { bytes := #[97, 0, 129] }

/-- The cursor of a reader that has mapped these bytes, at their end and in big endian order. -/
def strayCursor : Cursor := (Cursor.start true).after straySource [.seek 3, .setOrder false]

/-- A string, one without an end, and one just beyond the end of the bytes. -/
theorem stringAt_frame_stray :
    (Read.stringThere 0 {}).run straySource strayCursor =
      (Read.stringAt 0 {}).run straySource strayCursor ∧
    (Read.stringAt 0 {}).outcome straySource strayCursor =
      (Read.stringAt 0 {}).outcome straySource {} ∧
    (Read.stringAt 0 {}).outcome straySource strayCursor = .ok "a" ∧
    FailsWith ((Read.stringAt 2 {}).outcome straySource strayCursor)
      ⟨.ioError, some ⟨2, 2⟩, some "unterminated string"⟩ ∧
    ∃ details, FailsWith ((Read.stringAt 4 {}).outcome straySource strayCursor)
      ⟨.ioError, some ⟨4, 0⟩, details⟩ := by
  have htracks := (Cursor.tracks_start straySource true).after [.seek 3, .setOrder false]
  have hopen : strayCursor.IsOpen := htracks.isOpen_iff.mpr (by decide)
  have hfirst : straySource.FirstZero 0 1 := Read.nulFrom_eq_some_iff.mp (by decide +kernel)
  have hnone : ∀ j : Nat, (2 : Int) ≤ j → straySource.bytes[j]? ≠ some 0 := fun j hj =>
    Read.nulFrom_eq_none_iff.mp (by decide +kernel) j (Int.ofNat_le.mp hj)
  have htext : Text.decode "utf-8" "replace" (straySource.bytes.extract 0 1).toList = .ok "a" :=
    toOption_eq_some_iff.mp (by decide +kernel)
  have hframe := stringAt_frame straySource
  have hdecoded := ((hframe 0 {}).2.2.2 strayCursor hopen).decoded rfl hfirst
  refine ⟨(hframe 0 {}).2.1 strayCursor htracks.inside,
    (hframe 0 {}).2.2.1 straySource {} strayCursor rfl (iff_of_true hopen Cursor.isOpen_start),
    ?_, ?_, ?_⟩
  · rwa [htext] at hdecoded
  · exact ((hframe 2 {}).2.2.2 strayCursor hopen).unterminated.mpr ⟨by decide, by decide, hnone⟩
  · exact ((hframe 4 {}).2.2.2 strayCursor hopen).outside.mpr (.inr (by decide))

end Btf
