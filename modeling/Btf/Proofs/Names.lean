import Btf.Decode.Name
import Btf.Proofs.Outcome

/-!
# What a name is

A name is the text of the bytes that stand at an address up to the next zero byte. Which text it is
depends on the blob and not on the cursor.

* `Source.HasString`: bytes and then a zero byte stand at an offset;
* `Read.nulFrom_of_hasString`, `Read.hasString_of_nulFrom`: the search for the zero byte finds them;
* `Source.FirstZero`, `Read.nulFrom_eq_some_iff`, `Read.nulFrom_eq_none_iff`: the same by the places of
  single bytes;
* `Names.text`: the text of a name, or why there is none;
* **`Names.text_ok_iff`**, **`Names.outcome_get?_ok_iff`**: which bytes a name is decoded from.
-/

namespace Btf

namespace Source

theorem slice_succ {s : Source} {i : Nat} (h : i < s.bytes.size) (n : Nat) :
    s.slice i (n + 1) = s.bytes[i] :: s.slice (i + 1) n := by
  have hlist : i < s.bytes.toList.length := by rwa [Array.length_toList]
  rw [slice_eq, slice_eq, List.drop_eq_getElem_cons hlist, List.take_succ_cons, Array.getElem_toList]

theorem slice_of_size_le {s : Source} {i : Nat} (h : s.bytes.size ≤ i) (n : Nat) :
    s.slice i n = [] := by
  rw [slice_eq, List.drop_eq_nil_of_le (by rwa [Array.length_toList]), List.take_nil]

/-- The bytes `bs`, none of which is zero, stand at offset `i`, and then a zero byte. -/
def HasString (s : Source) (i : Nat) (bs : List UInt8) : Prop :=
  s.slice i (bs.length + 1) = bs ++ [0] ∧ 0 ∉ bs

end Source

namespace Read

theorem nulFrom_of_lt {bytes : Bytes} {i : Nat} (h : i < bytes.size) :
    nulFrom bytes i = if bytes[i] = 0 then some i else nulFrom bytes (i + 1) := by
  rw [nulFrom, dif_pos h]

theorem nulFrom_of_size_le {bytes : Bytes} {i : Nat} (h : bytes.size ≤ i) :
    nulFrom bytes i = none := by
  rw [nulFrom, dif_neg (Nat.not_lt.mpr h)]

theorem nulFrom_of_hasString {s : Source} {i : Nat} {bs : List UInt8} (h : s.HasString i bs) :
    nulFrom s.bytes i = some (i + bs.length) := by
  obtain ⟨hslice, hzero⟩ := h
  induction bs generalizing i with
  | nil =>
    by_cases hi : i < s.bytes.size
    · rw [List.length_nil, Source.slice_succ hi] at hslice
      rw [nulFrom_of_lt hi, if_pos (List.head_eq_of_cons_eq hslice)]
      rfl
    · rw [Source.slice_of_size_le (Nat.le_of_not_lt hi)] at hslice
      cases hslice
  | cons b bs ih =>
    by_cases hi : i < s.bytes.size
    · rw [List.length_cons, Source.slice_succ hi, List.cons_append] at hslice
      have hb : s.bytes[i] = b := List.head_eq_of_cons_eq hslice
      have hne : s.bytes[i] ≠ 0 := fun h0 => hzero (by rw [← h0, hb]; exact List.mem_cons_self)
      rw [nulFrom_of_lt hi, if_neg hne, ih (List.tail_eq_of_cons_eq hslice)
        fun h0 => hzero (List.mem_cons_of_mem b h0), List.length_cons]
      congr 1
      omega
    · rw [Source.slice_of_size_le (Nat.le_of_not_lt hi)] at hslice
      cases hslice

theorem hasString_of_nulFrom {s : Source} {i stop : Nat} (h : nulFrom s.bytes i = some stop) :
    i ≤ stop ∧ s.HasString i (s.slice i (stop - i)) := by
  induction hn : s.bytes.size - i generalizing i with
  | zero =>
    rw [nulFrom_of_size_le (by omega)] at h
    cases h
  | succ n ih =>
    have hi : i < s.bytes.size := by omega
    rw [nulFrom_of_lt hi] at h
    by_cases hb : s.bytes[i] = 0
    · rw [if_pos hb] at h
      cases h
      refine ⟨Nat.le_refl _, ?_, ?_⟩
      · rw [Nat.sub_self, Source.slice_zero, List.length_nil, Source.slice_succ hi, hb,
          Source.slice_zero, List.nil_append]
      · rw [Nat.sub_self, Source.slice_zero]
        exact List.not_mem_nil
    · rw [if_neg hb] at h
      obtain ⟨hle, hslice, hzero⟩ := ih h (by omega)
      have hhead : s.slice i (stop - i) = s.bytes[i] :: s.slice (i + 1) (stop - (i + 1)) := by
        rw [← Source.slice_succ hi]
        congr 1
        omega
      refine ⟨by omega, ?_, ?_⟩
      · rw [hhead, List.length_cons, Source.slice_succ hi, hslice, List.cons_append]
      · rw [hhead]
        intro h0
        rcases List.mem_cons.mp h0 with h0 | h0
        · exact hb h0.symm
        · exact hzero h0

/-- A zero byte ends some string at every offset before it. -/
theorem exists_hasString {s : Source} {i stop : Nat} (hle : i ≤ stop) (hlt : stop < s.bytes.size)
    (hzero : s.bytes[stop] = 0) : ∃ bs, s.HasString i bs := by
  have hsome : ∃ e, nulFrom s.bytes i = some e := by
    -- induction on the distance to a zero byte, before which the search may stop earlier
    induction hn : stop - i generalizing i with
    | zero =>
      have hi : i = stop := by omega
      subst hi
      exact ⟨i, by rw [nulFrom_of_lt hlt, if_pos hzero]⟩
    | succ n ih =>
      have hi : i < s.bytes.size := by omega
      rw [nulFrom_of_lt hi]
      by_cases hb : s.bytes[i] = 0
      · exact ⟨i, if_pos hb⟩
      · rw [if_neg hb]
        exact ih (by omega) (by omega)
  obtain ⟨e, he⟩ := hsome
  exact ⟨_, (hasString_of_nulFrom he).2⟩

end Read

/-- At most one string stands at an offset. -/
theorem Source.HasString.unique {s : Source} {i : Nat} {bs bs' : List UInt8}
    (h : s.HasString i bs) (h' : s.HasString i bs') : bs = bs' := by
  have hlen : bs.length = bs'.length := by
    have hstop := Option.some.inj
      ((Read.nulFrom_of_hasString h).symm.trans (Read.nulFrom_of_hasString h'))
    omega
  have hslice := h.1
  rw [hlen, h'.1] at hslice
  exact (List.append_cancel_right hslice).symm

theorem Source.getElem?_slice {s : Source} {i n k : Nat} (h : k < n) :
    (s.slice i n)[k]? = s.bytes[i + k]? := by
  rw [slice_eq, List.getElem?_take_of_lt h, List.getElem?_drop, Array.getElem?_toList]

/-- The first zero byte from offset `i` on is at `stop`. -/
structure Source.FirstZero (s : Source) (i stop : Nat) : Prop where
  le : i ≤ stop
  zero : s.bytes[stop]? = some 0
  first : ∀ j, i ≤ j → j < stop → s.bytes[j]? ≠ some 0

namespace Source.HasString

variable {s : Source} {i : Nat} {bs : List UInt8}

/-- The bytes before a zero byte and the zero byte, by their places. -/
theorem getElem? (h : s.HasString i bs) {k : Nat} (hk : k ≤ bs.length) :
    s.bytes[i + k]? = (bs ++ [0])[k]? := by
  rw [← getElem?_slice (Nat.lt_succ_of_le hk), h.1]

/-- **A string ends at the first zero byte** from its place on. -/
theorem firstZero (h : s.HasString i bs) : s.FirstZero i (i + bs.length) := by
  refine ⟨Nat.le_add_right _ _, ?_, fun j hij hj h0 => ?_⟩
  · rw [h.getElem? (Nat.le_refl _), List.getElem?_concat_length]
  · obtain ⟨k, rfl⟩ := Nat.exists_eq_add_of_le hij
    have hk : k < bs.length := by omega
    rw [h.getElem? (Nat.le_of_lt hk), List.getElem?_append_left hk] at h0
    exact h.2 (List.mem_of_getElem? h0)

/-- The bytes of a string are those up to its end. -/
theorem extract_eq (h : s.HasString i bs) : (s.bytes.extract i (i + bs.length)).toList = bs := by
  have hwithin := slice_within (s := s) (i := i) (k := 0) (Nat.le_succ (0 + bs.length))
  rw [Nat.zero_add, Nat.add_zero, List.drop_zero] at hwithin
  rw [← slice, hwithin, h.1, List.take_left]

end Source.HasString

namespace Read

variable {s : Source} {i stop : Nat}

/-- The search for a zero byte finds the first one. -/
theorem nulFrom_eq_some_iff : nulFrom s.bytes i = some stop ↔ s.FirstZero i stop := by
  have hfirst : ∀ {stop}, nulFrom s.bytes i = some stop → s.FirstZero i stop := by
    intro stop h
    obtain ⟨hle, hbs⟩ := hasString_of_nulFrom h
    have hstop := Option.some.inj ((nulFrom_of_hasString hbs).symm.trans h)
    exact hstop ▸ hbs.firstZero
  refine ⟨hfirst, fun h => ?_⟩
  obtain ⟨hlt, hzero⟩ := Array.getElem?_eq_some_iff.mp h.zero
  obtain ⟨bs, hbs⟩ := exists_hasString h.le hlt hzero
  have hfound := nulFrom_of_hasString hbs
  obtain ⟨-, hzero', hfirst'⟩ := hfirst hfound
  -- neither of two first zero bytes is before the other
  rcases Nat.lt_trichotomy (i + bs.length) stop with hlt | heq | hgt
  · exact absurd hzero' (h.first _ (Nat.le_add_right _ _) hlt)
  · rw [hfound, heq]
  · exact absurd h.zero (hfirst' _ h.le hgt)

/-- The search for a zero byte finds none where there is none. -/
theorem nulFrom_eq_none_iff :
    nulFrom s.bytes i = none ↔ ∀ j, i ≤ j → s.bytes[j]? ≠ some 0 := by
  constructor
  · intro h j hij h0
    obtain ⟨hlt, hzero⟩ := Array.getElem?_eq_some_iff.mp h0
    obtain ⟨bs, hbs⟩ := exists_hasString hij hlt hzero
    rw [nulFrom_of_hasString hbs] at h
    cases h
  · intro h
    cases hstop : nulFrom s.bytes i with
    | none => rfl
    | some stop =>
      have hfirst := nulFrom_eq_some_iff.mp hstop
      exact absurd hfirst.zero (h stop hfirst.le)

end Read

/-- What stands from an offset on is told by the bytes from there on. -/
theorem Source.slice_congr {s s' : Source} {i : Nat}
    (h : s'.bytes.toList.drop i = s.bytes.toList.drop i) (n : Nat) : s'.slice i n = s.slice i n := by
  rw [slice_eq, slice_eq, h]

namespace Read

/-- The search for a zero byte goes by the bytes from its start on. -/
theorem nulFrom_congr {s s' : Source} {i : Nat}
    (h : s'.bytes.toList.drop i = s.bytes.toList.drop i) :
    nulFrom s'.bytes i = nulFrom s.bytes i := by
  have hfound : ∀ {s s' : Source} {stop : Nat},
      s'.bytes.toList.drop i = s.bytes.toList.drop i → nulFrom s.bytes i = some stop →
        nulFrom s'.bytes i = some stop := by
    intro s s' stop h hstop
    obtain ⟨-, hbs⟩ := hasString_of_nulFrom hstop
    have hbs' : s'.HasString i (s.slice i (stop - i)) :=
      ⟨(Source.slice_congr h _).trans hbs.1, hbs.2⟩
    rw [nulFrom_of_hasString hbs', ← nulFrom_of_hasString hbs, hstop]
  cases hstop : nulFrom s.bytes i with
  | some stop => exact hfound h hstop
  | none =>
    cases hstop' : nulFrom s'.bytes i with
    | none => rfl
    | some stop =>
      rw [hfound h.symm hstop'] at hstop
      cases hstop

theorem outcome_bytesAt {s : Source} {c : Cursor} (hc : c.IsOpen) (address : Int) :
    (bytesAt address).outcome s c =
      if address < 0 ∨ (s.bytes.size : Int) < address then .error (.outside address s.bytes.size)
      else match nulFrom s.bytes address.toNat with
        | none => .error (.unterminated address.toNat (s.bytes.size - address.toNat))
        | some stop => .ok (s.bytes.extract address.toNat stop).toList := by
  have hrel : ¬ c.holding = .released := hc
  simp only [bytesAt, restoring, outcome, run_ofRun, run_bind, seek]
  by_cases hout : address < 0 ∨ (s.bytes.size : Int) < address
  · simp only [hout, ↓reduceIte]
  · simp only [hout, ↓reduceIte, cstring, run_ofRun, hrel]
    cases nulFrom s.bytes address.toNat <;> rfl

/-- **The bytes at an address** are those of the string that stands there. -/
theorem outcome_bytesAt_ok_iff {s : Source} {c : Cursor} (hc : c.IsOpen) {address : Int}
    {bs : List UInt8} : (bytesAt address).outcome s c = .ok bs ↔
      ∃ i : Nat, address = i ∧ s.HasString i bs := by
  rw [outcome_bytesAt hc]
  by_cases hout : address < 0 ∨ (s.bytes.size : Int) < address
  · rw [if_pos hout]
    refine ⟨fun h => (by cases h), ?_⟩
    rintro ⟨i, hi, hstr⟩
    have hslice := hstr.1
    rw [Source.slice_of_size_le (by omega)] at hslice
    exact absurd hslice.symm (by simp)
  · obtain ⟨i, rfl⟩ := Int.eq_ofNat_of_zero_le (show 0 ≤ address by omega)
    rw [if_neg hout, Int.toNat_natCast]
    cases hnul : nulFrom s.bytes i with
    | none =>
      refine ⟨fun h => (by cases h), ?_⟩
      rintro ⟨j, hj, hstr⟩
      cases Int.ofNat.inj hj
      rw [nulFrom_of_hasString hstr] at hnul
      cases hnul
    | some stop =>
      obtain ⟨hle, hstr⟩ := hasString_of_nulFrom hnul
      have hslice : (s.bytes.extract i stop).toList = s.slice i (stop - i) := by
        rw [Source.slice, Nat.add_sub_cancel' hle]
      dsimp only
      rw [hslice]
      constructor
      · intro h
        cases h
        exact ⟨i, rfl, hstr⟩
      · rintro ⟨j, hj, hstr'⟩
        cases Int.ofNat.inj hj
        rw [hstr.unique hstr']

/-- The text that the bytes of a string at an address are decoded to. -/
def decoded (address : Int) (options : TextOptions) (bs : List UInt8) : Except Fault Text :=
  match Text.decode options.encoding options.errors bs with
  | .ok t => .ok t
  | .error (.undecodable run) => .error (.undecodable address bs.length run)
  | .error (.codec fault) => .error (.codec fault)

theorem decoded_ok_iff {address : Int} {options : TextOptions} {bs : List UInt8} {t : Text} :
    decoded address options bs = .ok t ↔
      Text.decode options.encoding options.errors bs = .ok t := by
  unfold decoded
  split <;> simp_all

theorem outcome_stringAt {s : Source} {c : Cursor} (address : Int) (options : TextOptions) :
    (stringAt address options).outcome s c =
      ((bytesAt address).outcome s c).mapError .source >>= decoded address options := by
  rw [stringAt, outcome_bind ((consumes_bytesAt address).mapError _), outcome_mapError]
  congr 1
  funext bs
  unfold decoded
  cases Text.decode options.encoding options.errors bs with
  | ok t => rfl
  | error fault => cases fault <;> rfl

end Read

namespace Names

variable {names : Names} {s : Source} {c : Cursor} {offset : Nat}

/-- The text of a name, or why there is none. -/
def text (names : Names) (s : Source) (offset : Nat) : Except Fault Text :=
  (names.get offset).outcome s {}

/-- **The cursor does not matter for a name.** -/
theorem outcome_get (hc : c.IsOpen) : (names.get offset).outcome s c = names.text s offset := by
  rw [text, get, Read.outcome_stringAt, Read.outcome_stringAt, Read.outcome_bytesAt hc,
    Read.outcome_bytesAt Cursor.isOpen_start]

theorem text_of_hasString {i : Nat} {bs : List UInt8} (hi : names.header.stringAddress offset = i)
    (hbs : s.HasString i bs) : names.text s offset = Read.decoded i names.options bs := by
  rw [text, get, Read.outcome_stringAt, hi,
    (Read.outcome_bytesAt_ok_iff Cursor.isOpen_start).mpr ⟨i, rfl, hbs⟩]
  rfl

/-- **A name is decoded from the bytes at its address up to the next zero byte.** -/
theorem text_ok_iff {t : Text} : names.text s offset = .ok t ↔
    ∃ (i : Nat) (bs : List UInt8), names.header.stringAddress offset = i ∧ s.HasString i bs ∧
      Text.decode names.options.encoding names.options.errors bs = .ok t := by
  rw [text, get, Read.outcome_stringAt, bind_eq_ok]
  constructor
  · rintro ⟨bs, hbs, ht⟩
    obtain ⟨i, hi, hstr⟩ := (Read.outcome_bytesAt_ok_iff Cursor.isOpen_start).mp (mapError_eq_ok.mp hbs)
    exact ⟨i, bs, hi, hstr, Read.decoded_ok_iff.mp ht⟩
  · rintro ⟨i, bs, hi, hstr, ht⟩
    exact ⟨bs, mapError_eq_ok.mpr ((Read.outcome_bytesAt_ok_iff Cursor.isOpen_start).mpr ⟨i, hi, hstr⟩),
      Read.decoded_ok_iff.mpr ht⟩

/-- An offset stands for a name: offset zero for none, and any other for the text of the bytes at its
address up to the next zero byte. -/
def Denotes (names : Names) (s : Source) (offset : Nat) : Option Text → Prop
  | none => offset = 0
  | some t => offset ≠ 0 ∧ ∃ (i : Nat) (bs : List UInt8),
      names.header.stringAddress offset = i ∧ s.HasString i bs ∧
        Text.decode names.options.encoding names.options.errors bs = .ok t

theorem denotes_some_iff {t : Text} :
    names.Denotes s offset (some t) ↔ offset ≠ 0 ∧ names.text s offset = .ok t := by
  rw [Denotes, text_ok_iff]

/-- Whether an offset stands for a name is told by the text there. -/
theorem denotes_congr {s' : Source} (h : names.text s' offset = names.text s offset)
    {name : Option Text} : names.Denotes s' offset name ↔ names.Denotes s offset name := by
  cases name with
  | none => exact Iff.rfl
  | some t => rw [denotes_some_iff, denotes_some_iff, h]

theorem outcome_get? (hc : c.IsOpen) : (names.get? offset).outcome s c =
    if offset = 0 then .ok none else names.text s offset >>= fun t => .ok (some t) := by
  unfold get?
  split
  · rfl
  · rw [Read.outcome_bind (names.consumes_get offset), outcome_get hc]
    rfl

/-- **An optional name is read as what its offset stands for.** -/
theorem outcome_get?_ok_iff (hc : c.IsOpen) {name : Option Text} :
    (names.get? offset).outcome s c = .ok name ↔ names.Denotes s offset name := by
  rw [outcome_get? hc]
  by_cases h0 : offset = 0
  · rw [if_pos h0]
    cases name with
    | none => exact ⟨fun _ => h0, fun _ => rfl⟩
    | some t => exact ⟨fun h => (by cases h), fun h => absurd h0 h.1⟩
  · rw [if_neg h0, bind_eq_ok]
    cases name with
    | none =>
      refine ⟨?_, fun h => absurd h h0⟩
      rintro ⟨_, -, h⟩
      cases h
    | some t =>
      rw [denotes_some_iff]
      constructor
      · rintro ⟨_, ht, h⟩
        cases h
        exact ⟨h0, ht⟩
      · exact fun h => ⟨t, h.2, rfl⟩

end Names

end Btf
