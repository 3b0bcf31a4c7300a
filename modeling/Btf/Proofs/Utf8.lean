import Btf.Text.Decoding

/-!
# Text in UTF-8 and back

Writing a text without surrogates in UTF-8 and decoding the bytes gives the text, whatever the error
handler, and decoding with replacement never fails.

* `Utf8.step_encodePoint`: the first character of the bytes of a text, by the length of its form;
* **`Text.decode_encode`**: a text is decoded from its bytes;
* **`Text.decode_replace`**: with replacement every byte string is decoded;
* `Utf8.zero_notMem_encode`: only code point zero has a zero byte.
-/

namespace Btf

namespace Utf8

theorem toNat_toUInt8 {n : Nat} (h : n < 256) : n.toUInt8.toNat = n := Nat.mod_eq_of_lt h

/-- A byte within its bounds is taken into the code point. -/
theorem follow_toUInt8 {k low high bits seen n : Nat} {rest : List UInt8} (hn : n < 256)
    (hlow : low ≤ n) (hhigh : n ≤ high) : follow (k + 1) low high bits seen (n.toUInt8 :: rest) =
      follow k 0x80 0xBF (bits * 64 + n % 64) (seen + 1) rest := by
  rw [follow, toNat_toUInt8 hn, if_pos ⟨hlow, hhigh⟩]

theorem lead_ascii {b : Nat} (h : b < 0x80) : lead b = some ⟨0, 0, 0, b⟩ := by
  rw [lead, if_pos h]

theorem lead_two {n : Nat} (hlow : 0x80 ≤ n) (hhigh : n < 0x800) :
    lead (0xC0 + n / 64) = some ⟨1, 0x80, 0xBF, n / 64⟩ := by
  rw [lead, if_neg (by omega), if_neg (by omega), if_pos (by omega), Nat.add_sub_cancel_left]

/-- A form of three bytes is neither overlong nor that of a surrogate. -/
theorem lead_three {n : Nat} (hlow : 0x800 ≤ n) (hhigh : n < 0x10000)
    (hn : n < 0xD800 ∨ 0xE000 ≤ n) : ∃ low high, lead (0xE0 + n / 4096) =
      some ⟨2, low, high, n / 4096⟩ ∧ low ≤ 0x80 + n / 64 % 64 ∧ 0x80 + n / 64 % 64 ≤ high := by
  unfold lead
  rw [if_neg (by omega), if_neg (by omega), if_neg (by omega)]
  by_cases h0 : n / 4096 = 0
  · rw [h0, if_pos rfl]
    exact ⟨_, _, rfl, by omega, by omega⟩
  · rw [if_neg (by omega)]
    by_cases hD : n / 4096 = 0xD
    · rw [hD, if_pos rfl]
      exact ⟨_, _, rfl, by omega, by omega⟩
    · rw [if_neg (by omega), if_pos (by omega), Nat.add_sub_cancel_left]
      exact ⟨_, _, rfl, by omega, by omega⟩

/-- A form of four bytes is neither overlong nor beyond the last code point. -/
theorem lead_four {n : Nat} (hlow : 0x10000 ≤ n) (hhigh : n < 0x110000) :
    ∃ low high, lead (0xF0 + n / 262144) = some ⟨3, low, high, n / 262144⟩ ∧
      low ≤ 0x80 + n / 4096 % 64 ∧ 0x80 + n / 4096 % 64 ≤ high := by
  unfold lead
  rw [if_neg (by omega), if_neg (by omega), if_neg (by omega), if_neg (by omega), if_neg (by omega),
    if_neg (by omega)]
  by_cases h0 : n / 262144 = 0
  · rw [h0, if_pos rfl]
    exact ⟨_, _, rfl, by omega, by omega⟩
  · rw [if_neg (by omega)]
    by_cases h4 : n / 262144 = 4
    · rw [h4, if_neg (by decide), if_pos rfl]
      exact ⟨_, _, rfl, by omega, by omega⟩
    · rw [if_pos (by omega), Nat.add_sub_cancel_left]
      exact ⟨_, _, rfl, by omega, by omega⟩

theorem codePoint_val (c : CodePoint) : codePoint c.val = c :=
  Fin.ext (Nat.mod_eq_of_lt c.isLt)

theorem step_one {n : Nat} (h : n < 0x80) (rest : List UInt8) :
    step n.toUInt8 rest = .char (codePoint n) 0 := by
  rw [step, toNat_toUInt8 (by omega), lead_ascii h]
  dsimp only
  rw [follow]

theorem step_two {n : Nat} (hlow : 0x80 ≤ n) (hhigh : n < 0x800) (rest : List UInt8) :
    step (0xC0 + n / 64).toUInt8 ((0x80 + n % 64).toUInt8 :: rest) = .char (codePoint n) 1 := by
  have hbits : n / 64 * 64 + (0x80 + n % 64) % 64 = n := by omega
  rw [step, toNat_toUInt8 (by omega), lead_two hlow hhigh]
  dsimp only
  rw [follow_toUInt8 (by omega) (by omega) (by omega), hbits, follow]

theorem step_three {n : Nat} (hlow : 0x800 ≤ n) (hhigh : n < 0x10000)
    (hn : n < 0xD800 ∨ 0xE000 ≤ n) (rest : List UInt8) :
    step (0xE0 + n / 4096).toUInt8 ((0x80 + n / 64 % 64).toUInt8 :: (0x80 + n % 64).toUInt8 :: rest) =
      .char (codePoint n) 2 := by
  obtain ⟨low, high, hlead, hlow, hhigh⟩ := lead_three hlow hhigh hn
  have hbits : (n / 4096 * 64 + (0x80 + n / 64 % 64) % 64) * 64 + (0x80 + n % 64) % 64 = n := by
    omega
  rw [step, toNat_toUInt8 (by omega), hlead]
  dsimp only
  rw [follow_toUInt8 (by omega) hlow hhigh, follow_toUInt8 (by omega) (by omega) (by omega), hbits,
    follow]

theorem step_four {n : Nat} (hlow : 0x10000 ≤ n) (hhigh : n < 0x110000) (rest : List UInt8) :
    step (0xF0 + n / 262144).toUInt8 ((0x80 + n / 4096 % 64).toUInt8 ::
      (0x80 + n / 64 % 64).toUInt8 :: (0x80 + n % 64).toUInt8 :: rest) = .char (codePoint n) 3 := by
  obtain ⟨low, high, hlead, hlow, hhigh⟩ := lead_four hlow hhigh
  have hbits : ((n / 262144 * 64 + (0x80 + n / 4096 % 64) % 64) * 64 +
      (0x80 + n / 64 % 64) % 64) * 64 + (0x80 + n % 64) % 64 = n := by omega
  rw [step, toNat_toUInt8 (by omega), hlead]
  dsimp only
  rw [follow_toUInt8 (by omega) hlow hhigh, follow_toUInt8 (by omega) (by omega) (by omega),
    follow_toUInt8 (by omega) (by omega) (by omega), hbits, follow]

/-- **The first character of the bytes of a text** is its first code point. -/
theorem step_encodePoint {c : CodePoint} (hc : c.isSurrogate = false) (rest : List UInt8) :
    ∃ b bs, encodePoint c = b :: bs ∧ step b (bs ++ rest) = .char c bs.length := by
  have hlt := c.isLt
  have hscalar : c.val < 0xD800 ∨ 0xE000 ≤ c.val := by
    unfold CodePoint.isSurrogate at hc
    rw [Bool.and_eq_false_iff, decide_eq_false_iff_not, decide_eq_false_iff_not] at hc
    omega
  have hself := codePoint_val c
  unfold encodePoint
  dsimp only
  generalize c.val = n at hlt hscalar hself ⊢
  rw [← hself]
  by_cases h1 : n < 0x80
  · rw [if_pos h1]
    exact ⟨_, _, rfl, step_one h1 rest⟩
  rw [if_neg h1]
  by_cases h2 : n < 0x800
  · rw [if_pos h2]
    exact ⟨_, _, rfl, step_two (Nat.le_of_not_lt h1) h2 rest⟩
  rw [if_neg h2]
  by_cases h3 : n < 0x10000
  · rw [if_pos h3]
    exact ⟨_, _, rfl, step_three (Nat.le_of_not_lt h2) h3 hscalar rest⟩
  · rw [if_neg h3]
    exact ⟨_, _, rfl, step_four (Nat.le_of_not_lt h3) hlt rest⟩

theorem zero_notMem_encodePoint {c : CodePoint} (hc : c ≠ Text.nul) : 0 ∉ encodePoint c := by
  have hne : c.val ≠ 0 := fun h => hc (Fin.ext h)
  have hlt := c.isLt
  have key : ∀ {n : Nat}, 0 < n → n < 256 → (0 : UInt8) ≠ n.toUInt8 := by
    intro n hpos hn h
    have hzero := congrArg UInt8.toNat h
    rw [toNat_toUInt8 hn] at hzero
    exact absurd hzero (Nat.ne_of_lt hpos)
  unfold encodePoint
  dsimp only
  generalize c.val = n at hne hlt
  split
  · simp only [List.mem_cons, List.not_mem_nil, or_false]
    exact key (by omega) (by omega)
  split
  · simp only [List.mem_cons, List.not_mem_nil, or_false, not_or]
    exact ⟨key (by omega) (by omega), key (by omega) (by omega)⟩
  split
  · simp only [List.mem_cons, List.not_mem_nil, or_false, not_or]
    exact ⟨key (by omega) (by omega), key (by omega) (by omega), key (by omega) (by omega)⟩
  · simp only [List.mem_cons, List.not_mem_nil, or_false, not_or]
    exact ⟨key (by omega) (by omega), key (by omega) (by omega), key (by omega) (by omega),
      key (by omega) (by omega)⟩

theorem zero_notMem_encode {t : Text} (ht : Text.nul ∉ t) : 0 ∉ encode t := by
  rw [encode, List.mem_flatMap]
  rintro ⟨c, hc, h⟩
  exact zero_notMem_encodePoint (fun heq => ht (heq ▸ hc)) h

end Utf8

namespace Text

variable {encoding errors : Text}

/-- With names that are known, decoding is left to the codec. -/
theorem decode_of_find {codec : Codec} (hnames : (nameFault? encoding <|> nameFault? errors) = none)
    (hcodec : Codec.find? encoding = some codec) (htext : codec.isText = true) (bs : List UInt8) :
    decode encoding errors bs =
      if bs.isEmpty then .ok [] else decodeWith codec encoding errors bs := by
  rw [decode, hnames]
  dsimp only
  rw [hcodec]
  dsimp only
  rw [if_pos htext]

theorem decodeWith_of_ok {codec : Codec} {s : Scheme} {skip pos : Nat} {bs : List UInt8} {t : Text}
    (hplan : codec.plan bs = some (s, skip, pos))
    (h : decodeFrom s errors pos [] (bs.drop skip) = .ok t) :
    decodeWith codec encoding errors bs = .ok t := by
  rw [decodeWith, hplan]
  dsimp only
  rw [h]

/-- The text of its own bytes, by induction on its code points. -/
theorem decodeFrom_encode (handler : Text) (pos : Nat) (done : Text) {t : Text}
    (ht : ∀ c ∈ t, c.isSurrogate = false) :
    decodeFrom .utf8 handler pos done (Utf8.encode t) = .ok (done.reverse ++ t) := by
  induction t generalizing pos done with
  | nil => rw [Utf8.encode, List.flatMap_nil, decodeFrom, List.append_nil]
  | cons c t ih =>
    obtain ⟨b, bs, hbytes, hstep⟩ := Utf8.step_encodePoint (ht c List.mem_cons_self) (Utf8.encode t)
    have hencode : Utf8.encode (c :: t) = b :: (bs ++ Utf8.encode t) := by
      rw [Utf8.encode, List.flatMap_cons, hbytes]; rfl
    rw [hencode, decodeFrom, Scheme.step, hstep]
    dsimp only
    rw [List.drop_left, ih _ _ fun d hd => ht d (List.mem_cons_of_mem c hd), List.reverse_cons,
      List.append_assoc]
    rfl

/-- **A text is decoded from its bytes in UTF-8**, whatever the error handler. -/
theorem decode_encode {t : Text} (hnames : (nameFault? encoding <|> nameFault? errors) = none)
    (hcodec : Codec.find? encoding = some .utf8) (ht : ∀ c ∈ t, c.isSurrogate = false) :
    decode encoding errors (Utf8.encode t) = .ok t := by
  rw [decode_of_find hnames hcodec rfl]
  by_cases hempty : (Utf8.encode t).isEmpty
  · rw [if_pos hempty]
    cases t with
    | nil => rfl
    | cons c t =>
      obtain ⟨b, bs, hbytes, -⟩ := Utf8.step_encodePoint (ht c List.mem_cons_self) []
      rw [Utf8.encode, List.flatMap_cons, hbytes] at hempty
      cases hempty
  · rw [if_neg hempty]
    exact decodeWith_of_ok rfl (decodeFrom_encode _ _ _ ht)

theorem decodeFrom_replace (s : Scheme) (pos : Nat) (done : Text) (bs : List UInt8) :
    ∃ t, decodeFrom s "replace" pos done bs = .ok t := by
  have hfind : Handler.find? "replace" = some .replace := by decide
  fun_induction decodeFrom s "replace" pos done bs with
  | case1 => exact ⟨_, rfl⟩
  | case2 _ _ _ _ _ _ _ ih => exact ih
  | case3 _ _ _ _ _ _ _ hnone =>
    rw [hfind] at hnone
    cases hnone
  | case4 _ _ _ _ _ _ _ _ _ _ _ _ ih => exact ih
  | case5 _ _ _ _ _ _ _ _ hfind' hrefuse =>
    cases hfind.symm.trans hfind'
    cases hrefuse
  | case6 _ _ _ _ _ _ _ _ hfind' hunfit =>
    cases hfind.symm.trans hfind'
    cases hunfit

/-- **With replacement every byte string is decoded.** -/
theorem decode_replace (bs : List UInt8) : ∃ t, decode "utf-8" "replace" bs = .ok t := by
  have hnames : (nameFault? "utf-8" <|> nameFault? "replace") = none := by decide
  have hcodec : Codec.find? "utf-8" = some .utf8 := by decide
  rw [decode_of_find hnames hcodec rfl]
  by_cases hempty : bs.isEmpty
  · exact ⟨[], if_pos hempty⟩
  · obtain ⟨t, ht⟩ := decodeFrom_replace .utf8 0 [] bs
    rw [if_neg hempty]
    exact ⟨t, decodeWith_of_ok rfl ht⟩

end Text

end Btf
