import Btf.Source

/-!
# Words and their bytes

The bytes of a number in either byte order, and the words that stand in a blob from an offset on.

* `ByteOrder.bytes`: the bytes of a number;
* `ByteOrder.value_bytes`, `ByteOrder.bytes_value`: writing and reading a number are inverse;
* `Source.slice`, `Source.word`, `Source.words`: bytes, a word and successive words of a blob;
* **`Source.slice_words`**, **`Source.words_of_slice`**: words are the bytes that they are written
  with, and no others.
-/

namespace Btf

namespace ByteOrder

/-- The last `width` bytes of a number, the least significant one first. -/
def littleBytes : (width n : Nat) → List UInt8
  | 0, _ => []
  | width + 1, n => n.toUInt8 :: littleBytes width (n / 256)

/-- The last `width` bytes of a number. -/
def bytes : ByteOrder → (width n : Nat) → List UInt8
  | little, width, n => littleBytes width n
  | big, width, n => (littleBytes width n).reverse

theorem length_littleBytes (width n : Nat) : (littleBytes width n).length = width := by
  induction width generalizing n with
  | zero => rfl
  | succ width ih => rw [littleBytes, List.length_cons, ih]

theorem length_bytes (order : ByteOrder) (width n : Nat) : (order.bytes width n).length = width := by
  cases order with
  | little => exact length_littleBytes width n
  | big => rw [bytes, List.length_reverse, length_littleBytes]

theorem length_flatMap_bytes (order : ByteOrder) (width : Nat) (ns : List Nat) :
    (ns.flatMap (order.bytes width)).length = width * ns.length := by
  rw [List.length_flatMap, List.map_congr_left fun n _ => order.length_bytes width n,
    List.map_const', List.sum_replicate_nat, Nat.mul_comm]

theorem value_little_cons (b : UInt8) (bs : List UInt8) :
    value little (b :: bs) = b.toNat + 256 * value little bs := rfl

theorem value_big (bs : List UInt8) : value big bs = value little bs.reverse := by
  rw [value, value, List.foldr_reverse]
  congr 1
  funext n b
  exact Nat.add_comm _ _

theorem value_littleBytes {width n : Nat} (h : n < Nat.pow 256 width) :
    value little (littleBytes width n) = n := by
  induction width generalizing n with
  | zero =>
    have : n = 0 := Nat.lt_one_iff.mp h
    rw [this]; rfl
  | succ width ih =>
    have hlt : n / 256 < Nat.pow 256 width := Nat.div_lt_of_lt_mul (by rw [Nat.mul_comm]; exact h)
    rw [littleBytes, value_little_cons, ih hlt]
    change n % 256 + 256 * (n / 256) = n
    exact Nat.mod_add_div n 256

/-- **A number that fits is read back from its bytes.** -/
theorem value_bytes (order : ByteOrder) {width n : Nat} (h : n < Nat.pow 256 width) :
    order.value (order.bytes width n) = n := by
  cases order with
  | little => exact value_littleBytes h
  | big => rw [value_big, bytes, List.reverse_reverse, value_littleBytes h]

theorem value_little_lt (bs : List UInt8) : value little bs < Nat.pow 256 bs.length := by
  induction bs with
  | nil => exact Nat.one_pos
  | cons b bs ih =>
    have hb : b.toNat < 256 := b.toNat_lt
    rw [value_little_cons]
    change _ < Nat.pow 256 bs.length * 256
    omega

theorem value_lt (order : ByteOrder) (bs : List UInt8) :
    order.value bs < Nat.pow 256 bs.length := by
  cases order with
  | little => exact value_little_lt bs
  | big => rw [value_big, ← List.length_reverse]; exact value_little_lt bs.reverse

theorem littleBytes_value (bs : List UInt8) : littleBytes bs.length (value little bs) = bs := by
  induction bs with
  | nil => rfl
  | cons b bs ih =>
    have hb : b.toNat < 256 := b.toNat_lt
    have hdiv : (b.toNat + 256 * value little bs) / 256 = value little bs := by omega
    rw [List.length_cons, littleBytes, value_little_cons, hdiv, ih]
    congr 1
    apply UInt8.toNat_inj.mp
    change (b.toNat + 256 * value little bs) % 256 = b.toNat
    omega

/-- **The number that bytes stand for has these bytes.** -/
theorem bytes_value (order : ByteOrder) (bs : List UInt8) :
    order.bytes bs.length (order.value bs) = bs := by
  cases order with
  | little => exact littleBytes_value bs
  | big =>
    rw [value_big, bytes, ← List.length_reverse, littleBytes_value, List.reverse_reverse]

end ByteOrder

namespace Source

/-- The `n` bytes from offset `i` on. -/
def slice (s : Source) (i n : Nat) : List UInt8 := (s.bytes.extract i (i + n)).toList

theorem slice_eq (s : Source) (i n : Nat) : s.slice i n = (s.bytes.toList.drop i).take n := by
  rw [slice, Array.toList_extract, List.extract_eq_take_drop, Nat.add_sub_cancel_left]

theorem length_slice {s : Source} {i n : Nat} (h : i + n ≤ s.bytes.size) :
    (s.slice i n).length = n := by
  rw [slice_eq, List.length_take, List.length_drop, Array.length_toList]
  omega

theorem length_slice_le (s : Source) (i n : Nat) : (s.slice i n).length ≤ n := by
  rw [slice_eq]; exact List.length_take_le _ _

theorem slice_zero (s : Source) (i : Nat) : s.slice i 0 = [] := by
  rw [slice_eq, List.take_zero]

theorem slice_add (s : Source) (i m n : Nat) :
    s.slice i (m + n) = s.slice i m ++ s.slice (i + m) n := by
  rw [slice_eq, slice_eq, slice_eq, List.take_add, List.drop_drop]

/-- Bytes within others. -/
theorem slice_within {s : Source} {i k m n : Nat} (h : k + m ≤ n) :
    s.slice (i + k) m = ((s.slice i n).drop k).take m := by
  rw [slice_eq, slice_eq, List.drop_take, List.take_take, List.drop_drop, Nat.min_eq_left (by omega)]

/-- The word of four bytes at offset `i`. -/
def word (s : Source) (order : ByteOrder) (i : Nat) : Nat := order.value (s.slice i 4)

/-- The `n` words from offset `i` on. -/
def words (s : Source) (order : ByteOrder) : (i n : Nat) → List Nat
  | _, 0 => []
  | i, n + 1 => s.word order i :: s.words order (i + 4) n

theorem word_lt (s : Source) (order : ByteOrder) (i : Nat) : s.word order i < 0x100000000 := by
  have hle : Nat.pow 256 (s.slice i 4).length ≤ Nat.pow 256 4 :=
    Nat.pow_le_pow_right (by decide) (s.length_slice_le i 4)
  exact Nat.lt_of_lt_of_le (order.value_lt _) hle

theorem length_words (s : Source) (order : ByteOrder) (i n : Nat) :
    (s.words order i n).length = n := by
  induction n generalizing i with
  | zero => rfl
  | succ n ih => rw [words, List.length_cons, ih]

theorem words_lt {s : Source} {order : ByteOrder} {i n : Nat} :
    ∀ w ∈ s.words order i n, w < 0x100000000 := by
  induction n generalizing i with
  | zero => intro w hw; cases hw
  | succ n ih =>
    intro w hw
    rcases List.mem_cons.mp hw with rfl | hw
    · exact s.word_lt order i
    · exact ih w hw

theorem getElem?_words (s : Source) (order : ByteOrder) {i n j : Nat} (hj : j < n) :
    (s.words order i n)[j]? = some (s.word order (i + 4 * j)) := by
  induction n generalizing i j with
  | zero => exact absurd hj (Nat.not_lt_zero j)
  | succ n ih =>
    cases j with
    | zero => rfl
    | succ j =>
      rw [words, List.getElem?_cons_succ, ih (Nat.lt_of_succ_lt_succ hj)]
      congr 2
      omega

theorem words_add (s : Source) (order : ByteOrder) (i m n : Nat) :
    s.words order i (m + n) = s.words order i m ++ s.words order (i + 4 * m) n := by
  induction m generalizing i with
  | zero => rw [Nat.zero_add]; rfl
  | succ m ih =>
    rw [Nat.succ_add, words, words, ih, List.cons_append]
    congr 3
    omega

/-- **Successive words are written with the bytes that stand there.** -/
theorem slice_words {s : Source} {i n : Nat} (order : ByteOrder) (h : i + 4 * n ≤ s.bytes.size) :
    s.slice i (4 * n) = (s.words order i n).flatMap (order.bytes 4) := by
  induction n generalizing i with
  | zero => exact s.slice_zero i
  | succ n ih =>
    have hword : order.bytes 4 (s.word order i) = s.slice i 4 := by
      have := order.bytes_value (s.slice i 4)
      rwa [length_slice (by omega)] at this
    rw [Nat.mul_succ, Nat.add_comm, slice_add, ih (by omega), words, List.flatMap_cons, hword]

/-- **Words that are written with the bytes of a place stand there.** -/
theorem words_of_slice {s : Source} {order : ByteOrder} {i : Nat} {ws : List Nat}
    (hws : ∀ w ∈ ws, w < 0x100000000)
    (h : s.slice i (4 * ws.length) = ws.flatMap (order.bytes 4)) :
    s.words order i ws.length = ws := by
  induction ws generalizing i with
  | nil => rfl
  | cons w ws ih =>
    have hw : w < Nat.pow 256 4 := hws w List.mem_cons_self
    rw [List.length_cons, Nat.mul_succ, Nat.add_comm, slice_add, List.flatMap_cons] at h
    have hlen : (s.slice i 4).length = 4 := by
      have := congrArg List.length h
      have hbytes := order.length_bytes 4 w
      have hle := s.length_slice_le i 4
      have hle' := s.length_slice_le (i + 4) (4 * ws.length)
      have hrest := order.length_flatMap_bytes 4 ws
      rw [List.length_append, List.length_append, hbytes, hrest] at this
      omega
    obtain ⟨h₁, h₂⟩ := List.append_inj h (by rw [hlen, order.length_bytes])
    rw [List.length_cons, words, ih (fun v hv => hws v (List.mem_cons_of_mem w hv)) h₂, word, h₁,
      order.value_bytes hw]

end Source

end Btf
