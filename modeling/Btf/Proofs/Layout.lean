import Btf.Decode.Layout
import Btf.Proofs.Outcome

/-!
# The layout that is read

The byte order of a blob is the one in which its first word is the magic number, and its header is
what its first bytes say in that order.

* `Source.header`: what the first bytes of a blob say in a byte order;
* `Read.detectOrder_run_iff`: the byte order that is found;
* **`Read.layout_run_iff`**: when there is a layout, which one, and where the cursor is then.
-/

namespace Btf

/-- What the first bytes of a blob say as a header in a byte order. -/
def Source.header (s : Source) (order : ByteOrder) : Header where
  magic := order.value (s.slice 0 2)
  version := order.value (s.slice 2 1)
  flags := order.value (s.slice 3 1)
  headerSize := s.word order 4
  typeOffset := s.word order 8
  typeSize := s.word order 12
  stringOffset := s.word order 16
  stringSize := s.word order 20

namespace Read

variable {s : Source} {c c' : Cursor} {order : ByteOrder}

theorem consumes_headerFields : Consumes 24 headerFields :=
  (consumes_word 2).bind fun _ => (consumes_word 1).bind fun _ => (consumes_word 1).bind fun _ =>
    (consumes_word 4).bind fun _ => (consumes_word 4).bind fun _ => (consumes_word 4).bind fun _ =>
      (consumes_word 4).bind fun _ => (consumes_word 4).bind fun _ => .pure _

theorem outcome_headerFields_ok_iff (hc : c.IsOpen) (h0 : c.offset = 0) {h : Header} :
    headerFields.outcome s c = .ok h ↔ 24 ≤ s.bytes.size ∧ h = s.header c.order := by
  have hskip := fun n => hc.skip n
  unfold headerFields u8 u16 u32
  simp only [outcome_bind_ok_iff (consumes_word _), outcome_word_ok_iff hc, Cursor.skip_skip,
    outcome_word_ok_iff (hskip _), outcome_pure, Cursor.skip_offset, Cursor.skip_order, h0]
  constructor
  · rintro ⟨_, ⟨-, rfl⟩, _, ⟨-, rfl⟩, _, ⟨-, rfl⟩, _, ⟨-, rfl⟩, _, ⟨-, rfl⟩, _, ⟨-, rfl⟩,
      _, ⟨-, rfl⟩, _, ⟨hle, rfl⟩, h⟩
    exact ⟨hle, (Except.ok.inj h).symm⟩
  · rintro ⟨hle, rfl⟩
    exact ⟨_, ⟨by omega, rfl⟩, _, ⟨by omega, rfl⟩, _, ⟨by omega, rfl⟩, _, ⟨by omega, rfl⟩,
      _, ⟨by omega, rfl⟩, _, ⟨by omega, rfl⟩, _, ⟨by omega, rfl⟩, _, ⟨by omega, rfl⟩, rfl⟩

/-- Two bytes in the wrong order are the magic number swapped. -/
theorem value_big_eq_magic_iff {bs : List UInt8} (hbs : bs.length = 2) :
    ByteOrder.big.value bs = Header.magicNumber ↔
      ByteOrder.little.value bs = Header.magicSwapped := by
  match bs, hbs with
  | [a, b], _ =>
    have ha : a.toNat < 256 := a.toNat_lt
    have hb : b.toNat < 256 := b.toNat_lt
    change 256 * (256 * 0 + a.toNat) + b.toNat = 0xEB9F ↔ a.toNat + 256 * (b.toNat + 256 * 0) = 0x9FEB
    omega

theorem run_seek {target : Int} (h0 : 0 ≤ target) (h : target ≤ s.bytes.size) :
    (seek target).run s c = (.ok (), { c with offset := target.toNat }) := by
  rw [seek, run_ofRun, if_neg (by omega)]

theorem run_mapError {ε ε' α : Type} (f : ε → ε') (m : Read ε α) :
    (m.mapError f).run s c = ((m.run s c).1.mapError f, (m.run s c).2) := by
  rw [Read.mapError, run_ofRun]
  rcases m.run s c with ⟨_ | _, _⟩ <;> rfl

/-- The byte order is found from the first word, as a word in little endian order. -/
theorem detectOrder_run (c : Cursor) : detectOrder.run s c =
    match (word 2).run s { c with offset := 0, order := .little } with
    | (.ok magic, c) =>
      if magic = Header.magicNumber then (.ok .little, { c with order := .little })
      else if magic = Header.magicSwapped then (.ok .big, { c with order := .big })
      else (.error (.magic magic), c)
    | (.error e, c) => (.error (.source e), c) := by
  rw [detectOrder, run_bind, run_mapError, run_seek (Int.le_refl 0) (Int.natCast_nonneg _)]
  change ((u16.mapError Fault.source) >>= _).run s { c with offset := 0, order := .little } = _
  rw [run_bind, run_mapError, u16]
  rcases (word 2).run s { c with offset := 0, order := .little } with ⟨e | magic, c₁⟩
  · rfl
  · dsimp only [Except.mapError]
    by_cases hmagic : magic = Header.magicNumber
    · rw [if_pos hmagic, if_pos hmagic]; rfl
    · rw [if_neg hmagic, if_neg hmagic]
      by_cases hswapped : magic = Header.magicSwapped
      · rw [if_pos hswapped, if_pos hswapped]; rfl
      · rw [if_neg hswapped, if_neg hswapped]; rfl

/-- **The byte order that is found** is the one in which the first word is the magic number. -/
theorem detectOrder_run_iff (hc : c.IsOpen) : detectOrder.run s c = (.ok order, c') ↔
    2 ≤ s.bytes.size ∧ order.value (s.slice 0 2) = Header.magicNumber ∧
      c' = { c with offset := 2, order } := by
  have hopen : Cursor.IsOpen { c with offset := 0, order := .little } := hc
  rw [detectOrder_run]
  by_cases hsize : 2 ≤ s.bytes.size
  · have hword : (word 2).outcome s { c with offset := 0, order := .little } =
        .ok (ByteOrder.little.value (s.slice 0 2)) :=
      outcome_word hopen (by rw [Nat.zero_add]; exact hsize)
    have hbig := value_big_eq_magic_iff (Source.length_slice (by rw [Nat.zero_add]; exact hsize))
    rw [(consumes_word 2).run_eq hword]
    dsimp only
    change (if ByteOrder.little.value (s.slice 0 2) = _ then _ else _) = _ ↔ _
    by_cases hmagic : ByteOrder.little.value (s.slice 0 2) = Header.magicNumber
    · have hnot : ByteOrder.big.value (s.slice 0 2) ≠ Header.magicNumber := by
        rw [Ne, hbig, hmagic]; decide
      rw [if_pos hmagic]
      constructor
      · rintro ⟨⟩
        exact ⟨hsize, hmagic, rfl⟩
      · rintro ⟨-, h, rfl⟩
        cases order with
        | little => rfl
        | big => exact absurd h hnot
    · rw [if_neg hmagic]
      by_cases hswapped : ByteOrder.little.value (s.slice 0 2) = Header.magicSwapped
      · rw [if_pos hswapped]
        constructor
        · rintro ⟨⟩
          exact ⟨hsize, hbig.mpr hswapped, rfl⟩
        · rintro ⟨-, h, rfl⟩
          cases order with
          | little => exact absurd h hmagic
          | big => rfl
      · rw [if_neg hswapped]
        refine ⟨fun h => (by cases h), ?_⟩
        rintro ⟨-, h, -⟩
        cases order with
        | little => exact absurd h hmagic
        | big => exact absurd (hbig.mp h) hswapped
  · rw [word, run_ofRun, if_pos (by rw [Nat.zero_add]; exact Nat.lt_of_not_le hsize)]
    exact ⟨fun h => (by cases h), fun h => absurd h.1 hsize⟩

/-- At most one byte order is that of a blob. -/
theorem order_unique {order' : ByteOrder} (hsize : 2 ≤ s.bytes.size)
    (h : (s.header order).magic = Header.magicNumber)
    (h' : (s.header order').magic = Header.magicNumber) : order = order' := by
  have hrun : ∀ {order : ByteOrder}, (s.header order).magic = Header.magicNumber →
      detectOrder.run s {} = (.ok order, { offset := 2, order }) := fun h =>
    (detectOrder_run_iff Cursor.isOpen_start).mpr ⟨hsize, Int.ofNat.inj h, rfl⟩
  cases (hrun h).symm.trans (hrun h')
  rfl

theorem header_run_iff (hc : c.IsOpen) {h : Header} : header.run s c = (.ok h, c') ↔
    24 ≤ s.bytes.size ∧ h = s.header c.order ∧ c' = { c with offset := 24 } := by
  have hfields := outcome_headerFields_ok_iff (s := s) (c := { c with offset := 0 }) hc rfl (h := h)
  have hseek : (seek 0 >>= fun _ => headerFields).run s c =
      headerFields.run s { c with offset := 0 } := by
    rw [run_bind, run_seek (Int.le_refl 0) (Int.natCast_nonneg _)]
    rfl
  rw [header, run_mapError, hseek]
  constructor
  · intro hrun
    obtain ⟨h₁, h₂⟩ := Prod.mk.inj hrun
    have hok := mapError_eq_ok.mp h₁
    rw [consumes_headerFields.run_eq hok] at h₂
    obtain ⟨hsize, rfl⟩ := hfields.mp hok
    exact ⟨hsize, rfl, by rw [← h₂]; rfl⟩
  · rintro ⟨hsize, rfl, rfl⟩
    rw [consumes_headerFields.run_eq (hfields.mpr ⟨hsize, rfl⟩)]
    rfl

/-- **There is a layout** if the blob holds a header whose first field is the magic number in some
byte order. -/
theorem layout_run_iff (hc : c.IsOpen) {l : Layout} : layout.run s c = (.ok l, c') ↔
    24 ≤ s.bytes.size ∧ l.header = s.header l.order ∧ l.header.magic = Header.magicNumber ∧
      c' = { c with offset := 24, order := l.order } := by
  rw [layout, run_bind]
  constructor
  · intro h
    split at h
    · next order c₁ h₁ =>
      obtain ⟨-, hmagic, rfl⟩ := (detectOrder_run_iff hc).mp h₁
      rw [run_bind] at h
      split at h
      · next hd c₂ h₂ =>
        have hopen : Cursor.IsOpen { c with offset := 2, order } := hc
        obtain ⟨hsize, rfl, rfl⟩ := (header_run_iff hopen).mp h₂
        cases h
        exact ⟨hsize, rfl, congrArg Int.ofNat hmagic, rfl⟩
      · cases h
    · cases h
  · rintro ⟨hsize, hheader, hmagic, rfl⟩
    obtain ⟨order, hd⟩ := l
    replace hheader : hd = s.header order := hheader
    subst hheader
    have hdetect : detectOrder.run s c = (.ok order, { c with offset := 2, order }) :=
      (detectOrder_run_iff hc).mpr ⟨by omega, Int.ofNat.inj hmagic, rfl⟩
    have hread := (header_run_iff (s := s) (c := { c with offset := 2, order }) hc).mpr
      ⟨hsize, rfl, rfl⟩
    rw [hdetect]
    dsimp only
    rw [run_bind, hread]
    rfl

end Read

end Btf
