/-!
# Text

Names in a type table are decoded with a codec and an error policy, and some policies stand for an
undecodable byte by a lone surrogate. A `String` holds no surrogate, so text is a list of code
points.

* `CodePoint`, `Text`, `Text.ofString`, `Text.toString?`;
* `decimal`, `hexDigits`: numbers written in text;
* `Text.joined`: a list of texts with a separator between them;
* **`Text.toString?_ofString`**: the text of a string gives the string back.
-/

namespace Btf

abbrev CodePoint := Fin 0x110000

/-- A sequence of code points. -/
abbrev Text := List CodePoint

/-- The code point of a number below `0x110000`, taken modulo that bound otherwise. -/
def codePoint (n : Nat) : CodePoint := Fin.ofNat 0x110000 n

def charPoint (c : Char) : CodePoint := codePoint c.toNat

namespace CodePoint

/-- Surrogates stand for no character. -/
def isSurrogate (c : CodePoint) : Bool := decide (0xD800 ≤ c.val) && decide (c.val < 0xE000)

/-- The character of a code point that is no surrogate. -/
def toChar? (c : CodePoint) : Option Char :=
  if h : c.val.isValidChar then some (Char.ofNatAux c.val h) else none

end CodePoint

namespace Text

def ofString (s : String) : Text := s.toList.map charPoint

instance : Coe String Text := ⟨ofString⟩

def toString? (t : Text) : Option String := (t.mapM CodePoint.toChar?).map String.ofList

/-- Texts written one after the other with `sep` between them. -/
def joined (sep : Text) : List Text → Text
  | [] => []
  | [t] => t
  | t :: ts => t ++ sep ++ joined sep ts

/-- Text `s` is smaller than `t` in the order of their code points. -/
def precedes : Text → Text → Bool
  | [], [] => false
  | [], _ :: _ => true
  | _ :: _, [] => false
  | a :: s, b :: t => decide (a < b) || (a == b && precedes s t)

/-- Code point zero. -/
def nul : CodePoint := codePoint 0

/-- Whether a text holds code point zero, which ends a name or a path. -/
def hasNul (t : Text) : Bool := t.contains nul

/-- The digits of `n` in base ten, with a sign when it is negative. -/
def decimal (n : Int) : Text := ofString (toString n)

/-- One hexadecimal digit, in lower case. -/
def hexDigit (n : Nat) : CodePoint := codePoint (if n < 10 then 48 + n else 87 + n)

/-- The last `width` hexadecimal digits of `n`. -/
def hexDigits : Nat → Nat → Text
  | 0, _ => []
  | width + 1, n => hexDigits width (n / 16) ++ [hexDigit (n % 16)]

theorem toChar?_charPoint (c : Char) : (charPoint c).toChar? = some c := by
  have hlt : c.toNat < 0x110000 := by
    rcases c.valid with h | h
    · exact Nat.lt_trans h (by decide)
    · exact h.2
  have hval : (charPoint c).val = c.toNat := Nat.mod_eq_of_lt hlt
  unfold CodePoint.toChar?
  rw [dif_pos (by rw [hval]; exact c.valid)]
  congr 1
  apply Char.ext
  apply UInt32.toNat_inj.mp
  exact hval

theorem mapM_toChar?_map_charPoint (l : List Char) :
    (l.map charPoint).mapM CodePoint.toChar? = some l := by
  induction l with
  | nil => rfl
  | cons c l ih => rw [List.map_cons, List.mapM_cons, toChar?_charPoint, ih]; rfl

/-- **The text of a string gives the string back.** -/
theorem toString?_ofString (s : String) : toString? (ofString s) = some s := by
  rw [toString?, ofString, mapM_toChar?_map_charPoint]
  simp

end Text

end Btf
