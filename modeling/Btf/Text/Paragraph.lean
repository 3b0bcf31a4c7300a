import Btf.Text

/-!
# Paragraphs

A help text is filled into lines of a given width: words stay whole where they fit on a line, and a
word longer than a line is cut.

* `Text.expandTabs`, `Text.words`: a text as runs of blanks and runs of other code points;
* `Filling`: lines that are complete and the line being filled;
* **`Text.fill`**: the lines of a text.
-/

namespace Btf

/-- Code points that separate words. -/
def CodePoint.isBlank (c : CodePoint) : Bool := (9 ≤ c.val && c.val ≤ 13) || c.val == 32

/-- Code points that a line does not begin or end with. -/
def CodePoint.isSpace (c : CodePoint) : Bool :=
  let n := c.val
  c.isBlank || (28 ≤ n && n ≤ 31) || n == 0x85 || n == 0xA0 || n == 0x1680 ||
    (0x2000 ≤ n && n ≤ 0x200A) || n == 0x2028 || n == 0x2029 || n == 0x202F || n == 0x205F ||
    n == 0x3000

namespace Text

/-- Tabs as spaces up to the next multiple of eight columns, from column `column` on. -/
def expandTabs (column : Nat) : Text → Text
  | [] => []
  | c :: t =>
    if c.val = 9 then
      let n := 8 - column % 8
      List.replicate n (codePoint 32) ++ expandTabs (column + n) t
    else if c.val = 10 ∨ c.val = 13 then c :: expandTabs 0 t
    else c :: expandTabs (column + 1) t

/-- A text as runs of blanks, each written as spaces, and runs of other code points. -/
def words (t : Text) : List Text :=
  ((expandTabs 0 t).map fun c => if c.isBlank then codePoint 32 else c).splitBy
    fun a b => a.isBlank == b.isBlank

end Text

/-- Lines being filled: the complete ones and the runs of the current one, each last first, the
width it has, and whether it has been offered a run yet. -/
structure Filling where
  lines : List Text := []
  line : List Text := []
  width : Nat := 0
  fresh : Bool := true

namespace Filling

/-- A run of nothing but space. -/
def isSpace (run : Text) : Bool := run.all CodePoint.isSpace

/-- Put a run at the end of the current line. -/
def push (f : Filling) (run : Text) : Filling :=
  { f with line := run :: f.line, width := f.width + run.length, fresh := false }

/-- End the current line: space at its end is dropped, and an empty line leaves no trace. -/
def close (f : Filling) : Filling :=
  let line := match f.line with
    | run :: rest => if isSpace run then rest else f.line
    | [] => []
  { lines := if line.isEmpty then f.lines else line.reverse.flatten :: f.lines }

/-- Space that would begin a line other than the first is dropped. -/
def drops (f : Filling) (run : Text) : Bool := f.fresh && isSpace run && !f.lines.isEmpty

/-- Put a run on a line of its own, cut into lines of `w + 1` code points. -/
def putFresh (w : Nat) (f : Filling) (run : Text) : Filling :=
  if f.drops run then { f with fresh := false }
  else if run.length ≤ w + 1 then f.push run
  else putFresh w (f.push (run.take (w + 1))).close (run.drop (w + 1))
termination_by run.length
decreasing_by simp only [List.length_drop]; omega

/-- Put a run on the current line if it fits within `w + 1` code points, and on the next line
otherwise; of a run longer than a line the current line takes what it has room for. -/
def put (w : Nat) (f : Filling) (run : Text) : Filling :=
  if f.drops run then { f with fresh := false }
  else if f.width + run.length ≤ w + 1 then f.push run
  else if run.length ≤ w + 1 then putFresh w f.close run
  else
    let room := w + 1 - f.width
    putFresh w (f.push (run.take room)).close (run.drop room)

end Filling

/-- **The lines of a text** filled to `w + 1` code points. -/
def Text.fill (w : Nat) (t : Text) : List Text :=
  ((t.words.foldl (Filling.put w) {}).close).lines.reverse

end Btf
