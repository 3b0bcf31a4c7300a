import Btf.Yaml.Pen

/-!
# Block scalars

A scalar that takes up whole lines, all of which begin in the same column or further to the right.
Its first line is a head, which says how lines are joined and which line ends are kept at the end.

* `Chomping`, `Pen.blockHead`: what a head says;
* `Pen.blockLines`: the lines of a scalar;
* `Pen.block`: **a block scalar**.
-/

namespace Btf.Yaml

/-- The line ends that are kept at the end of a block scalar: one, all, or none. -/
inductive Chomping
  | clip
  | keep
  | strip
  deriving DecidableEq, Repr

/-- The line ends that a mark asks for. -/
def Chomping.ofMark? (n : Nat) : Option Chomping :=
  if n = code '+' then some .keep else if n = code '-' then some .strip else none

namespace Pen

/-- What the head of a block scalar says about line ends and about the column, in either order, and
the place after it; the column is told by a digit that is not zero. -/
def blockHead (p : Pen) : Except Defect (Chomping × Option Nat × Pen) :=
  let (chomping, step, p) := match Chomping.ofMark? (p.peek 0), decimalDigit? (p.peek 0) with
    | some c, _ =>
      match decimalDigit? (p.peek 1) with
      | some d => (c, some d, p.skip 2)
      | none => (c, none, p.next)
    | none, some d =>
      match Chomping.ofMark? (p.peek 1) with
      | some c => (c, some d, p.skip 2)
      | none => (.clip, some d, p.next)
    | none, none => (.clip, none, p)
  if step = some 0 || !isStop (p.peek 0) then .error .malformed else .ok (chomping, step, p)

/-- The empty lines before the first line: their line ends, the column of the first of them, the
width of the widest space, and the place after it. -/
def leadingLines : (fuel : Nat) → (done : Text) → (first : Option Nat) → (widest : Nat) → Pen →
    Text × Option Nat × Nat × Pen
  | 0, done, first, widest, p => (done, first, widest, p)
  | fuel + 1, done, first, widest, p =>
    if isBreak (p.peek 0) then
      let (e, q) := p.lineEnd
      leadingLines fuel (done ++ e) (first <|> some p.column) widest q
    else if p.peek 0 = 32 then
      leadingLines fuel done first (max widest p.next.column) p.next
    else (done, first, widest, p)

/-- The line ends of empty lines from here on, and the place at `indent` or before it where the next
line begins. -/
def emptyLines (indent : Nat) : (fuel : Nat) → (done : Text) → Pen → Text × Pen
  | 0, done, p => (done, p)
  | fuel + 1, done, p =>
    let p := p.skip (min (p.count (· == 32)) (indent - p.column))
    if isBreak (p.peek 0) then
      let (e, q) := p.lineEnd
      emptyLines indent fuel (done ++ e) q
    else (done, p)

/-- The lines of a block scalar that begins at `indent` after the line ends `breaks`: the text, the
line end of the last line, those of the empty lines after it, and the place after them. Lines that
are folded are joined by a space, unless space begins one of them. A scalar that is the whole
document ends before a separator. -/
def blockLines (folded whole : Bool) (indent : Nat) :
    (fuel : Nat) → (done ending breaks : Text) → Pen → Text × Text × Text × Pen
  | 0, done, ending, breaks, p => (done, ending, breaks, p)
  | fuel + 1, done, ending, breaks, p =>
    if p.column ≠ indent || p.peek 0 = 0 then (done, ending, breaks, p)
    else
      let n := p.count fun n => !isEnd n
      let done := done ++ breaks ++ p.take n
      let (ending, q) := (p.skip n).lineEnd
      let (breaks, q) := emptyLines indent (q.rest.length + 1) [] q
      if (whole && q.atMarker) || q.column ≠ indent || q.peek 0 = 0 then (done, ending, breaks, q)
      else
        let joins := folded && ending == Text.ofString "\n" && !isBlank (p.peek 0) &&
          !isBlank (q.peek 0)
        let between : Text := if !joins then ending else if breaks.isEmpty then " " else []
        blockLines folded whole indent fuel (done ++ between) ending breaks q

/-- Where the lines of a block scalar begin, if they cannot begin before the column `least`: the
line ends of the empty lines before them, the column, whether the scalar may be the whole document,
and the place. -/
def blockStart (p : Pen) (least : Nat) (step : Option Nat) :
    Except Defect (Text × Nat × Bool × Pen) :=
  let fuel := p.rest.length + 1
  match step with
  | some d =>
    let indent := max least 1 + d - 1
    let (breaks, q) := emptyLines indent fuel [] p
    .ok (breaks, indent, false, q)
  | none =>
    let (breaks, first, widest, q) := leadingLines fuel [] none 0 p
    let column := first.getD 0
    if 0 < column ∧ column < widest then .error .malformed
    else .ok (breaks, max least widest, least == 0, q)

/-- **The block scalar whose mark stands here**, and the place after it. -/
def block (p : Pen) (least : Nat) : Except Defect (Text × Pen) := do
  let (chomping, step, q) ← p.next.blockHead
  let (breaks, indent, whole, q) ← (← q.restOfLine).blockStart least step
  let (t, ending, breaks, q) :=
    blockLines (p.peek 0 == code '>') whole indent (q.rest.length + 1) [] [] breaks q
  return (match chomping with
    | .clip => t ++ ending
    | .keep => t ++ ending ++ breaks
    | .strip => t, q)

end Pen

end Btf.Yaml
