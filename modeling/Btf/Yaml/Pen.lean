import Btf.Yaml.Defect

/-!
# Reading the text of a document

The rest of a text with the place where it begins, and the scalars that may begin there.

* `isEnd`, `isBlank`, `isGap`, `isBreak`, `isStop`, `isAllowed`: classes of code points;
* `Pen`, `Pen.next`, `Pen.lineEnd`: places, and how they move on;
* `Pen.plain`: **a scalar without quotes**, which may go over several lines;
* `Pen.quoted`: **a scalar in quotes**;
* `Pen.toToken`: the place of the next token.

There are five line ends, but only line feeds and returns begin a new line for the numbers of lines
and columns, and only they and the next line character end a word.
-/

namespace Btf.Yaml

/-! ## Classes of code points -/

/-- The number of a character. -/
def code (c : Char) : Nat := c.toNat

/-- The number is that of one of the characters. -/
def isOneOf (chars : String) (n : Nat) : Bool := (chars.toList.map code).contains n

/-- Spaces and tabs. -/
def isBlank (n : Nat) : Bool := n == 32 || n == 9

/-- What ends a comment; zero stands for the end of the text. -/
def isEnd (n : Nat) : Bool := n == 0 || n == 10 || n == 13 || n == 0x85

/-- What ends a word. -/
def isGap (n : Nat) : Bool := isEnd n || isBlank n

/-- Code points that end a line. -/
def isBreak (n : Nat) : Bool := n == 10 || n == 13 || n == 0x85 || n == 0x2028 || n == 0x2029

/-- What ends a mark that takes up a line or the start of one; zero stands for the end of the text. -/
def isStop (n : Nat) : Bool := n == 0 || n == 32 || isBreak n

/-- Code points that a document may hold. -/
def isAllowed (c : CodePoint) : Bool :=
  let n := c.val
  n == 9 || n == 10 || n == 13 || (0x20 ≤ n && n ≤ 0x7E) || n == 0x85 || (0xA0 ≤ n && n ≤ 0xD7FF) ||
    (0xE000 ≤ n && n ≤ 0xFFFD) || 0x10000 ≤ n

def decimalDigit? (n : Nat) : Option Nat := if 48 ≤ n ∧ n ≤ 57 then some (n - 48) else none

def isNamePoint (n : Nat) : Bool :=
  ((0x21 ≤ n && n ≤ 0x7E) || (0xA0 ≤ n && n ≠ 0xFEFF)) && !isOneOf ",[]\x7b\x7d" n

/-! ## Places -/

/-- The rest of a text and the place where it begins. -/
structure Pen where
  rest : Text
  index : Nat := 0
  line : Nat := 0
  column : Nat := 0
  deriving Repr

namespace Pen

/-- The code point `i` places on, zero at the end. -/
def peek (p : Pen) (i : Nat) : Nat := (p.rest[i]?.map Fin.val).getD 0

/-- The place after the next code point; a byte order mark takes no column. -/
def next (p : Pen) : Pen :=
  match p.rest with
  | [] => p
  | c :: rest =>
    let ends := c.val == 10 || (c.val == 13 && (rest.head?.map Fin.val) != some 10)
    if ends then { rest, index := p.index + 1, line := p.line + 1, column := 0 }
    else { rest, index := p.index + 1, line := p.line,
           column := if c.val = 0xFEFF then p.column else p.column + 1 }

/-- The place after the next `n` code points. -/
def skip : Nat → Pen → Pen
  | 0, p => p
  | n + 1, p => skip n p.next

/-- The next `n` code points. -/
def take (p : Pen) (n : Nat) : Text := p.rest.take n

/-- The number of code points from here on that satisfy `f`. -/
def count (p : Pen) (f : Nat → Bool) : Nat := (p.rest.takeWhile fun c => f c.val).length

/-- The place after all code points from here on that satisfy `f`. -/
def skipAll (p : Pen) (f : Nat → Bool) : Pen := p.skip (p.count f)

/-- A line end, as a line feed unless it is a separator of its own, and the place after it. -/
def lineEnd (p : Pen) : Text × Pen :=
  let n := p.peek 0
  if n = 13 && p.peek 1 = 10 then ("\n", p.skip 2)
  else if n = 0x2028 || n = 0x2029 then (p.take 1, p.next)
  else if isBreak n then ("\n", p.next)
  else ([], p)

/-- Three hyphens or dots stand here alone. -/
def atSeparator (p : Pen) : Bool :=
  (p.take 3 == Text.ofString "---" || p.take 3 == Text.ofString "...") && isGap (p.peek 3)

/-- A document begins or ends here: such a separator begins the line. -/
def atMarker (p : Pen) : Bool := p.column == 0 && p.atSeparator

/-- The line ends that follow one, with code points in `blank` between them, or none if a separator
follows one. -/
def lineEnds (blank : Nat → Bool) : (fuel : Nat) → Text → Pen → Option (Text × Pen)
  | 0, _, _ => none
  | fuel + 1, done, p =>
    if p.atSeparator then none
    else
      let p := p.skipAll blank
      if isBreak (p.peek 0) then
        let (e, p) := p.lineEnd
        lineEnds blank fuel (done ++ e) p
      else some (done, p)

/-- A line end here and the ones that follow it: the first one, all others, and the place after
them. -/
def allLineEnds (p : Pen) (blank : Nat → Bool) : Option (Text × Text × Pen) :=
  let (e, p) := p.lineEnd
  (lineEnds blank (p.rest.length + 1) [] p).map fun (more, p) => (e, more, p)

/-- What lines joined at a line end have between them: a space, or the empty lines. -/
def fold (first more : Text) : Text :=
  if first ≠ Text.ofString "\n" then first ++ more
  else if more.isEmpty then " "
  else more

/-- The place after a line on which nothing but a comment may follow. -/
def restOfLine (p : Pen) : Except Defect Pen :=
  let p := p.skipAll (· == 32)
  let p := if p.peek 0 = code '#' then p.skipAll fun n => !isEnd n else p
  if isEnd (p.peek 0) then .ok p.lineEnd.2 else .error .malformed

/-! ## Plain scalars -/

/-- The length of a run of a plain scalar, which ends before one of the marks in `stops`. -/
def runLength (stops : String) : Text → Nat
  | [] => 0
  | c :: t =>
    let n := c.val
    let after := (t.head?.map Fin.val).getD 0
    if isGap n || (n = code ':' && isGap after) || isOneOf stops n then 0
    else runLength stops t + 1

/-- The space after a run, the place after it, and whether a line has ended. -/
def spaceAfterRun (p : Pen) : Text × Pen × Bool :=
  let n := p.count (· == 32)
  let blank := p.take n
  let p := p.skip n
  if isBreak (p.peek 0) then
    match p.allLineEnds (· == 32) with
    | some (e, more, p) => (fold e more, p, true)
    | none => ([], p.lineEnd.2, true)
  else (blank, p, false)

/-- The runs of a plain scalar; lines after the first begin at `indent` or further to the right. -/
def plainFrom (stops : String) (indent : Nat) :
    (fuel : Nat) → (done space : Text) → (ended : Bool) → Pen → Text × Pen × Bool
  | 0, done, _, ended, p => (done, p, ended)
  | fuel + 1, done, space, ended, p =>
    let n := runLength stops p.rest
    if p.peek 0 = code '#' || n = 0 then (done, p, ended)
    else
      let done := done ++ space ++ p.take n
      let (space, p, ended) := (p.skip n).spaceAfterRun
      if space.isEmpty || p.peek 0 = code '#' || p.column < indent then (done, p, ended)
      else plainFrom stops indent fuel done space ended p

/-- **A plain scalar** that ends before one of the marks in `stops`, the place after it, and whether
a line has ended after its last run. -/
def plain (p : Pen) (stops : String) (indent : Nat) : Text × Pen × Bool :=
  plainFrom stops indent (p.rest.length + 1) [] [] false p

/-! ## Quoted scalars -/

/-- The code points that a letter after a backslash stands for. -/
def escapes : List (Char × Nat) :=
  [('0', 0), ('a', 7), ('b', 8), ('t', 9), ('\t', 9), ('n', 10), ('v', 11), ('f', 12), ('r', 13),
    ('e', 27), (' ', 32), ('"', 34), ('/', 47), ('\\', 92), ('N', 0x85), ('_', 0xA0), ('L', 0x2028),
    ('P', 0x2029)]

/-- The letters after which a code point is written with a number of hexadecimal digits. -/
def numbered : List (Char × Nat) := [('x', 2), ('u', 4), ('U', 8)]

def hexValue? (n : Nat) : Option Nat :=
  if 48 ≤ n ∧ n ≤ 57 then some (n - 48)
  else if 97 ≤ n ∧ n ≤ 102 then some (n - 87)
  else if 65 ≤ n ∧ n ≤ 70 then some (n - 55)
  else none

/-- The number written with hexadecimal digits. -/
def hexNumber? (t : Text) : Option Nat :=
  t.foldlM (fun n c => (hexValue? c.val).map fun d => 16 * n + d) 0

/-- The code point with the number that the next `width` digits write. -/
def numberedPoint (p : Pen) (width : Nat) : Except Defect (Text × Pen) :=
  let digits := p.take width
  match hexNumber? digits with
  | some n =>
    if digits.length ≠ width then .error .malformed
    else if n < 0x110000 then .ok ([codePoint n], p.skip width)
    else .error (.codePoint n)
  | none => .error .malformed

/-- What is written after a backslash, and the place after it. -/
def escaped (p : Pen) : Except Defect (Text × Pen) :=
  let n := p.peek 0
  let isOf (e : Char × Nat) : Bool := code e.1 == n
  match escapes.find? isOf, numbered.find? isOf with
  | some (_, m), _ => .ok ([codePoint m], p.next)
  | none, some (_, width) => p.next.numberedPoint width
  | none, none =>
    if isBreak n then
      match p.allLineEnds isBlank with
      | some (_, more, p) => .ok (more, p)
      | none => .error .malformed
    else .error .malformed

/-- The rest of a quoted scalar, in which only double quotes allow escapes. -/
def quotedFrom (double : Bool) : (fuel : Nat) → Text → Pen → Except Defect (Text × Pen)
  | 0, _, _ => .error .malformed
  | fuel + 1, done, p =>
    let n := p.peek 0
    let quote := if double then code '"' else code '\''
    if n = 0 then .error .malformed
    else if n = quote then
      if !double && p.peek 1 = quote then quotedFrom double fuel (done ++ p.take 1) (p.skip 2)
      else .ok (done, p.next)
    else if double && n = code '\\' then
      match p.next.escaped with
      | .ok (t, p) => quotedFrom double fuel (done ++ t) p
      | .error d => .error d
    else if isBlank n || isBreak n then
      let q := p.skipAll isBlank
      if isBreak (q.peek 0) then
        match q.allLineEnds isBlank with
        | some (e, more, q) => quotedFrom double fuel (done ++ fold e more) q
        | none => .error .malformed
      else quotedFrom double fuel (done ++ p.take (p.count isBlank)) q
    else
      let run := p.count fun n =>
        !(n == 0 || n == quote || (double && n == code '\\') || isBlank n || isBreak n)
      quotedFrom double fuel (done ++ p.take run) (p.skip run)

/-- **The scalar in the quotes that begin here**, and the place after it. -/
def quoted (p : Pen) : Except Defect (Text × Pen) :=
  quotedFrom (p.peek 0 == code '"') (p.rest.length + 1) [] p.next

/-! ## The way to the next token -/

/-- Skip space, comments and line ends from here on; tabs are space only within brackets. -/
def toTokenFrom (inFlow : Bool) : (fuel : Nat) → (ended : Bool) → Pen → Pen × Bool
  | 0, ended, p => (p, ended)
  | fuel + 1, ended, p =>
    let p := p.skipAll fun n => n == 32 || (inFlow && n == 9)
    let p := if p.peek 0 = code '#' then p.skipAll fun n => !isEnd n else p
    if isBreak (p.peek 0) then toTokenFrom inFlow fuel true p.lineEnd.2 else (p, ended)

/-- The place of the next token, and whether a line has ended before it. -/
def toToken (p : Pen) (inFlow : Bool) : Pen × Bool :=
  toTokenFrom inFlow (p.rest.length + 1) false p

end Pen

end Btf.Yaml
