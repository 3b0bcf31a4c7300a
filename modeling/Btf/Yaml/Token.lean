import Btf.Yaml.Block
import Btf.Yaml.Tag

/-!
# Tokens of a document

The text of a document as a sequence of tokens. Blocks are marked by the columns in which their
lines begin; a word is known to be a key only when the colon after it is read, so the tokens from
such a word on wait in a queue until that is settled.

* `Token`: the tokens;
* `Scanner`, `Scanner.fetch`: a scan, and one step of it;
* `Scanner.fill`: **a scan whose next token is settled**.
-/

namespace Btf.Yaml

/-- A token: blocks and brackets, the marks between their parts, and scalars. -/
inductive Token
  | streamEnd
  | directive (d : Directive)
  | documentStart
  | documentEnd
  | blockSequence
  | blockMapping
  | blockEnd
  | sequenceOpen
  | sequenceClose
  | mappingOpen
  | mappingClose
  | flowEntry
  | blockEntry
  | key
  | value
  | alias (name : Text)
  | anchor (name : Text)
  | tag (t : TagSpelling)
  | scalar (plain : Bool) (t : Text)
  deriving DecidableEq, Repr

/-- Where a key may have begun: its place among all tokens and in the text. A required one has to
turn out to be a key. -/
structure KeyMark where
  token : Nat
  required : Bool
  index : Nat
  line : Nat
  column : Nat
  deriving Repr

/-- The state of a scan: `queue` are the tokens that have been found and not been taken, `taken` is
the number of those that have, `indents` are the columns of the open blocks, `flow` says of the open
brackets which of them are square, `keyAllowed` that a key may begin here, and `marks` where one may
have begun, for the text outside of brackets and inside of each. The edition is that of the rules
that the document follows. -/
structure Scanner where
  pen : Pen
  queue : List Token := []
  taken : Nat := 0
  indents : List Nat := []
  flow : List Bool := []
  keyAllowed : Bool := true
  marks : List (Option KeyMark) := [none]
  done : Bool := false
  edition : Edition := {}

namespace Scanner

/-- The place is between brackets. -/
def inFlow (s : Scanner) : Bool := !s.flow.isEmpty

/-- Put tokens at the end. -/
def push (s : Scanner) (ts : List Token) : Scanner := { s with queue := s.queue ++ ts }

/-- Put tokens before the one at place `i` among all tokens. -/
def insert (s : Scanner) (i : Nat) (ts : List Token) : Scanner :=
  { s with queue := s.queue.take (i - s.taken) ++ ts ++ s.queue.drop (i - s.taken) }

/-- The column of the innermost block is smaller than `column`. -/
def indentsTo (s : Scanner) (column : Nat) : Bool :=
  match s.indents with
  | [] => true
  | i :: _ => decide (i < column)

/-- End the blocks that begin to the right of `column`, or all of them. -/
def unwind (s : Scanner) (column : Option Nat) : Scanner :=
  if s.inFlow then s
  else
    let ends (i : Nat) : Bool := match column with
      | some c => decide (c < i)
      | none => true
    let n := (s.indents.takeWhile ends).length
    { s.push (List.replicate n .blockEnd) with indents := s.indents.drop n }

/-! ## Possible keys -/

/-- Forget where a key may have begun; a required one must not be forgotten. -/
def dropMark (s : Scanner) : Except Defect Scanner :=
  match s.marks with
  | some m :: rest => if m.required then .error .malformed else .ok { s with marks := none :: rest }
  | _ => .ok s

/-- A key may begin here. -/
def saveMark (s : Scanner) : Except Defect Scanner :=
  if s.keyAllowed then do
    let s ← s.dropMark
    let required := !s.inFlow && s.indents.head? == some s.pen.column
    let mark : KeyMark :=
      { token := s.taken + s.queue.length, required, index := s.pen.index, line := s.pen.line,
        column := s.pen.column }
    return { s with marks := some mark :: s.marks.tail }
  else .ok s

/-- The most code points that a key takes. -/
def keyLimit : Nat := 1024

/-- A key that begins at a mark would go over a line end or be too long. -/
def isStale (s : Scanner) (m : KeyMark) : Bool :=
  m.line != s.pen.line || decide (m.index + keyLimit < s.pen.index)

/-- Forget keys that would go over a line end or be too long. -/
def dropStale (s : Scanner) : Except Defect Scanner := do
  let marks ← s.marks.mapM fun
    | some m =>
      if s.isStale m then if m.required then .error Defect.malformed else .ok none
      else .ok (some m)
    | none => .ok none
  return { s with marks }

/-! ## Marks, brackets and scalars -/

/-- A token of one code point. -/
def single (s : Scanner) (t : Token) : Scanner := { s.push [t] with pen := s.pen.next }

/-- The end of the text. -/
def finish (s : Scanner) : Except Defect Scanner := do
  let s ← (s.unwind none).dropMark
  return { s.push [.streamEnd] with keyAllowed := false, marks := [], done := true }

def marker (s : Scanner) (t : Token) : Except Defect Scanner := do
  let s ← (s.unwind none).dropMark
  return { s.push [t] with pen := s.pen.skip 3, keyAllowed := false }

/-- A bracket that opens. -/
def opening (s : Scanner) (square : Bool) : Except Defect Scanner := do
  let s ← s.saveMark
  let s := s.single (if square then .sequenceOpen else .mappingOpen)
  return { s with flow := square :: s.flow, marks := none :: s.marks, keyAllowed := true }

/-- A bracket that closes. -/
def closing (s : Scanner) (square : Bool) : Except Defect Scanner := do
  let s ← s.dropMark
  let s := s.single (if square then .sequenceClose else .mappingClose)
  return { s with
    flow := s.flow.tail
    marks := if s.inFlow then s.marks.tail else s.marks
    keyAllowed := false }

def comma (s : Scanner) : Except Defect Scanner := do
  let s ← { s with keyAllowed := true }.dropMark
  return s.single .flowEntry

/-- Begin a block at the current column if it is further to the right than the one around it. -/
def openBlock (s : Scanner) (t : Token) : Except Defect Scanner :=
  if s.inFlow then .ok s
  else if !s.keyAllowed then .error .malformed
  else if s.indentsTo s.pen.column then
    .ok { s.push [t] with indents := s.pen.column :: s.indents }
  else .ok s

def hyphen (s : Scanner) : Except Defect Scanner := do
  let s ← s.openBlock .blockSequence
  let s ← { s with keyAllowed := true }.dropMark
  return s.single .blockEntry

/-- The question mark before a key. -/
def question (s : Scanner) : Except Defect Scanner := do
  let s ← s.openBlock .blockMapping
  let s ← { s with keyAllowed := !s.inFlow }.dropMark
  return s.single .key

/-- The colon before a value: what stands before it may turn out to be the key. -/
def colon (s : Scanner) : Except Defect Scanner := do
  match s.marks with
  | some m :: rest =>
    let s := { s with marks := none :: rest, keyAllowed := false }
    let opens := !s.inFlow && s.indentsTo m.column
    let s := s.insert m.token (if opens then [.blockMapping, .key] else [.key])
    let s := if opens then { s with indents := m.column :: s.indents } else s
    return s.single .value
  | _ =>
    let s ← s.openBlock .blockMapping
    let s ← { s with keyAllowed := !s.inFlow }.dropMark
    return s.single .value

/-- An anchor or an alias with its name. -/
def reference (s : Scanner) (t : Text → Token) : Except Defect Scanner := do
  let s ← s.saveMark
  let p := s.pen.next
  let n := p.count isNamePoint
  let after := p.peek n
  if n = 0 || !(isGap after || isBreak after || isOneOf "?:,[]\x7b\x7d%@\x60" after) then
    throw .malformed
  else return { s.push [t (p.take n)] with pen := p.skip n, keyAllowed := false }

def quoted (s : Scanner) : Except Defect Scanner := do
  let s ← s.saveMark
  let (t, pen) ← s.pen.quoted
  return { s.push [.scalar false t] with pen, keyAllowed := false }

/-- The first column of what stands inside of the innermost block. -/
def inside (s : Scanner) : Nat :=
  match s.indents with
  | [] => 0
  | i :: _ => i + 1

/-- The marks that end a plain scalar. -/
def stops (s : Scanner) : String :=
  if !s.inFlow then "" else if s.edition.isOld then ",?[]\x7b\x7d" else ",[]\x7b\x7d"

/-- A plain scalar; between brackets its lines may begin anywhere. -/
def plain (s : Scanner) : Except Defect Scanner := do
  let s ← s.saveMark
  let (t, pen, ended) := s.pen.plain s.stops (if s.inFlow then 0 else s.inside)
  return { s.push [.scalar true t] with pen, keyAllowed := ended }

/-- A block scalar, after which a key may begin. -/
def blockScalar (s : Scanner) : Except Defect Scanner := do
  let s ← { s with keyAllowed := true }.dropMark
  let (t, pen) ← s.pen.block s.inside
  return { s.push [.scalar false t] with pen }

def tag (s : Scanner) : Except Defect Scanner := do
  let s ← s.saveMark
  let (t, pen) ← s.pen.tag s.edition
  return { s.push [.tag t] with pen, keyAllowed := false }

/-- A directive, which may name the edition. -/
def directive (s : Scanner) : Except Defect Scanner := do
  let s ← (s.unwind none).dropMark
  let (d, pen) ← s.pen.directive s.edition
  let edition := match d with
    | .edition e => e
    | _ => s.edition
  return { s.push [.directive d] with pen, keyAllowed := false, edition }

/-- A plain scalar begins here: with a code point that marks nothing, or with a mark that is not
followed by a gap. -/
def atPlain (s : Scanner) : Bool :=
  let n := s.pen.peek 0
  let joined := !isGap (s.pen.peek 1)
  !(isGap n || isBreak n || isOneOf "-?:,[]\x7b\x7d#&*!|>'\"%@\x60" n) ||
    (joined && (n = code '-' || (n = code ':' && !(s.inFlow && s.edition.isOld)) ||
      (!s.inFlow && n = code '?')))

/-- The question mark here stands before a key. -/
def atKey (s : Scanner) : Bool := s.inFlow || isGap (s.pen.peek 1)

/-- The colon here stands before a value. -/
def atValue (s : Scanner) : Bool :=
  isGap (s.pen.peek 1) || (s.inFlow && s.edition.isOld) ||
    (match s.flow with
      | false :: _ => s.queue.getLast? ≠ some .value
      | _ => false)

/-! ## The scan -/

/-- The token or tokens that begin at a place where no space stands. -/
def token (s : Scanner) : Except Defect Scanner :=
  let n := s.pen.peek 0
  if n = 0 then s.finish
  else if n = code '%' && s.pen.column == 0 then s.directive
  else if s.pen.atMarker then
    s.marker (if n = code '-' then .documentStart else .documentEnd)
  else if n = code '[' then s.opening true
  else if n = code '\x7b' then s.opening false
  else if n = code ']' then s.closing true
  else if n = code '\x7d' then s.closing false
  else if n = code ',' then s.comma
  else if n = code '-' && isGap (s.pen.peek 1) then s.hyphen
  else if n = code '?' && s.atKey then s.question
  else if n = code ':' && s.atValue then s.colon
  else if n = code '*' then s.reference .alias
  else if n = code '&' then s.reference .anchor
  else if n = code '!' then s.tag
  else if (n = code '|' || n = code '>') && !s.inFlow then s.blockScalar
  else if n = code '\'' || n = code '"' then s.quoted
  else if s.atPlain then s.plain
  else .error .malformed

/-- One step of a scan. -/
def fetch (s : Scanner) : Except Defect Scanner := do
  let (pen, ended) := s.pen.toToken s.inFlow
  let s := { s with pen, keyAllowed := s.keyAllowed || (ended && !s.inFlow) }
  let s ← s.dropStale
  (s.unwind (some pen.column)).token

/-- The place among all tokens where the first possible key begins. -/
def firstMark (s : Scanner) : Option Nat := (s.marks.filterMap fun m => m.map KeyMark.token).min?

/-- The next token is there, and it will not turn out to be a key. -/
def isSettled (s : Scanner) : Bool := !s.queue.isEmpty && s.firstMark != some s.taken

/-- **A scan whose next token is settled.** -/
def fill : (fuel : Nat) → Scanner → Except Defect Scanner
  | 0, _ => .error .malformed
  | fuel + 1, s =>
    if s.done then .ok s
    else do
      let s ← if s.queue.isEmpty then pure s else s.dropStale
      if s.isSettled then return s else fill fuel (← s.fetch)

/-- The scan after its next token has been taken. -/
def take (s : Scanner) : Scanner := { s with queue := s.queue.tail, taken := s.taken + 1 }

/-- The scan of a text, which may begin with a byte order mark. -/
def ofText (t : Text) : Scanner :=
  match t with
  | c :: rest => if c.val = 0xFEFF then { pen := { rest, index := 1 } } else { pen := { rest := t } }
  | [] => { pen := { rest := [] } }

end Scanner

end Btf.Yaml
