import Btf.Text.Decoding
import Btf.Yaml.Pen

/-!
# Tags and directives

A tag before a node says what the node stands for; the start of it may be written with a handle. A
directive before a document names the edition that the document follows, or gives a handle.

* `TagSpelling`, `Pen.tag`: **a tag as it is written**;
* `Directive`, `Pen.directive`: **a directive**.
-/

namespace Btf.Yaml

/-- A tag as it is written: a handle that stands for its start, if there is one, and the rest. -/
structure TagSpelling where
  handle : Option Text := none
  suffix : Text
  deriving DecidableEq, Repr

/-- A directive; some are of no consequence. -/
inductive Directive
  | edition (e : Edition)
  | handle (name start : Text)
  | other
  deriving DecidableEq, Repr

/-- Letters, digits, hyphens and underscores. -/
def isWordPoint (n : Nat) : Bool :=
  (48 ≤ n && n ≤ 57) || (65 ≤ n && n ≤ 90) || (97 ≤ n && n ≤ 122) || isOneOf "-_" n

/-- Code points of tags; a number sign is one only in the present edition. -/
def isTagPoint (e : Edition) (n : Nat) : Bool :=
  isWordPoint n || isOneOf ";/?:@&=+$,.!~*'()[]%" n ||
    ((1 < e.major || 1 < e.minor) && n == code '#')

namespace Pen

/-! ## Tags -/

/-- The bytes that are written as percent signs with two digits each, and the place after them. -/
def tagBytes : (fuel : Nat) → List UInt8 → Pen → Except Defect (List UInt8 × Pen)
  | 0, done, p => .ok (done, p)
  | fuel + 1, done, p =>
    if p.peek 0 = code '%' then
      match hexValue? (p.peek 1), hexValue? (p.peek 2) with
      | some a, some b => tagBytes fuel (done ++ [(16 * a + b).toUInt8]) (p.skip 3)
      | _, _ => .error .malformed
    else .ok (done, p)

/-- The rest of a tag after `done`, and the place after it. -/
def tagTextFrom (e : Edition) : (fuel : Nat) → (done : Text) → Pen → Except Defect (Text × Pen)
  | 0, done, p => .ok (done, p)
  | fuel + 1, done, p =>
    if p.peek 0 = code '%' then
      match tagBytes (p.rest.length + 1) [] p with
      | .error d => .error d
      | .ok (bytes, q) =>
        match Text.decode "utf-8" "strict" bytes with
        | .ok t => tagTextFrom e fuel (done ++ t) q
        | .error _ => .error .malformed
    else if isTagPoint e (p.peek 0) then tagTextFrom e fuel (done ++ p.take 1) p.next
    else .ok (done, p)

/-- The text of a tag without its handle, of which there is some, and the place after it. -/
def tagText (e : Edition) (p : Pen) : Except Defect (Text × Pen) := do
  let (t, q) ← tagTextFrom e (p.rest.length + 1) [] p
  if q.index = p.index then throw .malformed else return (t, q)

/-- A handle, which is one exclamation mark or stands between two, and the place after it. -/
def tagHandle (p : Pen) : Except Defect (Text × Pen) :=
  let n := (p.next.count isWordPoint) + 1
  if p.peek 0 ≠ code '!' then .error .malformed
  else if p.peek 1 = 32 then .ok (p.take 1, p.next)
  else if p.peek n = code '!' then .ok (p.take (n + 1), p.skip (n + 1))
  else .error .malformed

/-- **The tag that begins here**, and the place after it. -/
def tag (e : Edition) (p : Pen) : Except Defect (TagSpelling × Pen) := do
  let (t, q) ← if p.peek 1 = code '<' then do
      let (suffix, q) ← tagText e (p.skip 2)
      if q.peek 0 = code '>' then pure (({ suffix } : TagSpelling), q.next) else throw .malformed
    else if isGap (p.peek 1) then pure ({ suffix := "!" }, p.next)
    else do
      let named := (p.next.rest.takeWhile fun c => !isStop c.val).contains (charPoint '!')
      let (handle, q) ← if named then p.tagHandle else pure (p.take 1, p.next)
      let (suffix, q) ← tagText e q
      pure ({ handle := some handle, suffix }, q)
  if isStop (q.peek 0) then return (t, q) else throw .malformed

/-! ## Directives -/

/-- A whole number, and the place after it. -/
def wholeDigits (p : Pen) : Except Defect (Nat × Pen) :=
  let n := p.count fun n => (decimalDigit? n).isSome
  if n = 0 then .error .malformed
  else if Defect.digitLimit < n then .error (.tooManyDigits n)
  else .ok ((p.take n).foldl (fun v c => 10 * v + (c.val - 48)) 0, p.skip n)

def editionNumber (p : Pen) : Except Defect (Edition × Pen) := do
  let (major, q) ← (p.skipAll (· == 32)).wholeDigits
  if q.peek 0 ≠ code '.' then throw .malformed
  else
    let (minor, q) ← q.next.wholeDigits
    if isStop (q.peek 0) then return ({ major, minor }, q) else throw .malformed

/-- A handle and what it stands for, and the place after them. -/
def handleMeaning (e : Edition) (p : Pen) : Except Defect (Directive × Pen) := do
  let (name, q) ← (p.skipAll (· == 32)).tagHandle
  if q.peek 0 ≠ 32 then throw .malformed
  else
    let (start, q) ← tagText e (q.skipAll (· == 32))
    if isStop (q.peek 0) then return (.handle name start, q) else throw .malformed

/-- **The directive that begins here** in a document of an edition, and the place after its line. -/
def directive (e : Edition) (p : Pen) : Except Defect (Directive × Pen) := do
  let p := p.next
  let n := p.count fun n => isWordPoint n || isOneOf ":." n
  let q := p.skip n
  if n = 0 || !isStop (q.peek 0) then throw .malformed
  else
    let (d, q) ← if p.take n == Text.ofString "YAML" then do
        let (e, q) ← q.editionNumber
        pure (.edition e, q)
      else if p.take n == Text.ofString "TAG" then handleMeaning e q
      else pure (.other, q.skipAll fun n => !isEnd n)
    return (d, ← q.restOfLine)

end Pen

end Btf.Yaml
