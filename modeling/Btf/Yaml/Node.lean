import Btf.Yaml.Scalar
import Btf.Yaml.Token

/-!
# Nodes of a document

The nodes of a document, numbered in the order in which they begin. An alias is another place of the
node that its anchor names, and may stand inside of it.

* `Node`, `Content`: scalars, sequences and mappings, and what they are taken for;
* `Properties`: what may stand before a node;
* `Compose`: what is composed from the tokens of a text;
* `Compose.node`: the node that begins at the next token;
* `Yaml.compose`: **the nodes of a text**.
-/

namespace Btf.Yaml

abbrev NodeId := Nat

/-- What a node consists of: the text of a scalar, or nodes. -/
inductive Content
  | scalar (t : Text)
  | sequence (items : List NodeId)
  | mapping (entries : List (NodeId × NodeId))
  deriving Repr, Inhabited

/-- A node, with what it is taken for. -/
structure Node where
  form : Form
  content : Content
  deriving Repr, Inhabited

/-- What may stand before a node: an anchor that names it, and its tag. -/
structure Properties where
  anchor : Option Text := none
  tag : Option Text := none

namespace Properties

/-- Neither of them stands before the node. -/
def areAbsent (p : Properties) : Bool := p.anchor.isNone && p.tag.isNone

/-- A tag that is an exclamation mark leaves it to the spelling what a scalar is. -/
def bySpelling : Text := "!"

/-- What a collection is taken for that is of the given form unless a tag tells. -/
def formOr (p : Properties) (form : Form) : Form :=
  match p.tag with
  | some t => if t = bySpelling then form else .ofTag t
  | none => form

end Properties

/-- The scan, the nodes that have begun, those that anchors name, and the handles of tags. -/
structure Composition where
  scanner : Scanner
  nodes : Array Node := #[]
  anchors : List (Text × NodeId) := []
  handles : List (Text × Text) := []

abbrev Compose (α : Type) := StateT Composition (Except Defect) α

namespace Compose

/-- The next token; at the end of the text it stays the same. -/
def peek : Compose Token := do
  let c ← get
  let scanner ← c.scanner.fill (c.scanner.pen.rest.length + 2)
  set { c with scanner }
  return scanner.queue.head?.getD .streamEnd

/-- Go past the next token. -/
def next : Compose Unit := modify fun c => { c with scanner := c.scanner.take }

/-- The next token is one of the given ones. -/
def at? (ts : List Token) : Compose Bool := do return ts.contains (← peek)

/-- Go past the next token if it is `t`. -/
def skip? (t : Token) : Compose Bool := do
  if (← peek) = t then
    next
    return true
  else return false

/-- Go past the next token, which has to be `t`. -/
def expect (t : Token) : Compose Unit := do
  if !(← skip? t) then throw .malformed

/-- A node with a number of its own, which an anchor may name. -/
def add (anchor : Option Text) (n : Node) : Compose NodeId := do
  let c ← get
  let id := c.nodes.size
  let anchors := match anchor with
    | some name => (name, id) :: c.anchors
    | none => c.anchors
  set { c with nodes := c.nodes.push n, anchors }
  return id

/-- A collection with its properties, of which the nodes are not known. -/
def begin (p : Properties) (form : Form) (empty : Content) : Compose NodeId :=
  add p.anchor { form := p.formOr form, content := empty }

/-- The nodes of a collection are known. -/
def complete (id : NodeId) (content : Content) : Compose NodeId := do
  modify fun c => { c with nodes := c.nodes.modify id fun n => { n with content } }
  return id

/-! ## Properties -/

/-- The handles that need not be given. -/
def commonHandles : List (Text × Text) := [("!", "!"), ("!!", commonTag)]

def fullTag (t : TagSpelling) : Compose Text := do
  match t.handle with
  | none => return t.suffix
  | some h =>
    match ((← get).handles ++ commonHandles).lookup h with
    | some start => return start ++ t.suffix
    | none => throw .malformed

/-- The properties before a node, in either order. -/
def properties : Compose Properties := do
  match ← peek with
  | .anchor name =>
    next
    match ← peek with
    | .tag t =>
      next
      return { anchor := some name, tag := some (← fullTag t) }
    | _ => return { anchor := some name }
  | .tag t =>
    next
    match ← peek with
    | .anchor name =>
      next
      return { anchor := some name, tag := some (← fullTag t) }
    | _ => return { tag := some (← fullTag t) }
  | _ => return {}

/-! ## Scalars -/

def spelledForm (t : Text) : Compose Form := do
  let e := (← get).scanner.edition
  if e.isKnown then return .ofSpelling e t else throw (.edition e)

/-- A scalar; one in quotes is text unless a tag tells otherwise. -/
def scalar (p : Properties) (plain : Bool) (t : Text) : Compose NodeId := do
  let form ← match p.tag with
    | some tag =>
      if tag = Properties.bySpelling then spelledForm t else pure (.ofTag tag)
    | none => if plain then spelledForm t else pure .text
  add p.anchor { form, content := .scalar t }

/-- A place where nothing stands. -/
def empty (p : Properties) : Compose NodeId := scalar p true []

mutual

/-- The node that begins at the next token; outside of brackets it may be a block, and in a mapping
a sequence may begin without a block of its own. -/
def node : (fuel : Nat) → (block bare : Bool) → Compose NodeId
  | 0, _, _ => throw .malformed
  | fuel + 1, block, bare => do
    match ← peek with
    | .alias name =>
      next
      match (← get).anchors.lookup name with
      | some id => return id
      | none => throw .malformed
    | _ => content fuel block bare (← properties)

/-- A node after its properties; nothing at all may follow them. -/
def content : (fuel : Nat) → (block bare : Bool) → Properties → Compose NodeId
  | 0, _, _, _ => throw .malformed
  | fuel + 1, block, bare, p => do
    match ← peek with
    | .scalar plain t =>
      next
      scalar p plain t
    | .sequenceOpen =>
      let id ← begin p .sequence (.sequence [])
      next
      complete id (.sequence (← flowItems fuel true))
    | .mappingOpen =>
      let id ← begin p .mapping (.mapping [])
      next
      complete id (.mapping (← flowEntries fuel true))
    | t =>
      if bare && t == .blockEntry then
        let id ← begin p .sequence (.sequence [])
        complete id (.sequence (← items fuel [.blockEntry, .key, .value, .blockEnd]))
      else if block && t == .blockSequence then
        let id ← begin p .sequence (.sequence [])
        next
        let ids ← items fuel [.blockEntry, .blockEnd]
        expect .blockEnd
        complete id (.sequence ids)
      else if block && t == .blockMapping then
        let id ← begin p .mapping (.mapping [])
        next
        complete id (.mapping (← entries fuel))
      else if p.areAbsent then throw .malformed
      else empty p

/-- The elements of a block; nothing before one of `ends` is null. -/
def items : (fuel : Nat) → (ends : List Token) → Compose (List NodeId)
  | 0, _ => throw .malformed
  | fuel + 1, ends => do
    if ← skip? .blockEntry then
      let id ← if ← at? ends then empty {} else node fuel true false
      return id :: (← items fuel ends)
    else return []

def entries : (fuel : Nat) → Compose (List (NodeId × NodeId))
  | 0 => throw .malformed
  | fuel + 1 => do
    if ← skip? .blockEnd then return []
    else
      let ends := [Token.key, .value, .blockEnd]
      let k ← if ← skip? .key then if ← at? ends then empty {} else node fuel true true
        else if ← at? [.value] then empty {}
        else throw .malformed
      let v ← if ← skip? .value then if ← at? ends then empty {} else node fuel true true
        else empty {}
      return (k, v) :: (← entries fuel)

/-- What stands between brackets before one of `ends`, which may be nothing. -/
def flowPart : (fuel : Nat) → (ends : List Token) → Compose NodeId
  | 0, _ => throw .malformed
  | fuel + 1, ends => do
    if ← at? ends then empty {} else node fuel false false

/-- A value between brackets with the colon before it, which may be missing. -/
def flowValue : (fuel : Nat) → (ends : List Token) → Compose NodeId
  | 0, _ => throw .malformed
  | fuel + 1, ends => do
    if ← skip? .value then flowPart fuel ends else empty {}

/-- The elements between square brackets, and the end; a pair among them is a mapping. -/
def flowItems : (fuel : Nat) → (first : Bool) → Compose (List NodeId)
  | 0, _ => throw .malformed
  | fuel + 1, first => do
    if ← skip? .sequenceClose then return []
    else
      if !first then expect .flowEntry
      if ← skip? .sequenceClose then return []
      else if ← at? [.key] then
        let ends := [Token.flowEntry, .sequenceClose]
        let id ← begin {} .mapping (.mapping [])
        next
        let k ← flowPart fuel (.value :: ends)
        let v ← flowValue fuel ends
        let id ← complete id (.mapping [(k, v)])
        return id :: (← flowItems fuel false)
      else
        let id ← node fuel false false
        return id :: (← flowItems fuel false)

/-- The entries between curly brackets, and the end. -/
def flowEntries : (fuel : Nat) → (first : Bool) → Compose (List (NodeId × NodeId))
  | 0, _ => throw .malformed
  | fuel + 1, first => do
    if ← skip? .mappingClose then return []
    else
      if !first then expect .flowEntry
      let ends := [Token.flowEntry, .mappingClose]
      if ← skip? .mappingClose then return []
      else
        let (k, v) ← if ← skip? .key then
            let k ← flowPart fuel (.value :: ends)
            pure (k, ← flowValue fuel ends)
          else if ← at? [.value] then
            let k ← empty {}
            pure (k, ← flowValue fuel ends)
          else
            let k ← node fuel false false
            pure (k, ← empty {})
        return (k, v) :: (← flowEntries fuel false)

end

/-- The directives before a document that has named its edition, or has not; no edition and no handle
is given twice. -/
def directives : (fuel : Nat) → (named : Bool) → Compose Unit
  | 0, _ => throw .malformed
  | fuel + 1, named => do
    match ← peek with
    | .directive (.edition e) =>
      next
      if named || e.major ≠ 1 then throw .malformed else directives fuel true
    | .directive (.handle name start) =>
      next
      let c ← get
      if (c.handles.lookup name).isSome then throw .malformed
      else
        set { c with handles := (name, start) :: c.handles }
        directives fuel named
    | .directive .other =>
      next
      directives fuel named
    | _ => return

/-- Go past the ends of documents. -/
def skipEnds : (fuel : Nat) → Compose Unit
  | 0 => throw .malformed
  | fuel + 1 => do if ← skip? .documentEnd then skipEnds fuel

/-- The end of the document and of the text; the end of a document may be marked more than once only
in the old edition. -/
def finish (fuel : Nat) : Compose Unit := do
  let ended ← skip? .documentEnd
  if ended && (← get).scanner.edition.isOld then skipEnds fuel
  expect .streamEnd

/-- The node that is the document, none if there is no document; nothing follows the document. -/
def document (fuel : Nat) : Compose (Option NodeId) := do
  match ← peek with
  | .streamEnd => return none
  | .directive _ | .documentStart =>
    directives fuel false
    expect .documentStart
    let root ← if ← at? [.documentStart, .documentEnd, .streamEnd] then empty {}
      else node fuel true false
    finish fuel
    return root
  | _ =>
    let root ← node fuel true false
    finish fuel
    return root

end Compose

/-- **The nodes of a text**, the one that is its document, if there is one, and the edition that the
document follows. -/
def compose (t : Text) : Except Defect (Option NodeId × Array Node × Edition) :=
  if !t.all isAllowed then .error .malformed
  else do
    let (root, c) ← (Compose.document (8 * t.length + 16)).run { scanner := .ofText t }
    return (root, c.nodes, c.scanner.edition)

end Btf.Yaml
