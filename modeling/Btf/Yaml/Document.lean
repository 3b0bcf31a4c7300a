import Btf.Source
import Btf.Yaml.Node

/-!
# Documents

The value that a document stands for. A collection is made first and filled when its turn comes, one
after the other; a key is filled at once, since it has to be known before the mapping it stands in.

* `Building`, `Build`: what has been made of the nodes of a document so far;
* `Build.inline`: mappings that are put into another one by a merge key;
* `Build.make`, `Build.fill`: a node made, and a collection filled;
* `Yaml.load`: **the value of a text**, or the defect that it has;
* `Yaml.loader`: the same for the bytes of a file.

A key must not stand twice in a mapping that has nothing merged into it, and a sequence that is a
key is a tuple. A set is written as a mapping, of which it has the keys, and an ordered map as a sequence
of mappings with one entry each, in which a sequence is no key.
-/

namespace Btf.Yaml

/-- What a node is made into: a value, or a collection of nodes, in which a node that stands inside
of itself is missing. -/
inductive Made
  | value (v : Value)
  | sequence (items : List (Option NodeId))
  | pairs (entries : List (Option NodeId × Option NodeId))
  | orderedMap (entries : List (Value × Option NodeId))
  | set (elements : List Value)
  | mapping (entries : List (Value × Option NodeId))
  deriving Repr

/-- What has been made of the nodes so far: `begun` are the nodes that are being made, `waiting` are
the collections that have not been filled, `atOnce` says that collections do not wait now, and
`merged` are the mappings into which others have been put. -/
structure Building where
  edition : Edition
  nodes : Array Node
  made : Array (Option Made)
  begun : List NodeId := []
  waiting : List NodeId := []
  atOnce : Bool := false
  merged : List NodeId := []

abbrev Build (α : Type) := StateT Building (Except Defect) α

/-! ## Keys -/

/-- Two scalars are the same as keys; what is no number is the same as itself. -/
def sameScalar : Value → Value → Bool
  | .float .nan, .float .nan => true
  | v, w => v.equal w

/-- Two keys are the same: a key is a scalar or a tuple of scalars. -/
def sameKey : Value → Value → Bool
  | .tuple vs, .tuple ws =>
    vs.length == ws.length && (vs.zip ws).all fun (v, w) => sameScalar v w
  | v, w => sameScalar v w

/-- Put an entry into a mapping; a key that is there already keeps its place. -/
def putEntry {α : Type} (key : Value) (a : α) : List (Value × α) → List (Value × α)
  | [] => [(key, a)]
  | (k, b) :: es => if sameKey k key then (k, a) :: es else (k, b) :: putEntry key a es

namespace Building

/-- The value that a node inside of the nodes `outer` has been made into so far; a node inside of
itself is null. -/
def read (b : Building) : (fuel : Nat) → (outer : List NodeId) → Option NodeId → Value
  | fuel + 1, outer, some id =>
    if outer.contains id then .null
    else
      let part := b.read fuel (id :: outer)
      match (b.made[id]?).join with
      | none => .null
      | some (.value v) => v
      | some (.sequence items) => .list (items.map part)
      | some (.pairs entries) => .list (entries.map fun e => .tuple [part e.1, part e.2])
      | some (.orderedMap entries) => .orderedMap (entries.map fun e => (e.1, part e.2))
      | some (.set vs) => .set vs
      | some (.mapping entries) => .map (entries.map fun e => (e.1, part e.2))
  | _, _, _ => .null

/-- The value of a node; no node is nested deeper than there are nodes. -/
def valueOf (b : Building) (id : Option NodeId) : Value := b.read (b.nodes.size + 1) [] id

end Building

namespace Build

/-! ## Merge keys -/

def nodeAt (id : NodeId) : Build Node := do return (← get).nodes[id]?.getD default

def hasForm (form : Form) (id : NodeId) : Build Bool := do return (← nodeAt id).form == form

def change (id : NodeId) (f : Node → Node) : Build Unit :=
  modify fun b => { b with nodes := b.nodes.modify id f }

def entriesAt (id : NodeId) : Build (List (NodeId × NodeId)) := do
  match (← nodeAt id).content with
  | .mapping entries => return entries
  | _ => throw .malformed

/-- Put the mappings that the merge keys of a mapping name before its own entries; of several in a
sequence the first one comes last, so that it counts most. An equals sign that is a key is text. -/
def inline : (fuel : Nat) → NodeId → Build Unit
  | 0, _ => throw .malformed
  | fuel + 1, id => do
    let entries ← entriesAt id
    for (k, _) in entries do
      if ← hasForm .equals k then change k fun n => { n with form := .text }
    let merges ← entries.filterM fun e => hasForm .merge e.1
    if merges.isEmpty then return
    let own ← entries.filterM fun e => do return !(← hasForm .merge e.1)
    change id fun n => { n with content := .mapping own }
    let part (i : NodeId) : Build (List (NodeId × NodeId)) := do
      let _ ← entriesAt i
      inline fuel i
      entriesAt i
    let mut added : List (NodeId × NodeId) := []
    for (_, v) in merges do
      if !added.isEmpty then throw .malformed
      match (← nodeAt v).content with
      | .sequence items => added := (← items.mapM part).reverse.flatten
      | _ => added ← part v
    if !added.isEmpty then
      change id fun n => { n with content := .mapping (added ++ own) }
      modify fun b => { b with merged := id :: b.merged }

/-! ## Making and filling -/

def keyOf : Value → Except Defect Value
  | .list vs => .ok (.tuple vs)
  | .map _ | .orderedMap _ | .set _ => .error .malformed
  | v => .ok v

/-- A key has to have a hash. -/
def checkKey (key : Value) : Except Defect Unit :=
  match key.digest? with
  | .ok _ => .ok ()
  | .error u => .error (.unhashable u)

/-- The text of a node that is taken for a scalar. A mapping has that of the value of its equals
sign. -/
def textAt : (fuel : Nat) → NodeId → Build Text
  | 0, _ => throw .malformed
  | fuel + 1, id => do
    match (← nodeAt id).content with
    | .scalar t => return t
    | .sequence _ => throw .malformed
    | .mapping entries =>
      match ← entries.findM? fun e => hasForm .equals e.1 with
      | some (_, v) => textAt fuel v
      | none => throw .malformed

/-- The two nodes of a mapping with one entry. -/
def pairAt (id : NodeId) : Build (NodeId × NodeId) := do
  match ← entriesAt id with
  | [pair] => return pair
  | _ => throw .malformed

/-- Keep what a node has been made into. -/
def keep (id : NodeId) (m : Made) : Build Unit :=
  modify fun b => { b with made := b.made.setIfInBounds id (some m) }

mutual

/-- Make a node; `atOnce` asks for it and all nodes in it to be filled at once. A node that is being
made is missing. -/
def make : (fuel : Nat) → (atOnce : Bool) → NodeId → Build (Option NodeId)
  | 0, _, _ => throw .malformed
  | fuel + 1, atOnce, id => do
    let b ← get
    if (b.made[id]?.join).isSome then return some id
    if atOnce then set { b with atOnce := true }
    if b.begun.contains id then return none
    modify fun b => { b with begun := id :: b.begun }
    match (← nodeAt id).form with
    | .sequence | .pairs => collection fuel id (.sequence [])
    | .orderedMap => collection fuel id (.orderedMap [])
    | .set => collection fuel id (.set [])
    | .mapping => collection fuel id (.mapping [])
    | form =>
      let t ← textAt (b.nodes.size + 1) id
      keep id (.value (← scalarValue b.edition form t))
    modify fun c => { c with
      begun := c.begun.erase id
      atOnce := if atOnce then b.atOnce else c.atOnce }
    return some id

/-- Make a collection, which is empty while it waits. -/
def collection : (fuel : Nat) → NodeId → Made → Build Unit
  | 0, _, _ => throw .malformed
  | fuel + 1, id, empty => do
    if (← get).atOnce then fill fuel id
    else
      keep id empty
      modify fun b => { b with waiting := b.waiting ++ [id] }

/-- Fill a collection. -/
def fill : (fuel : Nat) → NodeId → Build Unit
  | 0, _ => throw .malformed
  | fuel + 1, id => do
    match ← nodeAt id with
    | { form := .sequence, content := .sequence items } =>
      keep id (.sequence (← items.mapM (make fuel false)))
    | { form := .pairs, content := .sequence items } =>
      keep id (.pairs (← items.mapM fun i => do
        let (k, v) ← pairAt i
        let key ← make fuel false k
        return (key, ← make fuel false v)))
    | { form := .orderedMap, content := .sequence items } =>
      keep id (.orderedMap (← orderedEntries fuel items []))
    | { form := .sequence, .. } | { form := .pairs, .. } | { form := .orderedMap, .. } =>
      throw .malformed
    | { form := form, .. } =>
      inline ((← get).nodes.size + 1) id
      let checked := !(← get).merged.contains id
      let es ← entries fuel checked (← entriesAt id) []
      keep id (if form = .set then .set (es.map Prod.fst) else .mapping es)

/-- The entries of a mapping after those that are done; if that is `checked`, no key stands
twice. -/
def entries : (fuel : Nat) → (checked : Bool) → List (NodeId × NodeId) →
    List (Value × Option NodeId) → Build (List (Value × Option NodeId))
  | 0, _, _, _ => throw .malformed
  | _ + 1, _, [], done => return done
  | fuel + 1, checked, (k, v) :: rest, done => do
    let id ← make fuel true k
    let key ← keyOf ((← get).valueOf id)
    let item ← make fuel false v
    checkKey key
    if checked && done.any fun e => sameKey e.1 key then throw .malformed
    entries fuel checked rest (putEntry key item done)

/-- The entries of an ordered map after those that are done; no key stands twice. -/
def orderedEntries : (fuel : Nat) → List NodeId → List (Value × Option NodeId) →
    Build (List (Value × Option NodeId))
  | 0, _, _ => throw .malformed
  | _ + 1, [], done => return done
  | fuel + 1, i :: rest, done => do
    let (k, v) ← pairAt i
    let id ← make fuel false k
    let key := (← get).valueOf id
    checkKey key
    if done.any fun e => sameKey e.1 key then throw .repeatedKey
    let item ← make fuel false v
    orderedEntries fuel rest (done ++ [(key, item)])

end

/-- Fill the collections that wait, in their order, with those that come to wait meanwhile. -/
def fillWaiting (fuel : Nat) : (turns : Nat) → Build Unit
  | 0 => return
  | turns + 1 => do
    match (← get).waiting with
    | [] => return
    | id :: waiting =>
      modify fun b => { b with waiting }
      fill fuel id
      fillWaiting fuel turns

def document (root : NodeId) : Build Value := do
  let nodes := (← get).nodes
  let size := nodes.foldl (fun n node => n + 1 + match node.content with
    | .scalar _ => 0
    | .sequence items => items.length
    | .mapping entries => entries.length) 1
  let fuel := 8 * size * size
  let id ← make fuel false root
  fillWaiting fuel size
  return (← get).valueOf id

end Build

/-- **The value of a text**, or the defect that it has; a text without a document is null. -/
def load (t : Text) : Except Defect Value := do
  match ← compose t with
  | (none, _) => return .null
  | (some root, nodes, edition) =>
    let made := Array.replicate nodes.size none
    let (v, _) ← (Build.document root).run { edition, nodes, made }
    return v

/-- **The value of the bytes of a file**, which hold a text. -/
def loader (bytes : Bytes) : Except Defect Value :=
  match Text.decode "utf-8" "strict" bytes.toList with
  | .ok t => load t
  | .error _ => .error .malformed

end Btf.Yaml
