import Btf.Config.Schema
import Btf.Log

/-!
# Layered configurations

A configuration is a stack of named layers, each of which gives values to some keys. The value of a
key comes from the first layer that has one. A new layer goes to the front, or to the back if it is
a fallback; adding to a layer that is there changes its values and not its place.

* `Layer`, `ConfigKind`, `Config`: layers, and what configurations of one kind have in common;
* `Config.addLayer`: values are checked first, so that a failure changes nothing;
* `Config.layerOf`, `Config.getFrom`, `Config.get`: where a value comes from, and the value;
* `Config.make`: a configuration with its default layer;
* `Config.effective`: the values of all keys.
-/

namespace Btf

/-- A named layer and the values it has. -/
structure Layer where
  name : Text
  entries : List (Text × Value)
  deriving Repr

namespace Layer

/-- Give a value to a key. -/
def put (key : Text) (v : Value) : List (Text × Value) → List (Text × Value)
  | [] => [(key, v)]
  | (k, w) :: es => if k = key then (k, v) :: es else (k, w) :: put key v es

def get? (l : Layer) (key : Text) : Option Value := l.entries.lookup key

/-- Give values to keys, one after the other. -/
def update (l : Layer) (entries : List (Text × Value)) : Layer :=
  { l with entries := entries.foldl (fun es e => put e.1 e.2 es) l.entries }

end Layer

/-- What configurations of one kind have in common: the name in the log, the schema and the values
of the default layer. -/
structure ConfigKind where
  name : Text
  schema : Schema
  defaults : Value := .map []
  deriving Repr

/-- A configuration: its layers, the one that counts most first. -/
structure Config where
  kind : ConfigKind
  layers : List Layer := []
  deriving Repr

namespace Config

def textEntries (entries : List (Value × Value)) : List (Text × Value) :=
  entries.filterMap fun
    | (.str k, v) => some (k, v)
    | _ => none

/-- Give values to the layer of a name, which is added if there is none. -/
def putLayer (name : Text) (entries : List (Text × Value)) (fallback : Bool)
    (layers : List Layer) : List Layer :=
  if layers.any fun l => l.name = name then
    layers.map fun l => if l.name = name then l.update entries else l
  else
    let layer := Layer.update ⟨name, []⟩ entries
    if fallback then layers ++ [layer] else layer :: layers

/-- What a value says as a configuration: null says nothing, and null values can be left out. -/
def entriesOf (v : Value) (dropNull : Bool) : Except ConfigFault Value :=
  let v := match v with
    | .null => .map []
    | v => v
  if dropNull then
    match v.entries? with
    | some es => .ok (.map (es.filter fun e => match e.2 with
      | .null => false
      | _ => true))
    | none => .error (.noEntries v)
  else .ok v

/-- **Give the values in `v` to the layer of a name.** -/
def addLayer (c : Config) (name : Text) (v : Value) (dropNull fallback : Bool) :
    Logged ConfigFault Config := do
  let entries ← Logged.lift (do c.kind.schema.validate (← entriesOf v dropNull))
  Logged.note (.layerAdded c.kind.name name entries)
  return { c with layers := putLayer name (textEntries entries) fallback c.layers }

/-- The name of the layer that a configuration begins with. -/
def userLayer : Text := "user"

/-- The name of the layer with the values of the kind. -/
def defaultLayer : Text := "default"

/-- A configuration of a kind with the values in `v`, and with the default layer unless that has no
values or is not wanted. -/
def make (kind : ConfigKind) (v : Value) (name : Text) (withDefaults : Bool) :
    Logged ConfigFault Config := do
  let c ← addLayer { kind } name v false false
  if withDefaults && kind.defaults.isTrue then c.addLayer defaultLayer kind.defaults false true
  else return c

/-! ## Questions -/

/-- The first layer that has a value for a key of the schema. -/
def firstLayer? (c : Config) (key : Text) : Option Layer :=
  c.layers.find? fun l => (l.get? key).isSome

/-- The name of a key with that of the schema before it. -/
def fullName (c : Config) (key : Text) : Text := c.kind.schema.name ++ "/" ++ key

/-- **The layer that the value of a key comes from.** -/
def layerOf (c : Config) (key : Text) : Except ConfigFault Text := do
  let k ← c.kind.schema.lookup (.str key)
  match c.firstLayer? key with
  | some l => return l.name
  | none => throw (.noLayer (c.fullName k.name))

def getFrom (c : Config) (layer key : Text) : Except ConfigFault Value := do
  let k ← c.kind.schema.lookup (.str key)
  match (c.layers.find? fun l => l.name = layer).bind fun l => l.get? key with
  | some v => return v
  | none => throw (.notInLayer (c.fullName k.name) layer)

/-- **The value of a key.** -/
def get (c : Config) (key : Text) : Except ConfigFault Value := do
  c.getFrom (← c.layerOf key) key

/-- The value of a key after something has been appended to a copy of it, which has to be a list. -/
def getAppended (c : Config) (key : Text) : Except ConfigFault Value := do
  match ← c.get key with
  | .list _ => c.get key
  | v => throw (.notList v)

/-- The keys that have a value, in the order of the schema. -/
def keys (c : Config) : List Text :=
  c.kind.schema.keyNames.filter fun k => (c.firstLayer? k).isSome

/-- The keys that have a value, with it and with the layer it comes from. -/
def effective (c : Config) : List (Text × Value × Text) :=
  c.kind.schema.keyNames.filterMap fun k =>
    (c.firstLayer? k).bind fun l => (l.get? k).map fun v => (k, v, l.name)

/-- The keys that have a value, and their values, as a mapping. -/
def toMap (c : Config) : Value := .map (c.effective.map fun (k, v, _) => (.str k, v))

/-- The keys that have a value, one a line. -/
def text (c : Config) : Text :=
  Text.joined "\n" (c.effective.map fun (k, v, layer) =>
    k ++ ": " ++ v.shown ++ " (from \"" ++ layer ++ "\")")

/-- A configuration of the same kind with the values of a mapping. -/
def ofMap (kind : ConfigKind) (v : Value) (withDefaults : Bool) : Logged ConfigFault Config :=
  make kind v userLayer withDefaults

/-- The configuration in a document, under the name of the schema; a false value there says
nothing. -/
def ofDocument (kind : ConfigKind) (document : Value) (withDefaults : Bool) :
    Logged ConfigFault Config :=
  match document.entries? with
  | some es =>
    match Value.lookupEntry (.str kind.schema.name) es with
    | some v => ofMap kind (if v.isTrue then v else .map []) withDefaults
    | none => throw (.noTopLevel kind.schema.name)
  | none => throw (.notDocument document)

end Config

end Btf
