import Btf.Decode.Section
import Btf.Log

/-!
# Type tables

The types of a blob, addressed by their identifiers. The first type has identifier one; zero is
`void` and is not in the table.

* `Table`, `Table.get?`: a decoded blob and its types;
* `UnknownId`, `Table.get`, `Table.getOr`: asking for a type by its identifier, which may be unknown;
* `Table.decode`: **the table of a blob**, from any state of its cursor.
-/

namespace Btf

/-- A decoded blob. Its types are listed in the order in which they are gone through. -/
structure Table where
  header : Header
  types : List TypeEntry
  deriving DecidableEq, Repr

/-- No type has the identifier that is asked for. -/
structure UnknownId where
  id : Int
  deriving DecidableEq, Repr

/-- The identifier, as it was asked for. -/
def UnknownId.message (e : UnknownId) : Text := Text.decimal e.id

namespace Table

def size (t : Table) : Nat := t.types.length

def get? (t : Table) (id : Int) : Option TypeEntry :=
  if 1 ≤ id then t.types[(id - 1).toNat]? else none

/-- The type with an identifier. -/
def get (t : Table) (id : Int) : Except UnknownId TypeEntry :=
  match t.get? id with
  | some e => .ok e
  | none => .error { id }

/-- The type with an identifier, or a default if there is none. -/
def getOr {α : Type} (t : Table) (id : Int) (default : α) : TypeEntry ⊕ α :=
  match t.get id with
  | .ok e => .inl e
  | .error _ => .inr default

/-- The table of a blob from the outcome of its two parts; the cursor is that of the later one. -/
def decode (options : TextOptions) (s : Source) (c : Cursor) : Logged Fault Table × Cursor :=
  match Read.layout.run s c with
  | (.error fault, c) => (throw fault, c)
  | (.ok layout, c) =>
    let names : Names := { header := layout.header, options }
    let (infos, c) := names.typeSection.run s c
    (do
      Logged.note (.layoutFound layout)
      let types := TypeEntry.numbered (← Logged.lift infos)
      Logged.note (.decoded types.length)
      return { header := layout.header, types }, c)

end Table

end Btf
