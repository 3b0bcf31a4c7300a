import Btf.Log
import Btf.Text.Utf8

/-!
# Files

A blob can come from a file, which is mapped into memory or, where that fails, read as a whole.

* `Node`, `Folder`: what a working directory holds;
* `Folder.normalised`, `Folder.find`: paths and what they lead to;
* `MapFailure`: why a file cannot be mapped;
* `Folder.openFile`: **a blob from a file**, with the cursor at its start.
-/

namespace Btf

/-- What a name in a directory stands for; other directories are empty. -/
inductive Node
  | file (bytes : Bytes)
  | folder
  deriving DecidableEq, Repr

/-- The names in the working directory. -/
abbrev Folder := List (Text × Node)

/-- Where the walk along a path has come to: `above` is a directory outside of the working
directory, of which nothing is known. -/
inductive Place
  | here
  | above
  | inside
  | atFile (bytes : Bytes)
  deriving DecidableEq, Repr

namespace Folder

/-- The most bytes that a name in a directory has. -/
def nameLimit : Nat := 255

/-- The number of bytes from which on a path is too long. -/
def pathLimit : Nat := 4096

/-- The slash between the parts of a path. -/
def slash : CodePoint := charPoint '/'

/-- The parts of a path between its slashes. -/
def parts (path : Text) : List Text := path.splitOn slash

/-- A path without superfluous slashes and parts; two slashes at its start, and no more, are kept. -/
def normalised (path : Text) : Text :=
  let lead := (path.takeWhile (· = slash)).length
  let root := List.replicate (if lead = 2 then 2 else min lead 1) slash
  let rest := (parts path).filter fun p => p ≠ [] && p ≠ Text.ofString "."
  let whole := root ++ Text.joined [slash] rest
  if whole.isEmpty then "." else whole

/-- Follow one part of `path`. -/
def step (folder : Folder) (path : Text) (place : Place) (part : Text) :
    Except SourceFault Place :=
  match place with
  | .atFile _ => .error (.notDirectory path)
  | place =>
    if part = [] ∨ part = Text.ofString "." then .ok place
    else if part = Text.ofString ".." then
      .ok (if place = .inside then .here else .above)
    else if nameLimit < (Utf8.encode part).length then .error (.nameTooLong path)
    else
      match place, folder.lookup part with
      | .here, some (.file bytes) => .ok (.atFile bytes)
      | .here, some .folder => .ok .inside
      | _, _ => .error (.noSuchFile path)

/-- The bytes of the file that a path leads to. -/
def find (folder : Folder) (path : Text) : Except SourceFault Bytes := do
  if path.hasNul then throw .nulInPath
  if path = [] then throw (.noSuchFile path)
  if pathLimit ≤ (Utf8.encode path).length then throw (.nameTooLong path)
  let start : Place := if path.head? = some slash then .above else .here
  match ← (parts path).foldlM (step folder path) start with
  | .atFile bytes => return bytes
  | _ => throw (.isDirectory path)

end Folder

/-- Why a file cannot be mapped: it is refused for some reason, or there is no memory. -/
inductive MapFailure
  | refused (reason : Text)
  | outOfMemory
  deriving DecidableEq, Repr

namespace MapFailure

def denied : MapFailure := refused "[Errno 13] Permission denied"

/-- The failure of a file that is no ordinary one. -/
def unmappable : MapFailure := refused "cannot map"

/-- The reason that the log gives when the file is read instead; without memory it is not. -/
def reason? : MapFailure → Option Text
  | refused reason => some reason
  | outOfMemory => none

end MapFailure

namespace Folder

/-- How the bytes of a file come to be held. A file without bytes is never mapped. -/
def hold (path : Text) (bytes : Bytes) (map : Bool) (failure : Option MapFailure) :
    Logged SourceFault Holding :=
  if map = false ∨ bytes.isEmpty then return .memory
  else
    match failure with
    | none => return .mapped
    | some f =>
      match f.reason? with
      | some reason => do
        Logged.note (.unmappable path reason)
        return .memory
      | none => throw .outOfMemory

/-- **A blob from a file**, with the cursor at its start. -/
def openFile (folder : Folder) (path : Text) (map : Bool) (failure : Option MapFailure) :
    Logged SourceFault (Source × Cursor) := do
  let bytes ← Logged.lift (folder.find path)
  let holding ← hold path bytes map failure
  Logged.note (.opened path bytes.size (holding == .mapped))
  return ({ bytes, path := some path }, { holding })

end Folder

end Btf
