import Btf.Text.Paragraph

/-!
# Files of sections

A settings file of the logging facility has sections with a name in brackets, and in each of them
options with a name and a value. Lines that begin with a hash or a semicolon are comments. A line
that is indented further than its option goes on with the value, and empty lines in a value stay
unless they end it.

* `Sections`, `Sections.has`, `Sections.raw?`: the sections of a file and the values in them;
* `SectionReader`: the sections that have been read so far;
* `Sections.parse`: **the sections of a text**.
-/

namespace Btf

namespace Text

/-- A text without the space at its end. -/
def trimmedRight (t : Text) : Text := (t.reverse.dropWhile CodePoint.isSpace).reverse

/-- A text without the space at its ends. -/
def trimmed (t : Text) : Text := trimmedRight (t.dropWhile CodePoint.isSpace)

/-- The lines of a text: a return, with or without a line feed after it, ends one too. -/
def lines : Text → List Text
  | [] => [[]]
  | c :: t =>
    if c.val = 10 then [] :: lines t
    else if c.val = 13 then
      match t with
      | d :: t => if d.val = 10 then [] :: lines t else [] :: lines (d :: t)
      | [] => [[], []]
    else
      match lines t with
      | l :: ls => (c :: l) :: ls
      | [] => [[c]]
termination_by t => t.length

/-- ASCII letters in lower case. -/
def lower (t : Text) : Text :=
  t.map fun c => if 65 ≤ c.val ∧ c.val ≤ 90 then codePoint (c.val + 32) else c

end Text

/-- Options by name, and for each the lines of its value. -/
abbrev SectionOptions := List (Text × List Text)

abbrev Sections := List (Text × SectionOptions)

/-- Why a text has no sections. -/
inductive SectionsFault
  | malformed
  | repeatedSection (name : Text)
  | repeatedOption (name option : Text)
  deriving DecidableEq, Repr

namespace Sections

/-- The section whose options hold in all sections. -/
def common : Text := "DEFAULT"

def has (s : Sections) (name : Text) : Bool := (s.lookup name).isSome

/-- The value of an option in a section or else in all of them. -/
def raw? (s : Sections) (name option : Text) : Option Text :=
  let value (name : Text) : Option (List Text) := (s.lookup name).bind fun os => os.lookup option
  if s.has name then
    (value name <|> value common).map fun ls => (Text.joined "\n" ls).trimmedRight
  else none

end Sections

/-! ## Reading -/

/-- The sections that have been read so far: `current` is the section that lines belong to and
`option` the option whose value may go on, which is empty where there is none; `indent` is the
indentation of the line that began it. In `seen` are the sections and options that must not come
again, and `faulty` says that a line was neither. -/
structure SectionReader where
  sections : Sections := []
  current : Option Text := none
  option : Text := []
  indent : Nat := 0
  seen : List (Text × Option Text) := []
  faulty : Bool := false

namespace SectionReader

/-- Change the entry of a key, or put one at the end if there is none. -/
def alter {α : Type} (key : Text) (f : Option α → α) : List (Text × α) → List (Text × α)
  | [] => [(key, f none)]
  | (k, a) :: rest => if k = key then (k, f (some a)) :: rest else (k, a) :: alter key f rest

/-- A value is going on. -/
def isOpen (r : SectionReader) : Bool := r.current.isSome && !r.option.isEmpty

/-- Change the value of the current option. -/
def change (r : SectionReader) (f : Option (List Text) → List Text) : SectionReader :=
  match r.current with
  | none => r
  | some name =>
    { r with sections := alter name (fun os => alter r.option f (os.getD [])) r.sections }

/-- The value goes on with a line. -/
def extend (r : SectionReader) (line : Text) : SectionReader :=
  if r.isOpen then r.change fun ls => ls.getD [] ++ [line] else r

/-- The name in brackets at the beginning of a line; it goes up to the last bracket. -/
def header? (line : Text) : Option Text :=
  match line with
  | c :: rest =>
    let name := (rest.reverse.dropWhile (· ≠ charPoint ']')).tail.reverse
    if c = charPoint '[' && rest.contains (charPoint ']') && !name.isEmpty then some name else none
  | [] => none

def beginSection (r : SectionReader) (name : Text) : Except SectionsFault SectionReader :=
  if r.seen.contains (name, none) then .error (.repeatedSection name)
  else
    let seen := if name = Sections.common then r.seen else (name, none) :: r.seen
    .ok { r with
      sections := alter name (fun os => os.getD []) r.sections
      current := some name, option := [], seen }

/-- The name and the value of an option, at the first equals sign or colon of its line. -/
def option? (line : Text) : Option (Text × Text) :=
  let name := line.takeWhile fun c => c ≠ charPoint '=' && c ≠ charPoint ':'
  match line.drop name.length with
  | _ :: value => some ((Text.trimmedRight name).lower, Text.trimmed value)
  | [] => none

/-- An option begins; one without a name is a fault, but is kept. -/
def beginOption (r : SectionReader) (section_ name value : Text) :
    Except SectionsFault SectionReader :=
  if r.seen.contains (section_, some name) then .error (.repeatedOption section_ name)
  else
    let r := { r with
      option := name
      seen := (section_, some name) :: r.seen
      faulty := r.faulty || name.isEmpty }
    .ok (r.change fun _ => [value])

/-- A line that begins something. -/
def begins (r : SectionReader) (line : Text) : Except SectionsFault SectionReader :=
  match header? line, r.current, option? line with
  | some name, _, _ => r.beginSection name
  | none, none, _ => .error .malformed
  | none, some section_, some (name, value) => r.beginOption section_ name value
  | none, some _, none => .ok { r with faulty := true }

def isComment (line : Text) : Bool :=
  line.head? == some (charPoint '#') || line.head? == some (charPoint ';')

def readLine (r : SectionReader) (line : Text) : Except SectionsFault SectionReader :=
  let content := line.trimmed
  let indent := (line.takeWhile CodePoint.isSpace).length
  if isComment content then .ok r
  else if content.isEmpty then .ok (r.extend [])
  else if r.isOpen && r.indent < indent then .ok (r.extend content)
  else { r with indent }.begins content

end SectionReader

/-- **The sections of a text.** -/
def Sections.parse (t : Text) : Except SectionsFault Sections := do
  let r ← t.lines.foldlM SectionReader.readLine {}
  if t.isEmpty || r.faulty then throw .malformed else return r.sections

end Btf
