import Btf.Logging.Sections
import Btf.Text.Quoted

/-!
# References in values

In the value of an option `%(name)s` stands for the value of another option of the section, which
may hold references itself, and `%%` stands for a percent sign.

* `ReferenceFault`: a reference that cannot be resolved;
* `Sections.get?`: **the value of an option with its references resolved**.
-/

namespace Btf

/-- What is wrong with a reference. -/
inductive ReferenceDefect
  | stray (rest : Text)
  | unclosed (rest : Text)
  | missing (name : Text)
  | tooDeep
  deriving DecidableEq, Repr

/-- A reference that cannot be resolved in the value of an option. -/
structure ReferenceFault where
  name : Text
  option : Text
  raw : Text
  defect : ReferenceDefect
  deriving DecidableEq, Repr

def ReferenceFault.message (f : ReferenceFault) : Text :=
  let place := "option " ++ f.option.quoted ++ " in section " ++ f.name.quoted
  match f.defect with
  | .stray rest => "'%' must be followed by '%' or '(', found: " ++ rest.quoted
  | .unclosed rest => "bad interpolation variable reference " ++ rest.quoted
  | .missing name => "Bad value substitution: " ++ place ++ " contains an interpolation key " ++
      name.quoted ++ " which is not a valid option name. Raw value: " ++ f.raw.quoted
  | .tooDeep => "Recursion limit exceeded in value substitution: " ++ place ++
      " contains an interpolation key which cannot be substituted in 10 steps. Raw value: " ++
      f.raw.quoted

namespace Sections

/-- The name in a reference whose opening parenthesis has been read. -/
def referenceName (t : Text) : Text := t.takeWhile (· ≠ charPoint ')')

/-- A value with its references resolved by `value?`; references may lead on `levels` times. -/
def resolve (value? : Text → Option Text) :
    (levels : Nat) → Text → Except ReferenceDefect Text
  | 0, _ => .error .tooDeep
  | _ + 1, [] => .ok []
  | levels + 1, c :: t =>
    if c ≠ charPoint '%' then (resolve value? (levels + 1) t).map (c :: ·)
    else
      match t with
      | [] => .error (.stray [c])
      | d :: u =>
        if d = charPoint '%' then (resolve value? (levels + 1) u).map (d :: ·)
        else if d = charPoint '(' then
          let name := referenceName u
          let rest := u.drop name.length
          if name.isEmpty || rest.take 2 ≠ Text.ofString ")s" then .error (.unclosed (c :: t))
          else
            match value? name.lower with
            | none => .error (.missing name.lower)
            | some v => do
              let before ← if v.contains (charPoint '%') then resolve value? levels v else .ok v
              return before ++ (← resolve value? (levels + 1) (u.drop (name.length + 2)))
        else .error (.stray (c :: t))
termination_by levels t => (levels, t.length)

/-- How often references lead on. -/
def referenceLevels : Nat := 10

/-- **The value of an option with its references resolved**, none if there is no such option. -/
def get? (s : Sections) (name option : Text) : Except ReferenceFault (Option Text) :=
  match s.raw? name option with
  | none => .ok none
  | some raw => ((resolve (s.raw? name) referenceLevels raw).map some).mapError fun defect =>
      { name, option, raw, defect }

end Sections

end Btf
