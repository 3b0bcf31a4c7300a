import Btf.Component
import Btf.Text.Quoted
import Btf.Value

/-!
# The written form of values

How values look in messages, in logs and in the text of a configuration.

* `Value.written`: a value as it would be written down, with text between quotes;
* `Value.shown`: the same, but text and dates alone stand as they are;
* `Value.typeLabel`: the type of a value.
-/

namespace Btf.Value

/-- Texts between brackets, separated by commas. -/
def bracketed (opening closing : Text) (ts : List Text) : Text :=
  opening ++ Text.joined ", " ts ++ closing

/-- Elements between parentheses; one alone has a comma after it. -/
def parenthesised : List Text → Text
  | [t] => "(" ++ t ++ ",)"
  | ts => bracketed "(" ")" ts

def fieldTexts : List String → List Text → List Text
  | f :: fs, t :: ts => ((f : Text) ++ "=" ++ t) :: fieldTexts fs ts
  | _, _ => []

mutual

/-- **A value as it would be written down.** -/
def written : Value → Text
  | null => "None"
  | bool b => if b then "True" else "False"
  | int n => Text.decimal n
  | float x => x.text
  | str t => t.quoted
  | bytes bs => Text.quotedBytes bs
  | list vs => bracketed "[" "]" (writtenAll vs)
  | tuple vs => parenthesised (writtenAll vs)
  | set [] => "set()"
  | set vs => bracketed "\x7b" "\x7d" (writtenAll vs)
  | map es => bracketed "\x7b" "\x7d" (writtenEntries es)
  | orderedMap [] => "ordereddict()"
  | orderedMap es => bracketed "ordereddict([" "])" (writtenPairs es)
  | timestamp t => t.written
  | record c id vs =>
    let fields := if c.hasId then written id :: writtenAll vs else writtenAll vs
    (c.name : Text) ++ bracketed "(" ")" (fieldTexts c.fields fields)

def writtenAll : List Value → List Text
  | [] => []
  | v :: vs => written v :: writtenAll vs

def writtenEntries : List (Value × Value) → List Text
  | [] => []
  | (k, v) :: es => (written k ++ ": " ++ written v) :: writtenEntries es

def writtenPairs : List (Value × Value) → List Text
  | [] => []
  | (k, v) :: es => parenthesised [written k, written v] :: writtenPairs es

end

/-- A value in a running text. -/
def shown : Value → Text
  | str t => t
  | timestamp t => t.text
  | v => v.written

/-- The area under which the type of ordered maps is filed. -/
def orderedMapArea : Text := "ruamel.yaml.compat."

/-- The name of the type of a value, with the area it is filed under. -/
def typeLabel : Value → Text
  | orderedMap es => orderedMapArea ++ ((orderedMap es).typeName : Text)
  | timestamp t => Timestamp.area ++ (t.typeName : Text)
  | v => Component.qualified v.typeName

end Btf.Value
