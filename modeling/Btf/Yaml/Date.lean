import Btf.Timestamp

/-!
# Dates in documents

How dates are spelled in documents: in numbers with hyphens between them, with or without a time,
which may say how far from the zero meridian it holds.

* `Spelled`, `spelled?`: spellings of dates;
* `timestampOf`: **the date that is spelled**, with the time at the zero meridian.
-/

namespace Btf.Yaml

def digitValue (c : Char) : Nat :=
  if c.isDigit then c.toNat - 48 else c.toLower.toNat - 87

/-- A run of `least` to `most` digits, their number, and what follows. -/
def number? (least most : Nat) (cs : List Char) : Option (Nat × List Char) :=
  let ds := (cs.take most).takeWhile Char.isDigit
  if ds.length < least then none
  else some (ds.foldl (fun n d => 10 * n + digitValue d) 0, cs.drop ds.length)

/-- What follows a character. -/
def after? (c : Char) : List Char → Option (List Char)
  | d :: cs => if d = c then some cs else none
  | [] => none

def afterSpace (cs : List Char) : List Char := cs.dropWhile fun c => c == ' ' || c == '\t'

/-- How a date is spelled: its numbers, the digits of the fraction of a second, and the distance
from the zero meridian in minutes. -/
structure Spelled where
  date : Timestamp
  fraction : List Char := []
  zone : Int := 0

/-- The distance from the zero meridian that ends a time, or nothing. -/
def zone? (cs : List Char) : Option Int :=
  let distance (sign : Int) (cs : List Char) : Option Int := do
    let (hours, cs) ← number? 1 2 cs
    match cs with
    | [] => some (sign * (60 * hours))
    | cs =>
      let (minutes, cs) ← number? 2 2 (← after? ':' cs)
      if cs.isEmpty then some (sign * (60 * hours + minutes)) else none
  match cs, afterSpace cs with
  | [], _ => some 0
  | _, ['Z'] => some 0
  | _, '+' :: cs => distance 1 cs
  | _, '-' :: cs => distance (-1) cs
  | _, _ => none

/-- A date without a time, which has two digits for the month and for the day, or `least` ones at
least. -/
def spelledDate? (least : Nat) (cs : List Char) : Option Spelled := do
  let (year, cs) ← number? 4 4 cs
  let (month, cs) ← number? least 2 (← after? '-' cs)
  let (day, cs) ← number? least 2 (← after? '-' cs)
  if cs.isEmpty then some { date := { year, month, day } } else none

/-- A date with a time, which follows a letter or space. -/
def spelledTime? (cs : List Char) : Option Spelled := do
  let (year, cs) ← number? 4 4 cs
  let (month, cs) ← number? 1 2 (← after? '-' cs)
  let (day, cs) ← number? 1 2 (← after? '-' cs)
  let cs ← match cs with
    | 't' :: cs | 'T' :: cs => some cs
    | ' ' :: cs | '\t' :: cs => some (afterSpace cs)
    | _ => none
  let (hour, cs) ← number? 1 2 cs
  let (minute, cs) ← number? 2 2 (← after? ':' cs)
  let (second, cs) ← number? 2 2 (← after? ':' cs)
  let (fraction, cs) := match cs with
    | '.' :: cs => (cs.takeWhile Char.isDigit, cs.dropWhile Char.isDigit)
    | cs => ([], cs)
  let zone ← zone? cs
  let clock : Clock := { hour, minute, second, microsecond := 0 }
  return { date := { year, month, day, clock }, fraction, zone }

def spelled? (cs : List Char) : Option Spelled := spelledDate? 1 cs <|> spelledTime? cs

/-- The spellings that are taken for dates where nothing else tells so. -/
def isTimestamp (cs : List Char) : Bool :=
  (spelledDate? 2 cs).isSome || (spelledTime? cs).isSome

/-- The millionths of a second in a fraction, of which the seventh digit rounds. -/
def millionths (fraction : List Char) : Nat :=
  let digits := (fraction ++ List.replicate 6 '0').take 6
  let n := digits.foldl (fun n d => 10 * n + digitValue d) 0
  match fraction[6]? with
  | some d => if 4 < digitValue d then n + 1 else n
  | none => n

/-- **The date that is spelled**, with the time at the zero meridian. -/
def timestampOf (s : Spelled) : Except TimestampFault Timestamp := do
  let n := millionths s.fraction
  let microsecond := if n < 1000000 then n else 0
  let date ← Timestamp.make
    { s.date with clock := s.date.clock.map fun c => { c with microsecond } }
  let date ← date.shift (-(60 * s.zone))
  if n < 1000000 then return date else date.shift 1

end Btf.Yaml
