import Btf.Text

/-!
# Dates and times

A date of the calendar from year 1 to year 9999, which may have a time of the day.

* `Clock`, `Timestamp`: times of the day and dates;
* `Timestamp.make`: **a date whose parts are all in their range**;
* `Timestamp.shift`: a time some seconds later or earlier;
* `Timestamp.text`, `Timestamp.written`: a date in a running text, and as it would be written down.
-/

namespace Btf

/-- A time of the day. -/
structure Clock where
  hour : Nat
  minute : Nat
  second : Nat
  microsecond : Nat
  deriving DecidableEq, Repr

/-- A date, which may have a time of the day. -/
structure Timestamp where
  year : Nat
  month : Nat
  day : Nat
  clock : Option Clock := none
  deriving DecidableEq, Repr

/-- Which part of a date is out of its range, or that a shift leaves the calendar. -/
inductive TimestampFault
  | year (n : Nat)
  | month
  | day
  | hour
  | minute
  | second
  | shift
  deriving DecidableEq, Repr

def TimestampFault.message : TimestampFault → Text
  | year n => "year " ++ Text.decimal n ++ " is out of range"
  | month => "month must be in 1..12"
  | day => "day is out of range for month"
  | hour => "hour must be in 0..23"
  | minute => "minute must be in 0..59"
  | second => "second must be in 0..59"
  | shift => "date value out of range"

namespace Timestamp

def lastYear : Nat := 9999

/-- Every fourth year is a leap year, of the hundredth ones only every fourth. -/
def isLeap (year : Nat) : Bool := year % 4 == 0 && (year % 100 != 0 || year % 400 == 0)

def monthLength (year : Nat) : Nat → Nat
  | 2 => if isLeap year then 29 else 28
  | 4 | 6 | 9 | 11 => 30
  | _ => 31

/-- A time of the day is in its range. -/
def checkClock (c : Clock) : Except TimestampFault Unit :=
  if 23 < c.hour then .error .hour
  else if 59 < c.minute then .error .minute
  else if 59 < c.second then .error .second
  else .ok ()

/-- **A date whose parts are all in their range**; the first part that is not is told. -/
def make (t : Timestamp) : Except TimestampFault Timestamp := do
  if t.year = 0 ∨ lastYear < t.year then throw (.year t.year)
  else if t.month = 0 ∨ 12 < t.month then throw .month
  else if t.day = 0 ∨ monthLength t.year t.month < t.day then throw .day
  else
    match t.clock with
    | some c => checkClock c
    | none => pure ()
    return t

/-! ## Shifts -/

def nextDay (t : Timestamp) : Except TimestampFault Timestamp :=
  if t.day < monthLength t.year t.month then .ok { t with day := t.day + 1 }
  else if t.month < 12 then .ok { t with month := t.month + 1, day := 1 }
  else if t.year < lastYear then .ok { t with year := t.year + 1, month := 1, day := 1 }
  else .error .shift

/-- The same time of the day before. -/
def previousDay (t : Timestamp) : Except TimestampFault Timestamp :=
  if 1 < t.day then .ok { t with day := t.day - 1 }
  else if 1 < t.month then
    .ok { t with month := t.month - 1, day := monthLength t.year (t.month - 1) }
  else if 1 < t.year then .ok { t with year := t.year - 1, month := 12, day := 31 }
  else .error .shift

/-- A step from day to day, taken `n` times. -/
def walk (step : Timestamp → Except TimestampFault Timestamp) :
    Nat → Timestamp → Except TimestampFault Timestamp
  | 0, t => .ok t
  | n + 1, t => step t >>= walk step n

/-- The same time some days later or earlier. -/
def shiftDays (days : Int) (t : Timestamp) : Except TimestampFault Timestamp :=
  if days < 0 then walk previousDay days.natAbs t else walk nextDay days.natAbs t

def dayLength : Int := 86400

/-- **A time some seconds later or earlier**; a date without a time stays. -/
def shift (seconds : Int) (t : Timestamp) : Except TimestampFault Timestamp :=
  match t.clock with
  | none => .ok t
  | some c =>
    let total : Int := 3600 * c.hour + 60 * c.minute + c.second + seconds
    let rest := (total % dayLength).toNat
    let clock : Clock :=
      { hour := rest / 3600, minute := rest / 60 % 60, second := rest % 60,
        microsecond := c.microsecond }
    shiftDays (total / dayLength) { t with clock := some clock }

/-! ## Texts -/

/-- A number with zeros before it that fill a width. -/
def padded (width n : Nat) : Text :=
  let digits := Text.decimal n
  List.replicate (width - digits.length) (charPoint '0') ++ digits

def text (t : Timestamp) : Text :=
  let date := padded 4 t.year ++ "-" ++ padded 2 t.month ++ "-" ++ padded 2 t.day
  match t.clock with
  | none => date
  | some c =>
    let fraction : Text := if c.microsecond = 0 then [] else "." ++ padded 6 c.microsecond
    date ++ " " ++ padded 2 c.hour ++ ":" ++ padded 2 c.minute ++ ":" ++ padded 2 c.second ++
      fraction

def typeName (t : Timestamp) : String := if t.clock.isSome then "datetime" else "date"

/-- The numbers with which a date is written down; a time ends before the parts that are zero. -/
def parts (t : Timestamp) : List Nat :=
  [t.year, t.month, t.day] ++ match t.clock with
    | none => []
    | some c =>
      [c.hour, c.minute] ++
        (if c.microsecond ≠ 0 then [c.second, c.microsecond]
          else if c.second ≠ 0 then [c.second] else [])

def area : Text := "datetime."

/-- A date as it would be written down. -/
def written (t : Timestamp) : Text :=
  area ++ (t.typeName : Text) ++ "(" ++
    Text.joined ", " (t.parts.map fun (n : Nat) => Text.decimal n) ++ ")"

end Timestamp

end Btf
