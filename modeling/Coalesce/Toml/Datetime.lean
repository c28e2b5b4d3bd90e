/-!
# Dates and times

A date-time of the manifest format is a date, a time of day, both, or both with a zone. It is kept
as the numbers it was written with and has one text: `T` between date and time, `Z` for the zone
without offset, and no more digits of a second than it needs.
-/

namespace Coalesce.Toml

/-- A day of the calendar. -/
structure Date where
  year : Nat
  month : Nat
  day : Nat
deriving DecidableEq, Repr

/-- A time of day. -/
structure Time where
  hour : Nat
  minute : Nat
  second : Nat
  nanosecond : Nat
deriving DecidableEq, Repr

/-- The zone of a date-time: the zone written `Z`, or the minutes that it is ahead. -/
inductive Zone where
  | utc
  | ahead (minutes : Int)
deriving DecidableEq, Repr

/-- A date-time; at least one of date and time is there. -/
structure Datetime where
  date? : Option Date
  time? : Option Time
  zone? : Option Zone
deriving DecidableEq, Repr

/-- The number of days of a month. -/
def daysInMonth (year month : Nat) : Nat :=
  if month = 2 then
    if (year % 4 = 0 ∧ year % 100 ≠ 0) ∨ year % 400 = 0 then 29 else 28
  else if month = 4 ∨ month = 6 ∨ month = 9 ∨ month = 11 then 30
  else 31

/-- The digits of a number with zeros in front up to a width. -/
def padded (width n : Nat) : List Char :=
  let digits := (toString n).toList
  List.replicate (width - digits.length) '0' ++ digits

/-- The digits of a list without the zeros at the end. -/
def dropTrailingZeros (digits : List Char) : List Char :=
  (digits.reverse.dropWhile (· == '0')).reverse

/-- A date as text. -/
def Date.chars (d : Date) : List Char :=
  padded 4 d.year ++ '-' :: padded 2 d.month ++ '-' :: padded 2 d.day

/-- A time as text. -/
def Time.chars (t : Time) : List Char :=
  padded 2 t.hour ++ ':' :: padded 2 t.minute ++ ':' :: padded 2 t.second ++
    if t.nanosecond = 0 then [] else '.' :: dropTrailingZeros (padded 9 t.nanosecond)

/-- A zone as text. -/
def Zone.chars : Zone → List Char
  | utc => ['Z']
  | ahead minutes =>
    (if minutes < 0 then '-' else '+') ::
      padded 2 (minutes.natAbs / 60) ++ ':' :: padded 2 (minutes.natAbs % 60)

/-- A date-time as text. -/
def Datetime.text (d : Datetime) : String :=
  let date := d.date?.elim [] Date.chars
  let between := if d.date?.isSome && d.time?.isSome then ['T'] else []
  String.ofList (date ++ between ++ d.time?.elim [] Time.chars ++ d.zone?.elim [] Zone.chars)

end Coalesce.Toml
