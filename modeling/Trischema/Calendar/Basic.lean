/-!
Civil dates and moments. A moment is a date and a time of day to the microsecond, with or without a
distance from universal time; two moments with a distance are ordered by the instant that they name.
-/

namespace Trischema

/-- A day of the Gregorian calendar. -/
structure Date where
  year : Nat
  month : Nat
  day : Nat
  deriving DecidableEq, Repr, Inhabited

namespace Date

def isLeap (year : Nat) : Bool :=
  year % 4 = 0 && (year % 100 ≠ 0 || year % 400 = 0)

def daysInMonth (year month : Nat) : Nat :=
  if month = 2 then (if isLeap year then 29 else 28)
  else if month = 4 ∨ month = 6 ∨ month = 9 ∨ month = 11 then 30
  else 31

/-- Days from 1 January of year 1 to 1 January of `year`. -/
def daysBeforeYear (year : Nat) : Nat :=
  let y := year - 1
  y * 365 + y / 4 - y / 100 + y / 400

def daysBeforeMonth (year month : Nat) : Nat :=
  (List.range (month - 1)).foldl (fun n m => n + daysInMonth year (m + 1)) 0

/-- The number of a day, counted from 1 for 1 January of year 1. -/
def ordinal (d : Date) : Nat := daysBeforeYear d.year + daysBeforeMonth d.year d.month + d.day

/-- The day of a year with the given distance from 1 January. -/
def ofDayOfYear (year days : Nat) : Date :=
  let month := (List.range 12).foldl (fun m k => if daysBeforeMonth year (k + 1) ≤ days then k + 1 else m) 1
  ⟨year, month, days - daysBeforeMonth year month + 1⟩

/-- The day with the given distance from 1 January of `year`, in that year or a neighbour of it. -/
def ofYearOffset (year : Nat) (days : Int) : Date :=
  let length := if isLeap year then 366 else 365
  if days < 0 then
    let before := if isLeap (year - 1) then 366 else 365
    ofDayOfYear (year - 1) (before + days).toNat
  else if days ≥ length then ofDayOfYear (year + 1) (days - length).toNat
  else ofDayOfYear year days.toNat

end Date

/-- A date and a time of day; `offset` is the distance from universal time in microseconds. -/
structure Moment where
  date : Date
  hour : Nat
  minute : Nat
  second : Nat
  microsecond : Nat
  offset : Option Int
  deriving DecidableEq, Repr, Inhabited

namespace Moment

/-- Microseconds from the start of the calendar, by the clock on the wall. -/
def wall (m : Moment) : Int :=
  (((m.date.ordinal * 24 + m.hour) * 60 + m.minute) * 60 + m.second) * 1000000 + m.microsecond

/-- The instant of a moment, in microseconds of universal time where its offset is known. -/
def instant (m : Moment) : Int := m.wall - m.offset.getD 0

/-- Moments compare only when both or neither know their offset. -/
def comparable (a b : Moment) : Bool := a.offset.isSome == b.offset.isSome

/-- Two moments are the same when they are comparable and name one instant. -/
def sameInstant (a b : Moment) : Bool := a.comparable b && a.instant == b.instant

def compare? (a b : Moment) : Option Ordering :=
  if a.comparable b then some (compare a.instant b.instant) else none

end Moment

instance : Ord Date := ⟨fun a b => compare a.ordinal b.ordinal⟩

end Trischema
