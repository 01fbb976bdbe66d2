import Trischema.Calendar.Text
import Trischema.Number.Reading

/-!
Reading dates and moments in the interchange form and in its compact and week-based variants. Every
refusal names its cause: the text has none of the accepted shapes, or one of its fields is out of range.
-/

namespace Trischema

/-- Why a text is not a date or a moment. -/
inductive CalendarFault
  | shape
  | year (n : Nat)
  | month
  | day
  | hour
  | minute
  | second
  | offset (micros : Int)
  deriving DecidableEq, Repr

namespace Calendar

/-- Reads exactly `n` digits and returns the rest. -/
def digits? (n : Nat) (cs : List Char) : Option (Nat × List Char) :=
  let ds := cs.take n
  if ds.length = n ∧ ds.all Char.isDigit then some (digitsValue ds, cs.drop n) else none

/-- The Monday of the first week of a year, as a distance in days from its 1 January. -/
def firstMonday (year : Nat) : Int :=
  let weekday := (Date.daysBeforeYear year + 7) % 7
  if weekday > 3 then 7 - weekday else -(weekday : Int)

/-- Years with a week 53 begin on a Thursday, or are leap years that begin on a Wednesday. -/
def hasLongCount (year : Nat) : Bool :=
  let first := (Date.daysBeforeYear year + 1) % 7
  first == 4 || (first == 3 && Date.isLeap year)

/-- The day of a numbered week. -/
def ofWeek? (year week day : Nat) : Option Date :=
  if year < 1 ∨ year > 9999 then none
  else if week < 1 ∨ week > 53 ∨ (week = 53 ∧ ¬ hasLongCount year) then none
  else if day < 1 ∨ day > 7 then none
  else
    let d := Date.ofYearOffset year (firstMonday year + ((week - 1) * 7 + (day - 1) : Nat))
    if d.year < 1 ∨ d.year > 9999 then none else some d

/-- A text as its bytes, each as the character of that number. Lengths and positions are counted in
bytes. -/
def octets (s : String) : List Char := s.toUTF8.toList.map fun b => Char.ofNat b.toNat

/-- How many bytes the character has that begins with `c`. -/
def octetCount (c : Char) : Nat :=
  if c.toNat < 0x80 then 1 else if c.toNat ≥ 0xF0 then 4 else if c.toNat ≥ 0xE0 then 3 else 2

/-- Reads the date fields of a text whose date part has `len` bytes; what follows them is passed over. -/
def dateFields? (cs : List Char) (len : Nat) : Option Date := do
  let (year, rest) ← digits? 4 cs
  let dashed := rest.head? == some '-'
  let rest := if dashed then rest.drop 1 else rest
  match rest with
  | 'W' :: rest =>
    let (week, rest) ← digits? 2 rest
    if cs.length - rest.length < len then
      let rest ← if dashed then (if rest.head? == some '-' then some (rest.drop 1) else none) else some rest
      let (day, _) ← digits? 1 rest
      ofWeek? year week day
    else ofWeek? year week 1
  | _ =>
    let (month, rest) ← digits? 2 rest
    let rest ← if dashed then (if rest.head? == some '-' then some (rest.drop 1) else none) else some rest
    let (day, _) ← digits? 2 rest
    some ⟨year, month, day⟩

/-- Refuses a date whose fields are out of range. -/
def checkDate (d : Date) : Except CalendarFault Date :=
  if d.year < 1 ∨ d.year > 9999 then .error (.year d.year)
  else if d.month < 1 ∨ d.month > 12 then .error .month
  else if d.day < 1 ∨ d.day > Date.daysInMonth d.year d.month then .error .day
  else .ok d

/-- The length of the date part of a text that starts with a date. -/
def dateLength (cs : List Char) : Option Nat :=
  let len := cs.length
  let isDigitAt (i : Nat) : Bool := (cs[i]?.map Char.isDigit).getD false
  if len < 7 then none
  else if len = 7 then some 7
  else if cs[4]? = some '-' then
    if cs[5]? = some 'W' then
      if len > 8 ∧ cs[8]? = some '-' then
        if len = 9 then none else if len > 10 ∧ isDigitAt 10 then some 8 else some 10
      else some 8
    else some 10
  else if cs[4]? = some 'W' then
    let stop := 7 + ((cs.drop 7).takeWhile Char.isDigit).length
    if stop < 9 then some stop else if stop % 2 = 0 then some 7 else some 8
  else some 8

/-- A time of day as read, with whether characters were left over. -/
structure ClockFields where
  hour : Nat := 0
  minute : Nat := 0
  second : Nat := 0
  microsecond : Nat := 0
  leftover : Bool := false

namespace ClockFields

def set (c : ClockFields) (field n : Nat) : ClockFields :=
  match field with
  | 0 => { c with hour := n }
  | 1 => { c with minute := n }
  | _ => { c with second := n }

end ClockFields

/-- Reads a fraction of a second: at most six digits count, further ones are passed over. -/
def fraction? (c : ClockFields) (follows : Bool) (cs : List Char) : Option ClockFields :=
  let n := min 6 cs.length
  match digits? n cs with
  | none => none
  | some (value, rest) =>
    let rest := rest.dropWhile Char.isDigit
    some { c with microsecond := value * Nat.pow 10 (6 - n), leftover := !rest.isEmpty || follows }

/-- Reads hours, minutes and seconds from field number `3 - fields` on. The first separator decides
whether the fields are separated by colons; `follows` says that a zone comes after the text. -/
def clockFrom (follows : Bool) : (fields : Nat) → (coloned : Bool) → ClockFields → List Char →
    Option ClockFields
  | 0, _, c, cs => fraction? c follows cs
  | fields + 1, coloned, c, cs => do
    let (n, rest) ← digits? 2 cs
    let c := c.set (2 - fields) n
    let coloned := if fields = 2 then rest.head? == some ':' else coloned
    match rest with
    | [] => some { c with leftover := follows }
    | [_] => some { c with leftover := true }
    | mark :: tail =>
      if coloned ∧ mark = ':' then clockFrom follows fields coloned c tail
      else if mark = '.' ∨ mark = ',' then fraction? c follows tail
      else if coloned then none
      else clockFrom follows fields coloned c rest

def isZoneMark (c : Char) : Bool := c == '+' || c == '-' || c == 'Z'

/-- The microseconds of a distance from the reference zone. One of less than a second is no distance. -/
def distance (z : ClockFields) : Int :=
  let seconds := (z.hour * 60 + z.minute) * 60 + z.second
  if seconds = 0 then 0 else seconds * 1000000 + z.microsecond

/-- Reads a time of day with an optional zone: `Z` or a signed distance. -/
def time? (cs : List Char) : Option (ClockFields × Option Int) := do
  let clock := cs.takeWhile (!isZoneMark ·)
  let zone := cs.dropWhile (!isZoneMark ·)
  let c ← clockFrom (!zone.isEmpty) 3 true {} clock
  match zone with
  | [] => if c.leftover then none else some (c, none)
  | 'Z' :: rest => if rest.isEmpty then some (c, some 0) else none
  | sign :: rest =>
    let z ← clockFrom false 3 true {} rest
    if z.leftover then none
    else some (c, some (if sign = '-' then -distance z else distance z))

end Calendar

namespace Date

/-- Reads a date that stands alone. -/
def read (s : String) : Except CalendarFault Date :=
  let cs := Calendar.octets s
  if cs.length = 7 ∨ cs.length = 8 ∨ cs.length = 10 then
    match Calendar.dateFields? cs cs.length with
    | some d => Calendar.checkDate d
    | none => .error .shape
  else .error .shape

end Date

namespace Moment

def dayMicros : Int := 86400000000

/-- Reads a moment: a date, and after one character of any kind a time of day. -/
def read (s : String) : Except CalendarFault Moment := do
  let cs := Calendar.octets s
  let some len := Calendar.dateLength cs | .error .shape
  let some d := Calendar.dateFields? cs len | .error .shape
  let (c, zone) ←
    if cs.length > len then
      let mark := ((cs[len]?).map Calendar.octetCount).getD 1
      match Calendar.time? (cs.drop (len + mark)) with
      | some r => .ok r
      | none => .error .shape
    else .ok ({}, none)
  if let some o := zone then
    if o ≤ -dayMicros ∨ o ≥ dayMicros then .error (.offset o)
  let d ← Calendar.checkDate d
  if c.hour > 23 then .error .hour
  else if c.minute > 59 then .error .minute
  else if c.second > 59 then .error .second
  else .ok ⟨d, c.hour, c.minute, c.second, c.microsecond, zone⟩

end Moment

end Trischema
