import Trischema.Calendar.Basic

/-!
The written forms of dates and moments: the interchange form `2024-01-02T03:04:05.000001+05:30` and the
constructor form that messages and listings use.
-/

namespace Trischema

/-- A number in decimal, filled with zeros on the left. -/
def padded (width n : Nat) : String :=
  let digits := toString n
  String.ofList (List.replicate (width - digits.length) '0') ++ digits

namespace Date

def iso (d : Date) : String := padded 4 d.year ++ "-" ++ padded 2 d.month ++ "-" ++ padded 2 d.day

/-- The constructor form of a date. -/
def listing (d : Date) : String :=
  "datetime.date(" ++ ", ".intercalate [toString d.year, toString d.month, toString d.day] ++ ")"

end Date

namespace Moment

/-- Hours and minutes, with seconds and a six-digit fraction where they are not zero. -/
def offsetText (offset : Int) : String :=
  let n := offset.natAbs
  let seconds := n / 1000000
  let micros := n % 1000000
  let tail :=
    if micros ≠ 0 then ":" ++ padded 2 (seconds % 60) ++ "." ++ padded 6 micros
    else if seconds % 60 ≠ 0 then ":" ++ padded 2 (seconds % 60)
    else ""
  (if offset < 0 then "-" else "+") ++ padded 2 (seconds / 3600) ++ ":" ++ padded 2 (seconds / 60 % 60) ++ tail

/-- The interchange form with a chosen mark between date and time; the fraction has six digits and is
left out when it is zero. -/
def isoWith (mark : String) (m : Moment) : String :=
  m.date.iso ++ mark ++ padded 2 m.hour ++ ":" ++ padded 2 m.minute ++ ":" ++ padded 2 m.second
    ++ (if m.microsecond ≠ 0 then "." ++ padded 6 m.microsecond else "")
    ++ (match m.offset with
        | some o => offsetText o
        | none => "")

def iso (m : Moment) : String := m.isoWith "T"

/-- A length of time in the constructor form: whole days toward the past, then what is left. -/
def durationListing (micros : Int) : String :=
  let days := Int.fdiv micros 86400000000
  let rest := (micros - days * 86400000000).toNat
  let parts :=
    (if days ≠ 0 then ["days=" ++ toString days] else [])
      ++ (if rest / 1000000 ≠ 0 then ["seconds=" ++ toString (rest / 1000000)] else [])
      ++ (if rest % 1000000 ≠ 0 then ["microseconds=" ++ toString (rest % 1000000)] else [])
  "datetime.timedelta(" ++ (if parts.isEmpty then "0" else ", ".intercalate parts) ++ ")"

def zoneListing (offset : Int) : String :=
  if offset = 0 then "datetime.timezone.utc" else "datetime.timezone(" ++ durationListing offset ++ ")"

/-- The constructor form of a moment; seconds and microseconds are left out from the end when zero. -/
def listing (m : Moment) : String :=
  let fields := [m.date.year, m.date.month, m.date.day, m.hour, m.minute]
    ++ (if m.second ≠ 0 ∨ m.microsecond ≠ 0 then [m.second] else [])
    ++ (if m.microsecond ≠ 0 then [m.microsecond] else [])
  let zone := match m.offset with
    | some o => ["tzinfo=" ++ zoneListing o]
    | none => []
  "datetime.datetime(" ++ ", ".intercalate (fields.map toString ++ zone) ++ ")"

end Moment

end Trischema
