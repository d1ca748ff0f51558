/-!
# Days of the calendar

A date is a year, a month and a day of the Gregorian calendar, extended to all years; a day is
counted from the first of January 1970. Both directions cut time into eras of four hundred years and
let the year begin in March, so that the leap day is the last day of a year.
-/

namespace IntentLoop.Calendar

structure Date where
  year : Int
  month : Nat
  day : Nat
  deriving DecidableEq

def isLeap (year : Int) : Bool :=
  year % 4 == 0 && (year % 100 != 0 || year % 400 == 0)

def daysInMonth (year : Int) : Nat → Nat
  | 2 => if isLeap year then 29 else 28
  | 4 | 6 | 9 | 11 => 30
  | _ => 31

/-- The years for which a date can be held. -/
def yearInRange (year : Int) : Bool := -262143 ≤ year && year ≤ 262142

def Date.isValid (d : Date) : Bool :=
  yearInRange d.year && 1 ≤ d.month && d.month ≤ 12 && 1 ≤ d.day
    && d.day ≤ daysInMonth d.year d.month

/-- Days in an era of four hundred years. -/
def eraDays : Int := 146097

/-- Days from the first of March of the year 0 to the first of January 1970. -/
def epochShift : Int := 719468

/-- Days from the first of March to the first of a month. -/
def monthStart (month : Nat) : Int := (153 * ((month + 9) % 12 : Nat) + 2) / 5

def Date.toDays (d : Date) : Int :=
  let year := if d.month ≤ 2 then d.year - 1 else d.year
  let era := year.fdiv 400
  let inEra := year - era * 400
  era * eraDays + inEra * 365 + inEra / 4 - inEra / 100 + monthStart d.month + d.day - 1 - epochShift

def Date.ofDays (days : Int) : Date :=
  let shifted := days + epochShift
  let era := shifted.fdiv eraDays
  let dayOfEra := shifted - era * eraDays
  let yearOfEra := (dayOfEra - dayOfEra / 1460 + dayOfEra / 36524 - dayOfEra / 146096) / 365
  let dayOfYear := dayOfEra - (365 * yearOfEra + yearOfEra / 4 - yearOfEra / 100)
  let fromMarch := (5 * dayOfYear + 2) / 153
  let month := (fromMarch.toNat + 2) % 12 + 1
  { year := yearOfEra + era * 400 + if month ≤ 2 then 1 else 0
    month
    day := (dayOfYear - (153 * fromMarch + 2) / 5 + 1).toNat }

end IntentLoop.Calendar
