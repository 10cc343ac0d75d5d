import GraphSql.Number.Decimal

/-!
# Calendar — dates, times of day and their text

Dates are proleptic Gregorian, years `-262143` to `262142`.  A time of day has nanoseconds, and with
one thousand million of them or more it is in a leap second, which is written as the second behind:
second 60 behind second 59.  Any second may have a leap second behind it, though only second 59 has
one when a time is made from its parts.

* `Date`, `TimeOfDay`, `DateTime` — every date exists, and every time is on a clock of 24 hours;
* `Date.make?`, `TimeOfDay.make?` — from the parts, as they are read or given;
* `DateTime.ofUnix?` — from seconds since the epoch;
* `DateTime.stamp` — the text `YYYY-MM-DD hh:mm:ss`;
* `DateTime.iso`, `DateTime.ofIso?` — the interchange text with a `T` and an optional fraction.
-/

namespace GraphSql

/-! ## Dates -/

def isLeapYear (year : Int) : Bool :=
  year % 4 = 0 && (year % 100 ≠ 0 || year % 400 = 0)

def daysInMonth (year : Int) (month : Nat) : Nat :=
  if month = 2 then (if isLeapYear year then 29 else 28)
  else if month = 4 ∨ month = 6 ∨ month = 9 ∨ month = 11 then 30
  else 31

def firstYear : Int := -262143

def lastYear : Int := 262142

structure Date where
  year : Int
  month : Nat
  day : Nat
  year_range : firstYear ≤ year ∧ year ≤ lastYear
  month_range : 1 ≤ month ∧ month ≤ 12
  day_range : 1 ≤ day ∧ day ≤ daysInMonth year month
  deriving DecidableEq

def Date.make? (year : Int) (month day : Nat) : Option Date :=
  if hy : firstYear ≤ year ∧ year ≤ lastYear then
    if hm : 1 ≤ month ∧ month ≤ 12 then
      if hd : 1 ≤ day ∧ day ≤ daysInMonth year month then
        some ⟨year, month, day, hy, hm, hd⟩
      else none
    else none
  else none

/-- The date of a day number; day zero is 1 January 1970.  Years are counted from March, so that the
leap day is the last day of a year, in eras of 400 years or 146097 days. -/
def Date.ofDayNumber? (days : Int) : Option Date :=
  -- Day zero is moved to 1 March of the year 0.
  let shifted := days + 719468
  let era := shifted / 146097
  let dayOfEra := (shifted % 146097).toNat
  -- A leap day every 4 years, but not every 100, and yet every 400.
  let yearOfEra := (dayOfEra - dayOfEra / 1460 + dayOfEra / 36524 - dayOfEra / 146096) / 365
  let dayOfYear := dayOfEra - (365 * yearOfEra + yearOfEra / 4 - yearOfEra / 100)
  -- From March on, five months have 153 days.
  let fromMarch := (5 * dayOfYear + 2) / 153
  let day := dayOfYear - (153 * fromMarch + 2) / 5 + 1
  let month := if fromMarch < 10 then fromMarch + 3 else fromMarch - 9
  let year := (yearOfEra : Int) + era * 400 + (if month ≤ 2 then 1 else 0)
  Date.make? year month day

/-! ## Times of day -/

def nanosPerSecond : Nat := 1000000000

structure TimeOfDay where
  hour : Nat
  minute : Nat
  second : Nat
  nanos : Nat
  hour_range : hour < 24
  minute_range : minute < 60
  second_range : second < 60
  nanos_range : nanos < 2 * nanosPerSecond
  deriving DecidableEq

/-- A leap second is accepted at the end of a minute only. -/
def TimeOfDay.make? (hour minute second nanos : Nat) : Option TimeOfDay :=
  if h : (hour < 24 ∧ minute < 60 ∧ second < 60 ∧ nanos < 2 * nanosPerSecond) ∧
      (nanosPerSecond ≤ nanos → second = 59) then
    some ⟨hour, minute, second, nanos, h.1.1, h.1.2.1, h.1.2.2.1, h.1.2.2.2⟩
  else none

def TimeOfDay.isLeap (t : TimeOfDay) : Bool :=
  nanosPerSecond ≤ t.nanos

def TimeOfDay.writtenSecond (t : TimeOfDay) : Nat :=
  if t.isLeap then t.second + 1 else t.second

def TimeOfDay.fraction (t : TimeOfDay) : Nat :=
  if t.isLeap then t.nanos - nanosPerSecond else t.nanos

/-! ## Date-times -/

structure DateTime where
  date : Date
  time : TimeOfDay
  deriving DecidableEq

def DateTime.ofUnix? (seconds : Int) (nanos : Nat) : Option DateTime := do
  let date ← Date.ofDayNumber? (seconds / 86400)
  let second := (seconds % 86400).toNat
  let time ← TimeOfDay.make? (second / 3600) (second / 60 % 60) (second % 60) nanos
  return ⟨date, time⟩

/-! ## Writing -/

/-- Years 0 to 9999 have four digits; the others have a sign as well. -/
def yearText (year : Int) : List Char :=
  if 0 ≤ year ∧ year ≤ 9999 then Decimal.padded 4 year.toNat
  else (if year < 0 then '-' else '+') :: Decimal.padded 4 year.natAbs

def Date.text (d : Date) : List Char :=
  yearText d.year ++ '-' :: Decimal.padded 2 d.month ++ '-' :: Decimal.padded 2 d.day

def TimeOfDay.text (t : TimeOfDay) : List Char :=
  Decimal.padded 2 t.hour ++ ':' :: Decimal.padded 2 t.minute ++ ':' ::
    Decimal.padded 2 t.writtenSecond

def DateTime.stamp (t : DateTime) : List Char :=
  t.date.text ++ ' ' :: t.time.text

/-- Three, six or nine places, whichever are enough; nothing for a whole second. -/
def fractionText (nanos : Nat) : List Char :=
  if nanos = 0 then []
  else if nanos % 1000000 = 0 then '.' :: Decimal.padded 3 (nanos / 1000000)
  else if nanos % 1000 = 0 then '.' :: Decimal.padded 6 (nanos / 1000)
  else '.' :: Decimal.padded 9 nanos

def DateTime.iso (t : DateTime) : List Char :=
  t.date.text ++ 'T' :: t.time.text ++ fractionText t.time.fraction

end GraphSql
