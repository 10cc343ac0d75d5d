import GraphSql.Calendar
import GraphSql.Text.Blank

/-!
# Iso — reading the interchange text of a date-time

`DateTime.ofIso?` accepts more than `DateTime.iso` writes: blanks before every number and before
every separator, one digit where two are usual, signed years of any length, and a fraction of any
length, of which the first nine digits count.  Second 60 is a leap second.
-/

namespace GraphSql
namespace Iso

/-! ## Parts -/

/-- At most `width` digits, at least one, after any blanks. -/
def number (width : Nat) (cs : List Char) : Option (Nat × List Char) :=
  let cs := Text.trimStart cs
  let ds := (cs.takeWhile Char.isDigit).take width
  if ds.isEmpty then none else some (Decimal.value ds, cs.drop ds.length)

/-- A year without a sign has at most four digits. -/
def year (cs : List Char) : Option (Int × List Char) :=
  match Text.trimStart cs with
  | '-' :: rest => (Decimal.digits? rest).map fun (ds, rest) => (-(Decimal.value ds : Int), rest)
  | '+' :: rest => (Decimal.digits? rest).map fun (ds, rest) => ((Decimal.value ds : Int), rest)
  | cs => (number 4 cs).map fun (n, rest) => ((n : Int), rest)

def mark (c : Char) (cs : List Char) : Option (List Char) :=
  match Text.trimStart cs with
  | [] => none
  | d :: rest => if d = c then some rest else none

/-- The nanoseconds of an optional fraction. -/
def fraction : List Char → Option (Nat × List Char)
  | '.' :: cs =>
      let ds := (cs.takeWhile Char.isDigit).take 9
      if ds.isEmpty then none
      else some (Decimal.value ds * Nat.pow 10 (9 - ds.length), cs.dropWhile Char.isDigit)
  | cs => some (0, cs)

/-! ## The whole text -/

def date? (cs : List Char) : Option (Date × List Char) := do
  let (y, cs) ← year cs
  let cs ← mark '-' cs
  let (m, cs) ← number 2 cs
  let cs ← mark '-' cs
  let (d, cs) ← number 2 cs
  let date ← Date.make? y m d
  return (date, cs)

def time? (cs : List Char) : Option (TimeOfDay × List Char) := do
  let (h, cs) ← number 2 cs
  let cs ← mark ':' cs
  let (m, cs) ← number 2 cs
  let cs ← mark ':' cs
  let (s, cs) ← number 2 cs
  let (nanos, cs) ← fraction cs
  -- Second 60 is second 59 with a second of nanoseconds on top.
  let time ←
    if s = 60 then TimeOfDay.make? h m 59 (nanosPerSecond + nanos)
    else TimeOfDay.make? h m s nanos
  return (time, cs)

end Iso

def DateTime.ofIso? (text : List Char) : Option DateTime := do
  let (date, cs) ← Iso.date? text
  let cs ← Iso.mark 'T' cs
  let (time, cs) ← Iso.time? cs
  if (Text.trimStart cs).isEmpty then return ⟨date, time⟩ else none

end GraphSql
