import GraphSql.Calendar
import GraphSql.Number.Decimal
import GraphSql.Number.Width
import GraphSql.Toml.Lexeme

/-!
# Number — integers, floats and date-times of TOML

Underscores may stand between two digits.  Integers are signed and have 64 bits; a float that
overflows to positive infinity is refused; dates have to exist.
-/

namespace GraphSql
namespace Toml

/-! ## Digits -/

/-- Digits after a first one; an underscore has to stand before a digit. -/
def moreDigits? (isDigit : Char → Bool) : List Char → Option (List Char × List Char)
  | [] => some ([], [])
  | ['_'] => none
  | '_' :: d :: cs =>
      if isDigit d then (moreDigits? isDigit cs).map fun found => (d :: found.1, found.2) else none
  | c :: cs =>
      if isDigit c then (moreDigits? isDigit cs).map fun found => (c :: found.1, found.2)
      else some ([], c :: cs)

def someDigits? (isDigit : Char → Bool) : List Char → Option (List Char × List Char)
  | c :: cs =>
      if isDigit c then (moreDigits? isDigit cs).map fun found => (c :: found.1, found.2) else none
  | [] => none

def sign : List Char → Bool × List Char
  | '-' :: cs => (true, cs)
  | '+' :: cs => (false, cs)
  | cs => (false, cs)

/-- Decimal digits without a leading zero. -/
def wholeDigits? : List Char → Option (List Char × List Char)
  | '0' :: cs => some (['0'], cs)
  | cs => someDigits? Char.isDigit cs

/-! ## Integers -/

def radixInteger? (radix : Nat) (cs : List Char) : Option (Int64 × List Char) := do
  let isDigit (c : Char) : Bool := (Text.hexValue? c).any (· < radix)
  let (ds, rest) ← someDigits? isDigit cs
  let n := ds.foldl (fun n d => radix * n + (Text.hexValue? d).getD 0) 0
  return (← Width.int64? n, rest)

def decimalInteger? (cs : List Char) : Option (Int64 × List Char) := do
  let (negative, cs) := sign cs
  let (ds, rest) ← wholeDigits? cs
  let size : Int := Decimal.value ds
  return (← Width.int64? (if negative then -size else size), rest)

def integer? : List Char → Option (Int64 × List Char)
  | '0' :: 'x' :: cs => radixInteger? 16 cs
  | '0' :: 'o' :: cs => radixInteger? 8 cs
  | '0' :: 'b' :: cs => radixInteger? 2 cs
  | cs => decimalInteger? cs

/-! ## Floats -/

def fraction? : List Char → Option (List Char × List Char)
  | '.' :: cs => someDigits? Char.isDigit cs
  | _ => none

def exponent? : List Char → Option (Int × List Char)
  | c :: cs =>
      if c = 'e' ∨ c = 'E' then do
        let (negative, cs) := sign cs
        let (ds, rest) ← someDigits? Char.isDigit cs
        let size : Int := Decimal.value ds
        return (if negative then -size else size, rest)
      else none
  | [] => none

/-- There is a fraction, an exponent, or both. -/
def finite? (cs : List Char) : Option (Float × List Char) := do
  let (negative, cs) := sign cs
  let (whole, cs) ← wholeDigits? cs
  -- A number with neither part is left to the integers.
  let (fraction, exponent, rest) ←
    match fraction? cs with
    | some (ds, cs) =>
        match cs with
        | 'e' :: _ | 'E' :: _ => (exponent? cs).map fun (e, rest) => (ds, e, rest)
        | _ => some (ds, 0, cs)
    | none => (exponent? cs).map fun (e, rest) => ([], e, rest)
  let size := Decimal.nearest (Decimal.value (whole ++ fraction)) (exponent - fraction.length)
  -- Overflow is refused above, but not below.
  if negative then return (-size, rest)
  else if size == Decimal.infinity then none
  else return (size, rest)

def special? (cs : List Char) : Option (Float × List Char) :=
  let (negative, cs) := sign cs
  match cs with
  | 'i' :: 'n' :: 'f' :: rest =>
      some (if negative then -Decimal.infinity else Decimal.infinity, rest)
  | 'n' :: 'a' :: 'n' :: rest => some (Decimal.nan, rest)
  | _ => none

def float? (cs : List Char) : Option (Float × List Char) :=
  finite? cs <|> special? cs

/-! ## Date-times -/

/-- Exactly `width` digits between two bounds. -/
def field? (width low high : Nat) (cs : List Char) : Option (Nat × List Char) :=
  let ds := cs.take width
  let n := Decimal.value ds
  if ds.length = width && ds.all Char.isDigit && low ≤ n && n ≤ high then some (n, cs.drop width)
  else none

def mark? (c : Char) : List Char → Option (List Char)
  | d :: cs => if d = c then some cs else none
  | [] => none

def date? (cs : List Char) : Option (List Char) := do
  let (year, cs) ← field? 4 0 9999 cs
  let cs ← mark? '-' cs
  let (month, cs) ← field? 2 1 12 cs
  let cs ← mark? '-' cs
  let (_, cs) ← field? 2 1 (daysInMonth year month) cs
  return cs

def secondsFraction : List Char → List Char
  | '.' :: c :: cs => if c.isDigit then cs.dropWhile Char.isDigit else '.' :: c :: cs
  | cs => cs

def time? (cs : List Char) : Option (List Char) := do
  let (_, cs) ← field? 2 0 23 cs
  let cs ← mark? ':' cs
  let (_, cs) ← field? 2 0 59 cs
  let cs ← mark? ':' cs
  let (_, cs) ← field? 2 0 60 cs
  return secondsFraction cs

/-- A sign has to be followed by hours and minutes. -/
def offset? : List Char → Option (List Char)
  | [] => some []
  | c :: cs =>
      if c = 'Z' ∨ c = 'z' then some cs
      else if c = '+' ∨ c = '-' then do
        let (_, cs) ← field? 2 0 23 cs
        let cs ← mark? ':' cs
        let (_, cs) ← field? 2 0 59 cs
        return cs
      else some (c :: cs)

/-- The time of a date-time, and its offset; without a time the date stands alone. -/
def afterDate? : List Char → Option (List Char)
  | [] => some []
  | c :: cs =>
      if c = 'T' ∨ c = 't' ∨ c = ' ' then
        match time? cs with
        | some rest => offset? rest
        | none => some (c :: cs)
      else some (c :: cs)

/-- A date, a time of day, or both; the answer is what is left. -/
def dateTime? (cs : List Char) : Option (List Char) :=
  match date? cs with
  | some rest => afterDate? rest
  | none => time? cs

end Toml
end GraphSql
