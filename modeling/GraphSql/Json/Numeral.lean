import GraphSql.Number.FloatText

/-!
# Numeral — numbers as they stand in a JSON text

A numeral keeps the digits that are written.  What it denotes is asked for afterwards:

* `Numeral.integer?` — an integer, when there is neither a point nor an exponent and the number is
  in the range of the signed or the unsigned 64-bit integers; `-0` is not an integer;
* `Numeral.double?` — the nearest double, of whatever size and length the number is written; a
  number that overflows is refused;
* `Numeral.ofInt`, `Numeral.ofFloat?` — the numerals that are written;
* `Numeral.scan?` — the numeral at the front of a text.
-/

namespace GraphSql
namespace Json

inductive ExponentSign
  | none
  | plus
  | minus
  deriving DecidableEq, Repr

structure Exponent where
  sign : ExponentSign
  digits : List Char
  deriving DecidableEq, Repr

structure Numeral where
  negative : Bool
  whole : List Char
  fraction : Option (List Char)
  exponent : Option Exponent
  deriving DecidableEq, Repr

/-! ## Integers in range -/

/-- An integer in the range of the signed or of the unsigned 64-bit integers. -/
structure Integer where
  val : Int
  range : -9223372036854775808 ≤ val ∧ val ≤ 18446744073709551615
  deriving DecidableEq

def Integer.ofInt? (n : Int) : Option Integer :=
  if h : -9223372036854775808 ≤ n ∧ n ≤ 18446744073709551615 then some ⟨n, h⟩ else none

namespace Numeral

/-! ## Writing -/

def exponentChars : Exponent → List Char
  | ⟨.none, ds⟩ => 'e' :: ds
  | ⟨.plus, ds⟩ => 'e' :: '+' :: ds
  | ⟨.minus, ds⟩ => 'e' :: '-' :: ds

def chars (n : Numeral) : List Char :=
  (if n.negative then ['-'] else []) ++ n.whole ++
    (match n.fraction with
      | some ds => '.' :: ds
      | none => []) ++
    (match n.exponent with
      | some e => exponentChars e
      | none => [])

def ofInt (n : Int) : Numeral :=
  ⟨n < 0, Decimal.digits n.natAbs, none, none⟩

/-- Positional, with at least one digit after the point, when the first digit has an exponent from
-5 to 15; otherwise one digit before the point and a signed exponent. -/
def ofPoint (negative : Bool) (p : Shortest.Point) : Numeral :=
  let ds := Decimal.digits p.digits
  let first : Int := ds.length + p.exponent - 1
  if -5 ≤ first ∧ first ≤ 15 then
    let (whole, fraction) := FloatText.places p
    ⟨negative, whole, some (if fraction.isEmpty then ['0'] else fraction), none⟩
  else
    let sign := if first < 0 then ExponentSign.minus else .plus
    ⟨negative, ds.take 1, if (ds.drop 1).isEmpty then none else some (ds.drop 1),
      some ⟨sign, Decimal.digits first.natAbs⟩⟩

/-- The shortest digits that determine the double, ties to the even digit; infinities and what is
not a number have no numeral. -/
def ofFloat? (x : Float) : Option Numeral :=
  match Shortest.magnitude x with
  | .nan => none
  | .infinite => none
  | .finite 0 _ => some ⟨Shortest.isNegative x, ['0'], some ['0'], none⟩
  | .finite (m + 1) q => some (ofPoint (Shortest.isNegative x) (Shortest.shortest .even (m + 1) q))

/-! ## Reading -/

def wholeDigits? (cs : List Char) : Option (List Char × List Char) :=
  match Decimal.digits? cs with
  -- A zero can only be the whole of the digits.
  | some ('0' :: _ :: _, _) => none
  | found => found

def fraction? : List Char → Option (Option (List Char) × List Char)
  | '.' :: cs => (Decimal.digits? cs).map fun (ds, rest) => (some ds, rest)
  | cs => some (none, cs)

def exponent? : List Char → Option (Option Exponent × List Char)
  | [] => some (none, [])
  | c :: cs =>
      if c = 'e' ∨ c = 'E' then
        match cs with
        | '+' :: cs => (Decimal.digits? cs).map fun (ds, rest) => (some ⟨.plus, ds⟩, rest)
        | '-' :: cs => (Decimal.digits? cs).map fun (ds, rest) => (some ⟨.minus, ds⟩, rest)
        | _ => (Decimal.digits? cs).map fun (ds, rest) => (some ⟨.none, ds⟩, rest)
      else
        some (none, c :: cs)

def sign : List Char → Bool × List Char
  | '-' :: cs => (true, cs)
  | cs => (false, cs)

def scan? (cs : List Char) : Option (Numeral × List Char) := do
  let (negative, cs) := sign cs
  let (whole, cs) ← wholeDigits? cs
  let (fraction, cs) ← fraction? cs
  let (exponent, cs) ← exponent? cs
  return (⟨negative, whole, fraction, exponent⟩, cs)

/-! ## Integers -/

def integer? (n : Numeral) : Option Integer :=
  match n.fraction, n.exponent with
  | none, none =>
      let size := Decimal.value n.whole
      if n.negative then
        -- Negative zero is a double.
        if size = 0 then none else Integer.ofInt? (-(size : Int))
      else
        Integer.ofInt? size
  | _, _ => none

/-! ## Doubles -/

/-- A missing exponent is zero. -/
def power : Option Exponent → Int
  | none => 0
  | some e => if e.sign = .minus then -(Decimal.value e.digits : Int) else Decimal.value e.digits

/-- The double nearest to the number without its sign, unless that is beyond all doubles. -/
def magnitude? (n : Numeral) : Option Float :=
  let places := n.fraction.getD []
  let size := Decimal.nearest (Decimal.value (n.whole ++ places)) (power n.exponent - places.length)
  if size == Decimal.infinity then none else some size

def double? (n : Numeral) : Option Float :=
  n.magnitude?.map fun x => if n.negative then -x else x

end Numeral
end Json
end GraphSql
