import GraphSql.Number.Decimal
import GraphSql.Number.Shortest

/-!
# FloatText — the text of a double in a statement

A double is written with the fewest digits that determine it, never with an exponent, and without a
point when it is whole.  Of two equally near candidates the one farther from zero is written.
-/

namespace GraphSql
namespace FloatText

open Shortest

/-- The digits before and after the decimal point of a grid point; at least one stands before. -/
def places (p : Point) : List Char × List Char :=
  let ds := Decimal.digits p.digits
  let after := (-p.exponent).toNat
  if after = 0 then
    (ds ++ List.replicate p.exponent.toNat '0', [])
  else if after < ds.length then
    (ds.take (ds.length - after), ds.drop (ds.length - after))
  else
    (['0'], List.replicate (after - ds.length) '0' ++ ds)

def positional (p : Point) : List Char :=
  match places p with
  | (whole, []) => whole
  | (whole, fraction) => whole ++ '.' :: fraction

def unsigned : Magnitude → List Char
  | .nan => ['N', 'a', 'N']
  | .infinite => ['i', 'n', 'f']
  | .finite 0 _ => ['0']
  | .finite (m + 1) q => positional (shortest .away (m + 1) q)

/-- A number that is not one has no sign; zero has. -/
def text (x : Float) : List Char :=
  match magnitude x with
  | .nan => unsigned .nan
  | size => if isNegative x then '-' :: unsigned size else unsigned size

end FloatText
end GraphSql
