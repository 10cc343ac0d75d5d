/-!
# Shortest — the fewest decimal digits that determine a double

A finite positive double is `m · 2^q`.  The reals that round to it form an interval; a decimal
number determines the double when it lies in that interval.  `shortest` answers with the coarsest
grid of powers of ten that has a point in the interval and, on that grid, the point nearest to the
double.  Two points may be equally near: which one is taken is the `Tie`.
-/

namespace GraphSql
namespace Shortest

/-! ## Taking a double apart -/

inductive Magnitude
  | nan
  | infinite
  | finite (significand : Nat) (exponent : Int)
  deriving DecidableEq, Repr

def isNegative (x : Float) : Bool :=
  x.toBits.toNat / Nat.pow 2 63 = 1

/-- A finite magnitude is `significand · 2 ^ exponent`, with 53 bits unless it is subnormal. -/
def magnitude (x : Float) : Magnitude :=
  let bits : Nat := x.toBits.toNat
  let biased : Nat := bits / Nat.pow 2 52 % Nat.pow 2 11
  let fraction : Nat := bits % Nat.pow 2 52
  if biased = 2047 then
    if fraction = 0 then .infinite else .nan
  else if biased = 0 then
    .finite fraction (-1074)
  else
    .finite (fraction + Nat.pow 2 52) (biased - 1075)

/-! ## The interval of reals that round to a double -/

/-- Half of the way to the next double on either side, as numerators over a common denominator.
The double below a power of two is nearer than the one above it, so the lower half is shorter
there; the two ends belong to the interval when the significand is even. -/
structure Interval where
  low : Nat
  mid : Nat
  high : Nat
  denominator : Nat
  closed : Bool

def interval (m : Nat) (q : Int) : Interval :=
  -- In quarters of a unit both halves are whole numbers.
  let gap := if m = Nat.pow 2 52 ∧ q > -1074 then 1 else 2
  let scale := Nat.pow 2 (q - 2).toNat
  { low := (4 * m - gap) * scale
    mid := 4 * m * scale
    high := (4 * m + 2) * scale
    denominator := Nat.pow 2 (2 - q).toNat
    closed := m % 2 = 0 }

/-- The fraction `num / den` lies in the interval. -/
def Interval.holds (i : Interval) (num den : Nat) : Bool :=
  if i.closed then
    i.low * den ≤ num * i.denominator && num * i.denominator ≤ i.high * den
  else
    i.low * den < num * i.denominator && num * i.denominator < i.high * den

/-! ## Points of a decimal grid -/

inductive Tie
  | away
  | even
  deriving DecidableEq, Repr

/-- Twice the distance from the lower point is compared with the step; `lower` is the digit that
decides about evenness. -/
def Tie.prefersAbove (tie : Tie) (lower twice step : Nat) : Bool :=
  match tie with
  | .away => step ≤ twice
  | .even => step < twice || (step = twice && lower % 2 = 1)

/-- A point of the grid of step `10 ^ exponent`. -/
structure Point where
  digits : Nat
  exponent : Int
  deriving DecidableEq, Repr

def Point.numerator (p : Point) : Nat :=
  p.digits * Nat.pow 10 p.exponent.toNat

def Point.denominator (p : Point) : Nat :=
  Nat.pow 10 (-p.exponent).toNat

/-- The number `k` of digits before the point: the middle is below `10 ^ k`, not below
`10 ^ (k - 1)`. -/
def digitsBefore (i : Interval) : Int :=
  let guess : Int := (Nat.toDigits 10 i.mid).length - (Nat.toDigits 10 i.denominator).length
  -- A quotient has as many digits as the difference of the lengths, or one more.
  if i.denominator * Nat.pow 10 guess.toNat ≤ i.mid * Nat.pow 10 (-guess).toNat then guess + 1
  else guess

/-- The grid point that determines the double, on the grid of the given step; of two, the nearer. -/
def onGrid (tie : Tie) (i : Interval) (step : Int) : Option Point :=
  let num := i.mid * Nat.pow 10 (-step).toNat
  let den := i.denominator * Nat.pow 10 step.toNat
  let below : Point := ⟨num / den, step⟩
  let above : Point := ⟨num / den + 1, step⟩
  -- When neither neighbour of the middle is in the interval, no point of the grid is.
  let hit (p : Point) := i.holds p.numerator p.denominator
  match hit below, hit above with
  | true, true =>
      some (if tie.prefersAbove below.digits (2 * (num % den)) den then above else below)
  | true, false => some below
  | false, true => some above
  | false, false => none

/-- Zeros at the end of the digits move into the exponent. -/
def Point.trimmed (p : Point) : Point :=
  let zeros := ((Nat.toDigits 10 p.digits).reverse.takeWhile (· = '0')).length
  if p.digits = 0 then ⟨0, 0⟩ else ⟨p.digits / Nat.pow 10 zeros, p.exponent + zeros⟩

/-- Seventeen digits determine every double, so a grid is always found. -/
def shortest (tie : Tie) (m : Nat) (q : Int) : Point :=
  let i := interval m q
  let size := digitsBefore i
  -- From the coarsest grid, of one digit, to the finest.
  let found := (List.range 17).findSome? fun n => onGrid tie i (size - (n + 1 : Nat))
  (found.getD ⟨0, 0⟩).trimmed

end Shortest
end GraphSql
