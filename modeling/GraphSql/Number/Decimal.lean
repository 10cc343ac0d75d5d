/-!
# Decimal — integers and real numbers as decimal text

* `digits`, `signed`, `padded` — how an integer is written;
* `digits?`, `signed?`, `natural?` — which texts are read as an integer, and how far;
* `nearest` — the double nearest to `m · 10ᵉ`, ties to the even neighbour;
* `float?` — decimal text of a double: sign, digits with at most one point, optional exponent, or
  one of the words `inf`, `infinity` and `nan` in any case.

Digits are the ten ASCII digits throughout.
-/

namespace GraphSql
namespace Decimal

/-! ## Writing integers -/

def digits (n : Nat) : List Char :=
  Nat.toDigits 10 n

def signed : Int → List Char
  | .ofNat n => digits n
  | .negSucc n => '-' :: digits (n + 1)

/-- At least `width` characters, with zeros in front. -/
def padded (width n : Nat) : List Char :=
  List.replicate (width - (digits n).length) '0' ++ digits n

/-! ## Reading integers -/

def value (cs : List Char) : Nat :=
  Nat.ofDigitChars 10 cs 0

theorem value_digits (n : Nat) : value (digits n) = n :=
  Nat.ofDigitChars_ten_toDigits

/-- The longest run of digits at the front, which must not be empty, and what follows it. -/
def digits? (cs : List Char) : Option (List Char × List Char) :=
  match cs.takeWhile Char.isDigit with
  | [] => none
  | d :: ds => some (d :: ds, cs.dropWhile Char.isDigit)

theorem append_of_digits? {cs ds rest : List Char} (h : digits? cs = some (ds, rest)) :
    ds ++ rest = cs := by
  unfold digits? at h
  split at h
  · simp at h
  · rename_i d ds' heq
    obtain ⟨rfl, rfl⟩ := Prod.mk.inj (Option.some.inj h)
    rw [← heq, List.takeWhile_append_dropWhile]

/-- An optional minus and at least one digit. -/
def signed? : List Char → Option (Int × List Char)
  | '-' :: cs => (digits? cs).map fun (ds, rest) => (-(value ds : Int), rest)
  | cs => (digits? cs).map fun (ds, rest) => ((value ds : Int), rest)

/-- The whole text is an optional plus and at least one digit. -/
def natural? (cs : List Char) : Option Nat :=
  let unsigned := match cs with
    | '+' :: rest => rest
    | _ => cs
  match digits? unsigned with
  | some (ds, []) => some (value ds)
  | _ => none

/-! ## Reading doubles -/

def infinity : Float :=
  Float.ofBits 0x7FF0000000000000

def nan : Float :=
  Float.ofBits 0x7FF8000000000000

/-- Beyond 310 digits before the point every number overflows, and with 330 zeros after it every
number vanishes, so only exponents of moderate size are ever raised to a power. -/
def nearest (m : Nat) (e : Int) : Float :=
  let magnitude := ((digits m).length : Int) + e
  if m = 0 then 0
  else if magnitude > 310 then infinity
  else if magnitude < -330 then 0
  else Float.ofScientific m (e < 0) e.natAbs

/-- The exponent behind `e` or `E`; a text without that letter has exponent zero. -/
def exponent? : List Char → Option Int
  | [] => some 0
  | c :: cs =>
      if c = 'e' ∨ c = 'E' then
        let (negative, cs) := match cs with
          | '-' :: rest => (true, rest)
          | '+' :: rest => (false, rest)
          | _ => (false, cs)
        match digits? cs with
        | some (ds, []) => some (if negative then -(value ds : Int) else value ds)
        | _ => none
      else
        none

def unsignedFloat? (cs : List Char) : Option Float :=
  let whole := cs.takeWhile Char.isDigit
  let afterWhole := cs.dropWhile Char.isDigit
  let (fraction, rest) := match afterWhole with
    | '.' :: more => (more.takeWhile Char.isDigit, more.dropWhile Char.isDigit)
    | _ => ([], afterWhole)
  if whole.isEmpty && fraction.isEmpty then none
  else (exponent? rest).map fun e => nearest (value (whole ++ fraction)) (e - fraction.length)

def float? (text : List Char) : Option Float :=
  let (negative, cs) := match text with
    | '-' :: rest => (true, rest)
    | '+' :: rest => (false, rest)
    | _ => (false, text)
  let word := String.ofList (cs.map Char.toLower)
  let magnitude :=
    if word = "inf" ∨ word = "infinity" then some infinity
    else if word = "nan" then some nan
    else unsignedFloat? cs
  magnitude.map fun x => if negative then -x else x

end Decimal
end GraphSql
