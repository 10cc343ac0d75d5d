import GraphSql.Json.Numeral
import GraphSql.Proofs.Number.Digits

/-!
# Integers — an integer that was written is read back

* `Ends` — what may follow a number in a compact text, so that it does not extend the number;
* `scan?_ofInt` — the numeral is found whole in front of such a text;
* `integer?_ofInt` — it denotes the integer that was written.
-/

namespace GraphSql
namespace Json
namespace Numeral

/-- The text is over, or goes on with the next item or a closing bracket. -/
def Ends (rest : List Char) : Prop :=
  ∀ c, rest.head? = some c → c = ',' ∨ c = ']' ∨ c = '}'

theorem Ends.nil : Ends [] := by
  simp [Ends]

theorem Ends.cons {c : Char} (h : c = ',' ∨ c = ']' ∨ c = '}') (rest : List Char) :
    Ends (c :: rest) := by
  intro d hd
  obtain rfl : c = d := by simpa using hd
  exact h

theorem Ends.not_digit {rest : List Char} (h : Ends rest) :
    ∀ c, rest.head? = some c → c.isDigit = false := by
  intro c hc
  rcases h c hc with rfl | rfl | rfl <;> decide

/-! ## Part by part -/

theorem wholeDigits?_digits (n : Nat) {rest : List Char} (h : Ends rest) :
    wholeDigits? (Decimal.digits n ++ rest) = some (Decimal.digits n, rest) := by
  rw [wholeDigits?, Decimal.digits?_digits n h.not_digit]
  split
  · -- Only zero has a zero in front, and zero has no second digit.
    rename_i d ds rest' heq
    have hdigits : Decimal.digits n = '0' :: d :: ds := (Prod.mk.inj (Option.some.inj heq)).1
    by_cases hn : n = 0
    · subst hn
      simp [Decimal.digits] at hdigits
    · exact absurd (by rw [hdigits]; rfl) (Decimal.head?_digits_ne_zero hn)
  · rfl

theorem fraction?_ends {rest : List Char} (h : Ends rest) : fraction? rest = some (none, rest) := by
  cases rest with
  | nil => rfl
  | cons c rest =>
      rcases h c rfl with rfl | rfl | rfl <;> rfl

theorem exponent?_ends {rest : List Char} (h : Ends rest) : exponent? rest = some (none, rest) := by
  cases rest with
  | nil => rfl
  | cons c rest =>
      rcases h c rfl with rfl | rfl | rfl <;> simp [exponent?]

theorem sign_digits (n : Nat) (rest : List Char) :
    sign (Decimal.digits n ++ rest) = (false, Decimal.digits n ++ rest) := by
  rcases Decimal.exists_digits_cons n with ⟨d, ds, hdigits, hd⟩
  rw [hdigits, List.cons_append, sign]
  intro cs hminus
  rw [(List.cons.inj hminus).1] at hd
  exact absurd hd (by decide)

/-! ## The whole numeral -/

theorem chars_ofInt (n : Int) :
    (ofInt n).chars = (if n < 0 then ['-'] else []) ++ Decimal.digits n.natAbs := by
  simp [ofInt, chars]

theorem scan?_ofInt (n : Int) {rest : List Char} (h : Ends rest) :
    scan? ((ofInt n).chars ++ rest) = some (ofInt n, rest) := by
  have hsign : sign ((ofInt n).chars ++ rest) =
      (decide (n < 0), Decimal.digits n.natAbs ++ rest) := by
    rw [chars_ofInt]
    by_cases hn : n < 0
    · simp [hn, sign]
    · simpa [hn] using sign_digits n.natAbs rest
  rw [scan?, hsign]
  simp [wholeDigits?_digits n.natAbs h, fraction?_ends h, exponent?_ends h, ofInt]

theorem integer?_ofInt (n : Int) : (ofInt n).integer? = Integer.ofInt? n := by
  have hvalue : Decimal.value (Decimal.digits n.natAbs) = n.natAbs := Decimal.value_digits n.natAbs
  by_cases hn : n < 0
  · have hne : n.natAbs ≠ 0 := by omega
    have habs : -(n.natAbs : Int) = n := by omega
    simp only [integer?, ofInt, hvalue, hn, hne, habs, decide_true, if_true, if_false]
  · have habs : (n.natAbs : Int) = n := by omega
    simp [integer?, ofInt, hvalue, hn, habs]

end Numeral
end Json
end GraphSql
