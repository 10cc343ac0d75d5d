import GraphSql.Proofs.Value.Spelling
import GraphSql.Text.Reader

/-!
# Digits — decimal text that was written is read back

* `digits?_append` — a run of digits is read up to where it ends;
* `exists_digits_cons`, `exists_padded_cons` — a number starts with a digit;
* `head?_digits_ne_zero` — only zero is written with a zero in front;
* `value_padded`, `length_padded` — zeros in front change the length and not the number.
-/

namespace GraphSql
namespace Decimal

/-! ## Reading a run of digits -/

theorem digits?_append {ds rest : List Char} (hne : ds ≠ []) (hds : ∀ c ∈ ds, c.isDigit = true)
    (hrest : ∀ c, rest.head? = some c → c.isDigit = false) :
    digits? (ds ++ rest) = some (ds, rest) := by
  have hrun : digits? = Text.Reader.run Char.isDigit := by
    funext cs
    cases hhead : cs.takeWhile Char.isDigit <;> simp [digits?, Text.Reader.run, hhead]
  rw [hrun, Text.Reader.run_append hne hds hrest]

theorem digits?_digits (n : Nat) {rest : List Char}
    (hrest : ∀ c, rest.head? = some c → c.isDigit = false) :
    digits? (digits n ++ rest) = some (digits n, rest) :=
  digits?_append (digits_ne_nil n) (fun _ => isDigit_of_mem_digits) hrest

/-- A written number starts with a digit. -/
theorem exists_digits_cons (n : Nat) : ∃ d ds, digits n = d :: ds ∧ d.isDigit = true := by
  rcases List.exists_cons_of_ne_nil (digits_ne_nil n) with ⟨d, ds, hdigits⟩
  exact ⟨d, ds, hdigits, isDigit_of_mem_digits (n := n) (by simp [hdigits])⟩

/-! ## Zeros in front -/

theorem head?_digits_ne_zero {n : Nat} (hn : n ≠ 0) : (digits n).head? ≠ some '0' := by
  induction n using Nat.strongRecOn with
  | ind n ih =>
      by_cases hlt : n < 10
      · rw [digits, Nat.toDigits_of_lt_base hlt]
        simpa using hn
      · have hsplit : digits n = digits (n / 10) ++ [Nat.digitChar (n % 10)] :=
          Nat.toDigits_of_base_le (by decide) (by omega)
        have hfront := ih (n / 10) (by omega) (by omega)
        rw [hsplit, List.head?_append_of_ne_nil _ (digits_ne_nil _)]
        exact hfront

theorem value_padded (width n : Nat) : value (padded width n) = n := by
  rw [value, padded, Nat.ofDigitChars_append, Nat.ofDigitChars_replicate_zero]
  exact value_digits n

theorem isDigit_of_mem_padded {width n : Nat} {c : Char} (h : c ∈ padded width n) :
    c.isDigit = true := by
  rcases List.mem_append.1 h with hzero | hdigit
  · rw [(List.mem_replicate.1 hzero).2]
    decide
  · exact isDigit_of_mem_digits hdigit

theorem length_padded {width n : Nat} (hwidth : 0 < width) (hn : n < Nat.pow 10 width) :
    (padded width n).length = width := by
  have hle : (digits n).length ≤ width :=
    (Nat.length_toDigits_le_iff (by decide) hwidth).2 hn
  rw [padded, List.length_append, List.length_replicate]
  omega

theorem padded_ne_nil (width n : Nat) : padded width n ≠ [] :=
  List.append_ne_nil_of_right_ne_nil _ (digits_ne_nil n)

theorem exists_padded_cons (width n : Nat) :
    ∃ d ds, padded width n = d :: ds ∧ d.isDigit = true := by
  rcases List.exists_cons_of_ne_nil (padded_ne_nil width n) with ⟨d, ds, hpadded⟩
  have hmem : d ∈ padded width n := by simp [hpadded]
  exact ⟨d, ds, hpadded, isDigit_of_mem_padded hmem⟩

end Decimal
end GraphSql
