import GraphSql.Proofs.Number.Digits
import Mathlib.Data.List.TakeWhile

/-!
# Signed — the texts that are read as an integer

An integer in a text is an optional minus and a run of ASCII digits, with any number of zeros in
front and without a plus:

* `Denotes` — the texts of that form, with the integer they stand for;
* `digits?_eq_some_iff`, `signed?_eq_some_iff` — the readers take such a text from the front, as far
  as its digits go, and nothing else;
* `denotes_signed`, `signed?_signed` — an integer that was written is read back, so that
* `signed_append_inj` — a written integer and its end are fixed.
-/

namespace GraphSql
namespace Decimal

variable {cs ds rest : List Char} {n : Int}

inductive Denotes : List Char → Int → Prop
  | unsigned {ds : List Char} :
      ds ≠ [] → (∀ d ∈ ds, d.isDigit = true) → Denotes ds (value ds)
  | minus {ds : List Char} :
      ds ≠ [] → (∀ d ∈ ds, d.isDigit = true) → Denotes ('-' :: ds) (-(value ds : Int))

/-! ## Readers -/

theorem digits?_eq_some_iff :
    digits? cs = some (ds, rest) ↔
      cs = ds ++ rest ∧ ds ≠ [] ∧ (∀ d ∈ ds, d.isDigit = true) ∧
        ∀ c, rest.head? = some c → c.isDigit = false := by
  constructor
  · intro h
    have happend : ds ++ rest = cs := append_of_digits? h
    unfold digits? at h
    split at h
    · simp at h
    · rename_i d ds' htake
      rcases Prod.mk.inj (Option.some.inj h) with ⟨rfl, rfl⟩
      refine ⟨happend.symm, List.cons_ne_nil _ _, ?_, ?_⟩
      · intro c hc
        rw [← htake] at hc
        exact List.mem_takeWhile_imp hc
      · intro c hc
        have hstop := List.head?_dropWhile_not Char.isDigit cs
        rw [hc] at hstop
        exact hstop
  · rintro ⟨rfl, hne, hds, hrest⟩
    exact digits?_append hne hds hrest

/-- A text that starts with a digit has no minus in front. -/
theorem signed?_of_digit {d : Char} (hd : d.isDigit = true) (cs : List Char) :
    signed? (d :: cs) = (digits? (d :: cs)).map fun found => ((value found.1 : Int), found.2) := by
  unfold signed?
  split
  · rename_i heq
    rcases List.cons.inj heq with ⟨rfl, _⟩
    simp at hd
  · rfl

theorem signed?_eq_some_iff :
    signed? cs = some (n, rest) ↔
      ∃ front, cs = front ++ rest ∧ Denotes front n ∧
        ∀ c, rest.head? = some c → c.isDigit = false := by
  constructor
  · intro h
    unfold signed? at h
    split at h
    · rcases Option.map_eq_some_iff.1 h with ⟨⟨ds, rest'⟩, hfound, heq⟩
      rcases Prod.mk.inj heq with ⟨rfl, rfl⟩
      rcases digits?_eq_some_iff.1 hfound with ⟨rfl, hne, hds, hrest⟩
      exact ⟨'-' :: ds, rfl, .minus hne hds, hrest⟩
    · rcases Option.map_eq_some_iff.1 h with ⟨⟨ds, rest'⟩, hfound, heq⟩
      rcases Prod.mk.inj heq with ⟨rfl, rfl⟩
      rcases digits?_eq_some_iff.1 hfound with ⟨rfl, hne, hds, hrest⟩
      exact ⟨ds, rfl, .unsigned hne hds, hrest⟩
  · rintro ⟨front, rfl, hfront, hrest⟩
    cases hfront with
    | minus hne hds =>
        rw [List.cons_append, signed?, digits?_append hne hds hrest]
        rfl
    | unsigned hne hds =>
        have hread := digits?_append hne hds hrest
        rcases List.exists_cons_of_ne_nil hne with ⟨d, ds, rfl⟩
        rw [List.cons_append, signed?_of_digit (hds d List.mem_cons_self), ← List.cons_append,
          hread]
        rfl

/-! ## Written integers -/

theorem denotes_digits (n : Nat) : Denotes (digits n) n := by
  have hdigits := Denotes.unsigned (digits_ne_nil n) fun _ => isDigit_of_mem_digits
  rwa [value_digits] at hdigits

theorem denotes_signed (n : Int) : Denotes (signed n) n := by
  cases n with
  | ofNat n => exact denotes_digits n
  | negSucc n =>
      have hdigits := Denotes.minus (digits_ne_nil (n + 1)) fun _ => isDigit_of_mem_digits
      rwa [value_digits] at hdigits

/-- A written integer is read back up to its last digit. -/
theorem signed?_signed (n : Int) (hrest : ∀ c, rest.head? = some c → c.isDigit = false) :
    signed? (signed n ++ rest) = some (n, rest) :=
  signed?_eq_some_iff.2 ⟨signed n, rfl, denotes_signed n, hrest⟩

theorem signed_append_inj {m n : Int} {rest rest' : List Char}
    (hrest : ∀ c, rest.head? = some c → c.isDigit = false)
    (hrest' : ∀ c, rest'.head? = some c → c.isDigit = false)
    (h : signed m ++ rest = signed n ++ rest') : m = n ∧ rest = rest' := by
  have hread : some (m, rest) = some (n, rest') := by
    rw [← signed?_signed m hrest, ← signed?_signed n hrest', h]
  exact Prod.mk.inj (Option.some.inj hread)

end Decimal
end GraphSql
