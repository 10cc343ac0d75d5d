import GraphSql.Proofs.Number.Signed

/-!
# Natural — counts as decimal text

A count is read from a run of ASCII digits with at most a plus in front, and written in one way only:

* `DenotesCount` — the texts that are read as a count, with the number they stand for;
* `natural?_eq_some_iff` — the reader accepts those texts, as that number, and no others;
* `Canonical` — digits alone, without zeros in front;
* `digits_append`, `digits_value_cons` — more digits behind a positive number, and a text of digits
  written again;
* `canonical_iff` — the canonical spelling of a number is the one that is written.
-/

namespace GraphSql
namespace Decimal

variable {cs ds : List Char} {n : Nat}

/-! ## Reading -/

inductive DenotesCount : List Char → Nat → Prop
  | plain {ds : List Char} :
      ds ≠ [] → (∀ d ∈ ds, d.isDigit = true) → DenotesCount ds (value ds)
  | plus {ds : List Char} :
      ds ≠ [] → (∀ d ∈ ds, d.isDigit = true) → DenotesCount ('+' :: ds) (value ds)

/-- The whole of the text is a run of digits. -/
theorem whole_digits?_iff :
    (match digits? cs with
      | some (ds, []) => some (value ds)
      | _ => none) = some n ↔ cs ≠ [] ∧ (∀ d ∈ cs, d.isDigit = true) ∧ value cs = n := by
  constructor
  · intro h
    split at h
    · rename_i ds hread
      rcases digits?_eq_some_iff.1 hread with ⟨rfl, hne, hds, _⟩
      rw [List.append_nil]
      exact ⟨hne, hds, Option.some.inj h⟩
    · simp at h
  · rintro ⟨hne, hcs, rfl⟩
    have hread : digits? cs = some (cs, []) :=
      digits?_eq_some_iff.2 ⟨(List.append_nil cs).symm, hne, hcs, by simp⟩
    rw [hread]

theorem natural?_of_ne_plus (h : ∀ rest, cs ≠ '+' :: rest) :
    natural? cs = match digits? cs with
      | some (ds, []) => some (value ds)
      | _ => none := by
  unfold natural?
  split
  · exact absurd rfl (h _)
  · rfl

theorem natural?_eq_some_iff : natural? cs = some n ↔ DenotesCount cs n := by
  constructor
  · intro h
    by_cases hplus : ∃ rest, cs = '+' :: rest
    · rcases hplus with ⟨rest, rfl⟩
      rcases whole_digits?_iff.1 h with ⟨hne, hds, rfl⟩
      exact .plus hne hds
    · rw [natural?_of_ne_plus fun rest hcs => hplus ⟨rest, hcs⟩] at h
      rcases whole_digits?_iff.1 h with ⟨hne, hds, rfl⟩
      exact .plain hne hds
  · intro h
    cases h with
    | plus hne hds => exact whole_digits?_iff.2 ⟨hne, hds, rfl⟩
    | plain hne hds =>
        -- A digit is no plus, so there is nothing to drop.
        have hplus : ∀ rest, cs ≠ '+' :: rest := by
          rintro rest rfl
          exact absurd (hds '+' List.mem_cons_self) (by decide)
        rw [natural?_of_ne_plus hplus]
        exact whole_digits?_iff.2 ⟨hne, hds, rfl⟩

/-! ## Writing -/

/-- Digits of the number and nothing else, with a zero in front only for zero itself. -/
structure Canonical (n : Nat) (ds : List Char) : Prop where
  digits : ∀ d ∈ ds, d.isDigit = true
  nonempty : ds ≠ []
  value : value ds = n
  zero : ds.head? = some '0' → ds = ['0']

/-- The number that a digit adds to ten times those in front of it. -/
theorem digitChar_of_isDigit {d : Char} (hd : d.isDigit = true) :
    d.toNat - '0'.toNat < 10 ∧ Nat.digitChar (d.toNat - '0'.toNat) = d := by
  have hrange : 48 ≤ d.toNat ∧ d.toNat ≤ 57 := by
    simpa [Char.isDigit, UInt32.le_iff_toNat_le] using hd
  have hzero : '0'.toNat = 48 := by decide
  have hlt : d.toNat - 48 < 10 := by omega
  rw [hzero]
  refine ⟨hlt, Char.toNat_inj.1 ?_⟩
  rw [Nat.toNat_digitChar_of_lt_ten hlt]
  omega

/-- Digits behind a positive number spell the number that they extend it to. -/
theorem digits_append (hn : 0 < n) (hds : ∀ d ∈ ds, d.isDigit = true) :
    digits n ++ ds = digits (Nat.ofDigitChars 10 ds n) := by
  induction ds generalizing n with
  | nil => simp
  | cons d ds ih =>
      rcases List.forall_mem_cons.1 hds with ⟨hd, hrest⟩
      rcases digitChar_of_isDigit hd with ⟨hlt, hchar⟩
      have hone : digits n ++ [d] = digits (10 * n + (d.toNat - '0'.toNat)) := by
        have hjoin := Nat.toDigits_append_toDigits (b := 10) (by decide) hn hlt
        rwa [Nat.toDigits_of_lt_base hlt, hchar] at hjoin
      calc
        digits n ++ d :: ds = (digits n ++ [d]) ++ ds := by simp
        _ = digits (10 * n + (d.toNat - '0'.toNat)) ++ ds := by rw [hone]
        _ = digits (Nat.ofDigitChars 10 ds (10 * n + (d.toNat - '0'.toNat))) :=
          ih (by omega) hrest
        _ = digits (Nat.ofDigitChars 10 (d :: ds) n) := by rw [Nat.ofDigitChars_cons]

/-- Digits that do not start with a zero are written in the same way again. -/
theorem digits_value_cons {d : Char} (hd : d.isDigit = true) (hzero : d ≠ '0')
    (hds : ∀ c ∈ ds, c.isDigit = true) : digits (value (d :: ds)) = d :: ds := by
  rcases digitChar_of_isDigit hd with ⟨hlt, hchar⟩
  have hpos : 0 < d.toNat - '0'.toNat := by
    by_contra hnot
    have hnone : d.toNat - '0'.toNat = 0 := by omega
    rw [hnone] at hchar
    exact hzero hchar.symm
  have hfirst : digits (d.toNat - '0'.toNat) = [d] := by
    rw [digits, Nat.toDigits_of_lt_base hlt, hchar]
  have hvalue : value (d :: ds) = Nat.ofDigitChars 10 ds (d.toNat - '0'.toNat) := by
    rw [value, Nat.ofDigitChars_cons]
    simp
  -- The first digit is a positive number, and the others stand behind it.
  calc
    digits (value (d :: ds)) = digits (Nat.ofDigitChars 10 ds (d.toNat - '0'.toNat)) := by
      rw [hvalue]
    _ = digits (d.toNat - '0'.toNat) ++ ds := (digits_append hpos hds).symm
    _ = d :: ds := by rw [hfirst, List.singleton_append]

theorem canonical_digits (n : Nat) : Canonical n (digits n) where
  digits _ := isDigit_of_mem_digits
  nonempty := digits_ne_nil n
  value := value_digits n
  zero h := by
    by_cases hn : n = 0
    · subst hn
      rfl
    · exact absurd h (head?_digits_ne_zero hn)

/-- There is one canonical spelling, the one that is written. -/
theorem canonical_iff : Canonical n ds ↔ ds = digits n := by
  constructor
  · intro h
    rcases List.exists_cons_of_ne_nil h.nonempty with ⟨d, ds, rfl⟩
    rcases List.forall_mem_cons.1 h.digits with ⟨hd, hds⟩
    rw [← h.value]
    by_cases hzero : d = '0'
    · subst hzero
      have hone : '0' :: ds = ['0'] := h.zero rfl
      rw [hone]
      rfl
    · exact (digits_value_cons hd hzero hds).symm
  · rintro rfl
    exact canonical_digits n

end Decimal
end GraphSql
