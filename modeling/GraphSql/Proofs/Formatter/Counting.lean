import GraphSql.Formatter
import GraphSql.Proofs.Number.Natural
import GraphSql.Proofs.Result

/-!
# Counting — the values that are written behind `LIMIT` and `SKIP`

A count is a non-negative integer below `2 ^ 64`, given as a signed integer, as an unsigned one, or
as a text.  Whatever it is given as, it is written in the same way:

* `Value.Counts` — the values that are a count, with the number they stand for;
* `Value.count_eq_ok_iff`, `Value.count_eq_error_iff` — which values are read as a count;
* `Counter` — what is counted, the records to return or the records to skip;
* `format_counter_ok_iff`, `format_counter_error_iff` — the text is the keyword and the canonical
  digits of the first value, and a first value that is no count is refused.
-/

namespace GraphSql

/-! ## Values -/

theorem Width.uint64?_eq_some_iff {i : Int} {u : UInt64} :
    Width.uint64? i = some u ↔ (u.toNat : Int) = i := by
  constructor
  · exact Width.toNat_of_uint64?
  · rintro rfl
    exact Width.uint64?_toNat u

namespace Value

variable {v : Value} {n : Nat} {u : UInt64}

inductive Counts : Value → Nat → Prop
  | int {i : Int64} {n : Nat} : i.toInt = n → Counts (.int i) n
  | uint (u : UInt64) : Counts (.uint u) u.toNat
  | string {s : String} {n : Nat} :
      Decimal.DenotesCount (Text.trim s.toList) n → n < 18446744073709551616 → Counts (.string s) n

theorem Counts.lt (h : v.Counts n) : n < 18446744073709551616 := by
  cases h with
  | @int i _ hi =>
      have hhigh := i.toInt_lt
      omega
  | uint u => exact u.toNat_lt
  | string _ hlt => exact hlt

theorem Counts.exists_uint (h : v.Counts n) : ∃ u : UInt64, u.toNat = n :=
  ⟨UInt64.ofNat n, UInt64.toNat_ofNat_of_lt' h.lt⟩

theorem count?_eq_some_iff : v.count? = some u ↔ v.Counts u.toNat := by
  cases v with
  | int i =>
      rw [count?, Width.uint64?_eq_some_iff]
      constructor
      · intro h
        exact .int h.symm
      · intro h
        cases h with
        | int hi => exact hi.symm
  | uint w =>
      rw [count?, Option.some.injEq]
      constructor
      · rintro rfl
        exact .uint w
      · intro h
        -- The number is the one of `w`, and an unsigned integer is fixed by its number.
        generalize hn : u.toNat = n at h
        cases h with
        | uint => exact (UInt64.toNat_inj.1 hn).symm
  | string s =>
      rw [count?]
      constructor
      · intro h
        split at h
        · rename_i n hread
          have hu : u.toNat = n := by exact_mod_cast Width.toNat_of_uint64? h
          subst hu
          exact .string (Decimal.natural?_eq_some_iff.1 hread) u.toNat_lt
        · simp at h
      · intro h
        cases h with
        | string hread _ =>
            rw [Decimal.natural?_eq_some_iff.2 hread]
            exact Width.uint64?_toNat u
  | _ =>
      constructor
      · intro h
        simp [count?] at h
      · intro h
        cases h

theorem count_eq_ok_iff : v.count = .ok u ↔ v.Counts u.toNat := by
  rw [count, ← count?_eq_some_iff]
  cases v.count? <;> simp

theorem count_eq_error_iff {e : Unrepresentable} :
    v.count = .error e ↔ e = .wantsCount v.shape ∧ ∀ n, ¬v.Counts n := by
  have hnone : (∀ n, ¬v.Counts n) ↔ v.count? = none := by
    rw [Option.eq_none_iff_forall_ne_some]
    constructor
    · intro h u hu
      exact h u.toNat (count?_eq_some_iff.1 hu)
    · intro h n hn
      rcases hn.exists_uint with ⟨u, rfl⟩
      exact h u (count?_eq_some_iff.2 hn)
  rw [hnone, count]
  cases v.count? <;> simp [eq_comm]

end Value

/-! ## Texts -/

/-- What a statement counts: the records to return at most, or the records to skip. -/
inductive Counter
  | limit
  | skip
  deriving DecidableEq, Repr

namespace Counter

variable {v : Value} {vs : List Value}

def formatter : Counter → Formatter
  | .limit => .limit
  | .skip => .skip

def token : Counter → String
  | .limit => "Limit"
  | .skip => "Skip"

def keyword : Counter → String
  | .limit => "LIMIT"
  | .skip => "SKIP"

/-- The keyword and the digits, with a space between them. -/
def phrase (counter : Counter) (digits : List Char) : String :=
  counter.keyword ++ " " ++ String.ofList digits

theorem framed_phrase (counter : Counter) (n : Nat) :
    Text.Framed (counter.phrase (Decimal.digits n)).toList ∧
      ¬Text.TwoSpaces (counter.phrase (Decimal.digits n)).toList := by
  have hkeyword : Text.Spelled counter.keyword.toList ∧ counter.keyword.toList ≠ [] := by
    cases counter <;> exact ⟨by decide, by decide⟩
  have hphrase : (counter.phrase (Decimal.digits n)).toList =
      counter.keyword.toList ++ ' ' :: Decimal.digits n := by
    simp [phrase]
  rw [hphrase]
  exact ⟨hkeyword.1.framed_spaced hkeyword.2 (Decimal.spelled_digits n) (Decimal.digits_ne_nil n),
    hkeyword.1.not_twoSpaces_spaced (Decimal.spelled_digits n)⟩

theorem format_eq_map (counter : Counter) (v : Value) (vs : List Value) :
    counter.formatter.format (v :: vs) =
      v.count.map fun u => some (counter.phrase (Decimal.digits u.toNat)) := by
  cases counter <;>
    cases hcount : v.count <;>
      simp [formatter, Formatter.format, Formatter.formatSome, hcount, bind, Except.bind, pure,
        Except.pure, Except.map, Formatter.countText, phrase, keyword]

theorem format_counter_ok_iff (counter : Counter) {answer : Option String} :
    counter.formatter.format (v :: vs) = .ok answer ↔
      ∃ n ds, v.Counts n ∧ Decimal.Canonical n ds ∧ answer = some (counter.phrase ds) := by
  rw [format_eq_map, Result.map_eq_ok_iff]
  constructor
  · rintro ⟨u, hu, rfl⟩
    exact ⟨u.toNat, Decimal.digits u.toNat, Value.count_eq_ok_iff.1 hu,
      Decimal.canonical_digits u.toNat, rfl⟩
  · rintro ⟨n, ds, hcounts, hdigits, rfl⟩
    rcases hcounts.exists_uint with ⟨u, rfl⟩
    refine ⟨u, Value.count_eq_ok_iff.2 hcounts, ?_⟩
    rw [Decimal.canonical_iff.1 hdigits]

theorem format_counter_error_iff (counter : Counter) {e : Unrepresentable} :
    counter.formatter.format (v :: vs) = .error e ↔
      e = .wantsCount v.shape ∧ ∀ n, ¬v.Counts n := by
  rw [format_eq_map, Result.map_eq_error_iff, Value.count_eq_error_iff]

end Counter
end GraphSql
