/-!
# Reader — reading a text from the left

A reader takes something off the front of a text and says what is left, or fails.

* `Reader.run` — the longest run of characters of a class, which must not be empty;
* `Reader.either` — the first reader, or the second where the first fails;
* `Reader.many` — a reader repeated until it fails.  A round that takes nothing would repeat for
  ever, so it makes the whole fail;
* `Reader.many1` — the same with at least one round;
* `Reader.Reads` — what the rounds of `many` take, one after the other.
-/

namespace GraphSql
namespace Text

abbrev Reader (α : Type) :=
  List Char → Option (α × List Char)

namespace Reader

variable {α β : Type}

/-! ## Readers -/

def run (p : Char → Bool) : Reader (List Char) := fun cs =>
  match cs.takeWhile p with
  | [] => none
  | c :: taken => some (c :: taken, cs.dropWhile p)

def map (f : α → β) (r : Reader α) : Reader β := fun cs =>
  (r cs).map fun found => (f found.1, found.2)

def either (r s : Reader α) : Reader α := fun cs =>
  match r cs with
  | some found => some found
  | none => s cs

def many (r : Reader α) (cs : List Char) : Option (List α × List Char) :=
  match r cs with
  | none => some ([], cs)
  | some (x, rest) =>
      -- A round that takes nothing would go on for ever, so it is an error.
      if rest.length < cs.length then
        (many r rest).map fun found => (x :: found.1, found.2)
      else
        none
  termination_by cs.length

def many1 (r : Reader α) : Reader (List α) := fun cs =>
  match r cs with
  | none => none
  | some (x, rest) => (many r rest).map fun found => (x :: found.1, found.2)

/-! ## Runs -/

theorem run_append {p : Char → Bool} {taken rest : List Char} (hne : taken ≠ [])
    (hp : ∀ c ∈ taken, p c = true) (hrest : ∀ c, rest.head? = some c → p c = false) :
    run p (taken ++ rest) = some (taken, rest) := by
  -- What follows the run is empty or starts with a character outside of it.
  have hstop : rest.takeWhile p = [] ∧ rest.dropWhile p = rest := by
    cases rest with
    | nil => exact ⟨rfl, rfl⟩
    | cons c cs => simp [hrest c rfl]
  cases taken with
  | nil => exact absurd rfl hne
  | cons c cs =>
      have htake : ((c :: cs) ++ rest).takeWhile p = c :: cs := by
        rw [List.takeWhile_append_of_pos hp, hstop.1, List.append_nil]
      have hdrop : ((c :: cs) ++ rest).dropWhile p = rest := by
        rw [List.dropWhile_append_of_pos hp, hstop.2]
      rw [run, htake, hdrop]

theorem run_eq_none {p : Char → Bool} {cs : List Char}
    (h : ∀ c, cs.head? = some c → p c = false) : run p cs = none := by
  cases cs with
  | nil => rfl
  | cons c cs => simp [run, h c rfl]

/-- The run at the front of a text, and the place where it stops. -/
theorem exists_run {p : Char → Bool} {c : Char} (hc : p c = true) (cs : List Char) :
    ∃ taken rest, cs = taken ++ rest ∧ (∀ d ∈ c :: taken, p d = true) ∧
      ∀ d, rest.head? = some d → p d = false := by
  induction cs with
  | nil => exact ⟨[], [], rfl, by simp [hc], by simp⟩
  | cons d ds ih =>
      by_cases hd : p d = true
      · rcases ih with ⟨taken, rest, rfl, htaken, hrest⟩
        refine ⟨d :: taken, rest, rfl, ?_, hrest⟩
        simp_all
      · refine ⟨[], d :: ds, rfl, by simp [hc], ?_⟩
        intro e he
        obtain rfl : d = e := by simpa using he
        simpa using hd

/-! ## Rounds -/

inductive Reads (r : Reader α) : List Char → List α → List Char → Prop
  | done {cs : List Char} : r cs = none → Reads r cs [] cs
  | step {cs mid rest : List Char} {x : α} {xs : List α} :
      r cs = some (x, mid) → mid.length < cs.length → Reads r mid xs rest →
        Reads r cs (x :: xs) rest

theorem many_eq_of_reads {r : Reader α} {cs rest : List Char} {xs : List α}
    (h : Reads r cs xs rest) : many r cs = some (xs, rest) := by
  -- One round of `many` for each step; the length check of a round is the one of the step.
  induction h with
  | done hnone =>
      rw [many, hnone]
  | step hfound hlt _ ih =>
      rw [many, hfound]
      simp [hlt, ih]

theorem many1_eq_of_reads {r : Reader α} {cs rest : List Char} {x : α} {xs : List α}
    (h : Reads r cs (x :: xs) rest) : many1 r cs = some (x :: xs, rest) := by
  cases h with
  | step hfound hlt htail =>
      rw [many1, hfound]
      simp [many_eq_of_reads htail]

end Reader
end Text
end GraphSql
