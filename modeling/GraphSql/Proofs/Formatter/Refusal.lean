import GraphSql.Formatter
import GraphSql.Proofs.Value.Literal

/-!
# Refusal — the values that a formatter cannot write

A formatter writes the values of a token one by one, or the first of them only.  It fails when it
has no text for one of them:

* `Value.Compound` — a list or a field pair, which cannot be written as it stands;
* `Formatter.item`, `Formatter.Refuses` — what is written for one value, and the values without it;
* `exists_format_error_iff` — a formatter of all values fails exactly when it refuses one of them;
* `exists_refused_of_format` — no formatter but `between`, which counts its bounds, fails otherwise;
* `refuses_verbatim_iff`, `refuses_quoted_iff`, `refuses_updates_pair_iff` — what is refused.
-/

namespace GraphSql

/-! ## Values that cannot be written as they stand -/

namespace Value

variable {v : Value}

def Compound (v : Value) : Prop :=
  v.shape = .list ∨ v.shape = .pair

theorem plain_error_iff : (∃ e, v.plain = .error e) ↔ v.Compound := by
  cases v with
  | bool b => cases b <;> simp [plain, Compound, shape]
  | _ => simp [plain, Compound, shape]

theorem literal_error_iff : (∃ e, v.literal = .error e) ↔ v.HoldsPair := by
  simp [literal_eq_error_iff]

theorem HoldsPair.compound (h : v.HoldsPair) : v.Compound := by
  cases h with
  | pair field value => exact Or.inr rfl
  | item hmem _ => exact Or.inl rfl

end Value

namespace Formatter

variable {f : Formatter} {v : Value} {vs : List Value}

/-! ## One value -/

/-- What is written for one value; words, brackets and commas come on top. -/
def item : Formatter → Value → Except Unrepresentable String
  | .recordId => fun v => v.reference.map RecordId.text
  | .limit => fun v => v.count.map countText
  | .skip => fun v => v.count.map countText
  | .quoted => Value.literal
  | .between => Value.literal
  | .updates => assignment fun _ value => value.literal
  | .recordUpdates => assignment fun _ value => do return (← value.reference).text
  | .mapUpdates => assignment mapEntry
  | _ => Value.plain

def Refuses (f : Formatter) (v : Value) : Prop :=
  ∃ e, f.item v = .error e

/-- The formatter writes values as they stand, all of them. -/
def isVerbatim : Formatter → Bool
  | .regular | .doubleQuoted | .classList | .target | .keyword _ => true
  | _ => false

theorem refuses_verbatim_iff (hf : f.isVerbatim = true) : f.Refuses v ↔ v.Compound := by
  cases f with
  | regular => exact Value.plain_error_iff
  | doubleQuoted => exact Value.plain_error_iff
  | classList => exact Value.plain_error_iff
  | target => exact Value.plain_error_iff
  | keyword word => exact Value.plain_error_iff
  | _ => simp [isVerbatim] at hf

theorem refuses_quoted_iff : quoted.Refuses v ↔ v.HoldsPair :=
  Value.literal_error_iff

theorem refuses_updates_pair_iff {field : String} :
    updates.Refuses (.pair field v) ↔ v.HoldsPair := by
  rw [← Value.literal_error_iff, Refuses, item, assignment]
  cases v.literal <;> simp [bind, Except.bind, pure, Except.pure]

/-! ## All values of a token -/

/-- The formatter writes every value, not only the first. -/
def writesAll : Formatter → Bool
  | .recordId | .limit | .skip | .between => false
  | _ => true

theorem format_cons_error_iff (hf : f.writesAll = true) {e : Unrepresentable} :
    f.format (v :: vs) = .error e ↔ (v :: vs).mapM f.item = .error e := by
  cases f with
  | target =>
      -- One value stands alone and several in brackets, but they are written alike.
      cases vs <;> simp [format, formatSome, joinPlain, item, Result.bind_eq_error_iff, pure,
        Except.pure]
  | _ =>
      simp [format, formatSome, joinPlain, item, Result.bind_eq_error_iff, pure, Except.pure,
        writesAll] at hf ⊢

/-- A formatter of all values fails exactly when it refuses one of them. -/
theorem exists_format_error_iff (hf : f.writesAll = true) :
    (∃ e, f.format vs = .error e) ↔ ∃ v ∈ vs, f.Refuses v := by
  cases vs with
  | nil => simp [format]
  | cons v vs =>
      simp only [format_cons_error_iff hf]
      exact Result.exists_mapM_error_iff

/-- A formatter that takes any number of values fails over a value that it refuses. -/
theorem exists_refused_of_format (hf : f ≠ .between) {e : Unrepresentable}
    (h : f.format vs = .error e) : ∃ v ∈ vs, f.Refuses v := by
  by_cases hall : f.writesAll = true
  · exact (exists_format_error_iff hall).1 ⟨e, h⟩
  · cases vs with
    | nil => simp [format] at h
    | cons v vs =>
        -- The others write their first value only.
        refine ⟨v, List.mem_cons_self, e, ?_⟩
        cases f with
        | between => exact absurd rfl hf
        | recordId =>
            simpa [format, formatSome, item, Result.bind_eq_error_iff, Result.map_eq_error_iff,
              pure, Except.pure] using h
        | limit =>
            simpa [format, formatSome, item, Result.bind_eq_error_iff, Result.map_eq_error_iff,
              pure, Except.pure] using h
        | skip =>
            simpa [format, formatSome, item, Result.bind_eq_error_iff, Result.map_eq_error_iff,
              pure, Except.pure] using h
        | _ => simp [writesAll] at hall

end Formatter
end GraphSql
