import GraphSql.Proofs.Formatter.Refusal

/-!
# Joining — the text of appended values

Some formatters write their values one by one, with a comma between them and nothing around them.
What they make of appended values is what they make of the parts, joined in the same way:

* `joins`, `format_eq_join` — these formatters, and their text;
* `format_append_ok_iff` — there is a text when both parts have one;
* `format_append_error_iff` — the error is that of the first part without a text.
-/

namespace GraphSql
namespace Formatter

variable {f : Formatter} {vs xs ys : List Value}

/-- Values with commas between them and nothing around them. -/
def joins : Formatter → Bool
  | .regular | .quoted | .updates | .recordUpdates | .mapUpdates => true
  | _ => false

theorem format_eq_join (hf : f.joins = true) (hne : vs ≠ []) :
    f.format vs = (vs.mapM f.item).map fun texts => some (commaJoin texts) := by
  have hreturn : ∀ texts : Except Unrepresentable (List String),
      (do return some (← (do return commaJoin (← texts) : Except Unrepresentable String))) =
        texts.map fun texts => some (commaJoin texts) := by
    intro texts
    cases texts <;> rfl
  rcases List.exists_cons_of_ne_nil hne with ⟨v, rest, rfl⟩
  cases f with
  | regular => exact hreturn _
  | quoted => exact hreturn _
  | updates => exact hreturn _
  | recordUpdates => exact hreturn _
  | mapUpdates => exact hreturn _
  | _ => simp [joins] at hf

theorem format_eq_some_iff (hf : f.joins = true) (hne : vs ≠ []) {text : String} :
    f.format vs = .ok (some text) ↔ ∃ texts, vs.mapM f.item = .ok texts ∧ commaJoin texts = text := by
  rw [format_eq_join hf hne, Result.map_eq_ok_iff]
  simp

/-- Appended values have a text when both parts do, and then it is the texts of the parts with a
comma between them. -/
theorem format_append_ok_iff (hf : f.joins = true) (hxs : xs ≠ []) (hys : ys ≠ [])
    {answer : Option String} :
    f.format (xs ++ ys) = .ok answer ↔ ∃ a b, f.format xs = .ok (some a) ∧
      f.format ys = .ok (some b) ∧ answer = some (a ++ ", " ++ b) := by
  have hne : xs ++ ys ≠ [] := List.append_ne_nil_of_left_ne_nil hxs ys
  have hjoin : ∀ {as bs : List String}, xs.mapM f.item = .ok as → ys.mapM f.item = .ok bs →
      commaJoin (as ++ bs) = commaJoin as ++ ", " ++ commaJoin bs := fun has hbs =>
    String.intercalate_append_of_ne_nil (Result.ne_nil_of_mapM has hxs)
      (Result.ne_nil_of_mapM hbs hys)
  simp only [format_eq_some_iff hf hxs, format_eq_some_iff hf hys]
  rw [format_eq_join hf hne, Result.map_eq_ok_iff]
  constructor
  · rintro ⟨texts, htexts, rfl⟩
    rcases Result.mapM_append_ok_iff.1 htexts with ⟨as, bs, has, hbs, rfl⟩
    exact ⟨_, _, ⟨as, has, rfl⟩, ⟨bs, hbs, rfl⟩, by rw [hjoin has hbs]⟩
  · rintro ⟨_, _, ⟨as, has, rfl⟩, ⟨bs, hbs, rfl⟩, rfl⟩
    exact ⟨as ++ bs, Result.mapM_append_ok_iff.2 ⟨as, bs, has, hbs, rfl⟩, by rw [hjoin has hbs]⟩

theorem format_append_error_iff (hf : f.joins = true) (hxs : xs ≠ []) (hys : ys ≠ [])
    {e : Unrepresentable} :
    f.format (xs ++ ys) = .error e ↔ f.format xs = .error e ∨
      (∃ a, f.format xs = .ok (some a)) ∧ f.format ys = .error e := by
  have hne : xs ++ ys ≠ [] := List.append_ne_nil_of_left_ne_nil hxs ys
  have hfront : (∃ a, f.format xs = .ok (some a)) ↔ ∃ as, xs.mapM f.item = .ok as := by
    simp [format_eq_some_iff hf hxs]
  rw [hfront, format_eq_join hf hne, format_eq_join hf hxs, format_eq_join hf hys]
  simp only [Result.map_eq_error_iff, Result.mapM_append_error_iff]

end Formatter
end GraphSql
