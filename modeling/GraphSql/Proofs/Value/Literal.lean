import GraphSql.Proofs.Result
import GraphSql.Value.Text

/-!
# Literal — which values have a literal

A field pair has no literal, and neither has a list with a field pair in it at any depth.  Every
other value has one, and the only error is `Unrepresentable.pairLiteral`.
-/

namespace GraphSql
namespace Value

/-! ## Induction on values -/

/-- To prove a property of all values, prove it of a list from its items. -/
@[elab_as_elim]
theorem induct {P : Value → Prop}
    (scalar : ∀ v : Value, v.shape ≠ .list → v.shape ≠ .pair → P v)
    (list : ∀ items : List Value, (∀ v ∈ items, P v) → P (.list items))
    (pair : ∀ (field : String) (value : Value), P value → P (.pair field value))
    (v : Value) : P v :=
  @Value.rec P (fun items => ∀ v ∈ items, P v)
    (scalar _ nofun nofun) (fun _ => scalar _ nofun nofun) (fun _ => scalar _ nofun nofun)
    (fun _ => scalar _ nofun nofun) (fun _ => scalar _ nofun nofun)
    (fun _ => scalar _ nofun nofun) (fun _ => scalar _ nofun nofun)
    (fun _ => scalar _ nofun nofun) list pair (by simp)
    (fun _ _ hhead htail => List.forall_mem_cons.2 ⟨hhead, htail⟩) v

/-! ## Values without a literal -/

/-- The value is a field pair, or a list that holds one at any depth. -/
inductive HoldsPair : Value → Prop
  | pair (field : String) (value : Value) : HoldsPair (.pair field value)
  | item {v : Value} {items : List Value} : v ∈ items → HoldsPair v → HoldsPair (.list items)

theorem literal_list (items : List Value) :
    (Value.list items).literal =
      (items.mapM literal).map fun texts => "[" ++ ",".intercalate texts ++ "]" := by
  rw [literal, literals_eq_mapM]
  cases items.mapM literal <;> rfl

/-- A scalar has a literal. -/
theorem exists_literal_of_scalar {v : Value} (hlist : v.shape ≠ .list) (hpair : v.shape ≠ .pair) :
    ∃ text, v.literal = .ok text := by
  cases v with
  | bool b => cases b <;> simp [literal, plain]
  | list items => exact absurd rfl hlist
  | pair field value => exact absurd rfl hpair
  | _ => simp [literal, plain]

theorem holdsPair_of_literal_error {v : Value} {e : Unrepresentable} (h : v.literal = .error e) :
    e = .pairLiteral ∧ v.HoldsPair := by
  induction v using Value.induct with
  | scalar v hlist hpair =>
      -- Only lists and pairs can fail.
      rcases exists_literal_of_scalar hlist hpair with ⟨text, htext⟩
      simp [htext] at h
  | list items ih =>
      rw [literal_list, Result.map_eq_error_iff, Result.mapM_eq_error_iff] at h
      rcases h with ⟨front, v, back, texts, rfl, _, hv⟩
      rcases ih v (by simp) hv with ⟨he, hholds⟩
      exact ⟨he, .item (by simp) hholds⟩
  | pair field value _ =>
      rw [literal] at h
      exact ⟨(Except.error.inj h).symm, .pair field value⟩

theorem not_holdsPair_of_literal {v : Value} {text : String} (h : v.literal = .ok text) :
    ¬v.HoldsPair := by
  intro hholds
  induction hholds generalizing text with
  | pair field value => simp [literal] at h
  | item hmem _ ih =>
      rw [literal_list, Result.map_eq_ok_iff] at h
      rcases h with ⟨texts, htexts, _⟩
      rcases Result.exists_mem_of_mapM htexts hmem with ⟨text, _, hv⟩
      exact ih hv

/-- The values without a literal are those that hold a field pair. -/
theorem literal_eq_error_iff {v : Value} {e : Unrepresentable} :
    v.literal = .error e ↔ e = .pairLiteral ∧ v.HoldsPair := by
  constructor
  · exact holdsPair_of_literal_error
  · rintro ⟨rfl, hholds⟩
    cases hv : v.literal with
    | ok text => exact absurd hholds (not_holdsPair_of_literal hv)
    | error e => rw [(holdsPair_of_literal_error hv).1]

end Value
end GraphSql
