import Mathlib.Data.List.Forall2

/-!
# Result — computations that answer or fail

When a sequence of computations answers, each of them did:

* `bind_eq_ok_iff`, `map_eq_ok_iff` — one computation after the other;
* `mapM_eq_ok_iff`, `mapM_eq_error_iff`, `exists_mapM_error_iff` — one computation for each element
  of a list;
* `mapM_first_error_iff` — the error of a list, by what its elements answer;
* `mapM_append_ok_iff`, `mapM_append_error_iff` — one list after the other;
* `exists_mapM_related` — the same for two lists, with related answers.
-/

namespace GraphSql
namespace Result

variable {ε α β : Type}

theorem bind_eq_ok_iff {x : Except ε α} {f : α → Except ε β} {b : β} :
    (x >>= f) = .ok b ↔ ∃ a, x = .ok a ∧ f a = .ok b := by
  cases x with
  | error e => simp [bind, Except.bind]
  | ok a => simp [bind, Except.bind]

theorem bind_eq_error_iff {x : Except ε α} {f : α → Except ε β} {e : ε} :
    (x >>= f) = .error e ↔ x = .error e ∨ ∃ a, x = .ok a ∧ f a = .error e := by
  cases x with
  | error e' => simp [bind, Except.bind]
  | ok a => simp [bind, Except.bind]

theorem map_eq_ok_iff {x : Except ε α} {f : α → β} {b : β} :
    x.map f = .ok b ↔ ∃ a, x = .ok a ∧ f a = b := by
  cases x <;> simp [Except.map]

theorem map_eq_error_iff {x : Except ε α} {f : α → β} {e : ε} :
    x.map f = .error e ↔ x = .error e := by
  cases x <;> simp [Except.map]

theorem mapError_eq_ok_iff {ε' : Type} {x : Except ε α} {f : ε → ε'} {a : α} :
    x.mapError f = .ok a ↔ x = .ok a := by
  cases x <;> simp [Except.mapError]

theorem mapError_eq_error_iff {ε' : Type} {x : Except ε α} {f : ε → ε'} {e : ε'} :
    x.mapError f = .error e ↔ ∃ cause, x = .error cause ∧ e = f cause := by
  cases x <;> simp [Except.mapError, eq_comm]

theorem mapM_eq_ok_iff {f : α → Except ε β} {xs : List α} {ys : List β} :
    xs.mapM f = .ok ys ↔ List.Forall₂ (fun x y => f x = .ok y) xs ys := by
  induction xs generalizing ys with
  | nil =>
      have hnil : ([] : List α).mapM f = .ok [] := rfl
      rw [hnil, List.forall₂_nil_left_iff]
      exact ⟨fun h => (Except.ok.inj h).symm, fun h => by rw [h]⟩
  | cons x xs ih =>
      rw [List.mapM_cons, bind_eq_ok_iff, List.forall₂_cons_left_iff]
      constructor
      · rintro ⟨y, hy, hrest⟩
        rcases bind_eq_ok_iff.1 hrest with ⟨ys', hys', heq⟩
        exact ⟨y, ys', hy, ih.1 hys', (Except.ok.inj heq).symm⟩
      · rintro ⟨y, ys', hy, hys', rfl⟩
        exact ⟨y, hy, bind_eq_ok_iff.2 ⟨ys', ih.2 hys', rfl⟩⟩

theorem ne_nil_of_mapM {f : α → Except ε β} {xs : List α} {ys : List β}
    (h : xs.mapM f = .ok ys) (hne : xs ≠ []) : ys ≠ [] := by
  rintro rfl
  exact hne (List.forall₂_nil_right_iff.1 (mapM_eq_ok_iff.1 h))

/-- The error of a list is that of its first element without an answer. -/
theorem mapM_eq_error_iff {f : α → Except ε β} {xs : List α} {e : ε} :
    xs.mapM f = .error e ↔
      ∃ front x back ys, xs = front ++ x :: back ∧ front.mapM f = .ok ys ∧ f x = .error e := by
  induction xs with
  | nil =>
      have hnil : ([] : List α).mapM f = .ok [] := rfl
      simp [hnil]
  | cons x xs ih =>
      rw [List.mapM_cons, bind_eq_error_iff]
      constructor
      -- Either the first element fails, or it answers and a later one fails.
      · rintro (hx | ⟨y, hy, hrest⟩)
        · exact ⟨[], x, xs, [], rfl, rfl, hx⟩
        · rcases bind_eq_error_iff.1 hrest with hxs | ⟨ys, _, habsurd⟩
          · rcases ih.1 hxs with ⟨front, z, back, ys, rfl, hfront, hz⟩
            refine ⟨x :: front, z, back, y :: ys, rfl, ?_, hz⟩
            exact mapM_eq_ok_iff.2 (.cons hy (mapM_eq_ok_iff.1 hfront))
          · simp [pure, Except.pure] at habsurd
      · rintro ⟨front, z, back, ys, heq, hfront, hz⟩
        cases front with
        | nil =>
            rcases List.cons.inj heq with ⟨rfl, rfl⟩
            exact Or.inl hz
        | cons w front =>
            rcases List.cons.inj heq with ⟨rfl, rfl⟩
            rcases List.forall₂_cons_left_iff.1 (mapM_eq_ok_iff.1 hfront) with
              ⟨y, ys', hy, hys', rfl⟩
            have hxs := ih.2 ⟨front, z, back, ys', rfl, mapM_eq_ok_iff.2 hys', hz⟩
            exact Or.inr ⟨y, hy, bind_eq_error_iff.2 (Or.inl hxs)⟩

/-- Each element of the list has its answer among the answers. -/
theorem exists_mem_of_mapM {f : α → Except ε β} {xs : List α} {ys : List β}
    (h : xs.mapM f = .ok ys) {x : α} (hx : x ∈ xs) : ∃ y ∈ ys, f x = .ok y := by
  have hall := mapM_eq_ok_iff.1 h
  clear h
  induction hall with
  | nil => simp at hx
  | cons hy hrest ih =>
      rcases List.mem_cons.1 hx with rfl | hx
      · exact ⟨_, List.mem_cons_self, hy⟩
      · rcases ih hx with ⟨y, hmem, hy⟩
        exact ⟨y, List.mem_cons_of_mem _ hmem, hy⟩

/-- A list fails when one of its elements does. -/
theorem exists_mapM_error_iff {f : α → Except ε β} {xs : List α} :
    (∃ e, xs.mapM f = .error e) ↔ ∃ x ∈ xs, ∃ e, f x = .error e := by
  constructor
  · rintro ⟨e, h⟩
    rcases mapM_eq_error_iff.1 h with ⟨front, x, back, _, rfl, _, hx⟩
    exact ⟨x, by simp, e, hx⟩
  · rintro ⟨x, hmem, e, hx⟩
    cases h : xs.mapM f with
    | error e' => exact ⟨e', rfl⟩
    | ok ys =>
        rcases exists_mem_of_mapM h hmem with ⟨y, _, hy⟩
        simp [hx] at hy

theorem exists_mapM_ok_iff {f : α → Except ε β} {xs : List α} :
    (∃ ys, xs.mapM f = .ok ys) ↔ ∀ x ∈ xs, ∃ y, f x = .ok y := by
  constructor
  · rintro ⟨ys, h⟩ x hx
    rcases exists_mem_of_mapM h hx with ⟨y, _, hy⟩
    exact ⟨y, hy⟩
  · intro hall
    cases h : xs.mapM f with
    | ok ys => exact ⟨ys, rfl⟩
    | error e =>
        rcases exists_mapM_error_iff.1 ⟨e, h⟩ with ⟨x, hx, e', herror⟩
        rcases hall x hx with ⟨y, hy⟩
        simp [herror] at hy

theorem mapM_first_error_iff {f : α → Except ε β} {xs : List α} {e : ε} :
    xs.mapM f = .error e ↔ ∃ front x back, xs = front ++ x :: back ∧
      (∀ y ∈ front, ∃ b, f y = .ok b) ∧ f x = .error e := by
  simp only [mapM_eq_error_iff, ← exists_mapM_ok_iff]
  constructor
  · rintro ⟨front, x, back, ys, hsplit, hfront, hx⟩
    exact ⟨front, x, back, hsplit, ⟨ys, hfront⟩, hx⟩
  · rintro ⟨front, x, back, hsplit, ⟨ys, hfront⟩, hx⟩
    exact ⟨front, x, back, ys, hsplit, hfront, hx⟩

theorem mapM_append_ok_iff {f : α → Except ε β} {xs ys : List α} {zs : List β} :
    (xs ++ ys).mapM f = .ok zs ↔
      ∃ as bs, xs.mapM f = .ok as ∧ ys.mapM f = .ok bs ∧ zs = as ++ bs := by
  rw [List.mapM_append]
  cases xs.mapM f with
  | error e => simp [bind, Except.bind]
  | ok as =>
      cases ys.mapM f <;> simp [bind, Except.bind, pure, Except.pure, eq_comm]

theorem mapM_append_error_iff {f : α → Except ε β} {xs ys : List α} {e : ε} :
    (xs ++ ys).mapM f = .error e ↔
      xs.mapM f = .error e ∨ (∃ as, xs.mapM f = .ok as) ∧ ys.mapM f = .error e := by
  rw [List.mapM_append]
  cases xs.mapM f with
  | error e' => simp [bind, Except.bind]
  | ok as =>
      cases ys.mapM f <;> simp [bind, Except.bind, pure, Except.pure]

/-- Each answer is that of an element of the list. -/
theorem exists_mem_of_mem_mapM {f : α → Except ε β} {xs : List α} {ys : List β}
    (h : xs.mapM f = .ok ys) {y : β} (hy : y ∈ ys) : ∃ x ∈ xs, f x = .ok y := by
  have hall := mapM_eq_ok_iff.1 h
  clear h
  induction hall with
  | nil => simp at hy
  | cons hx hrest ih =>
      rcases List.mem_cons.1 hy with rfl | hy
      · exact ⟨_, List.mem_cons_self, hx⟩
      · rcases ih hy with ⟨x, hmem, hx⟩
        exact ⟨x, List.mem_cons_of_mem _ hmem, hx⟩

/-- Related answers for each pair of elements are related answers for the lists. -/
theorem exists_mapM_related {f : α → Except ε β} {R : β → β → Prop} {xs ys : List α}
    (h : List.Forall₂ (fun x y => ∃ a b, f x = .ok a ∧ f y = .ok b ∧ R a b) xs ys) :
    ∃ as bs, xs.mapM f = .ok as ∧ ys.mapM f = .ok bs ∧ List.Forall₂ R as bs := by
  induction h with
  | nil => exact ⟨[], [], rfl, rfl, .nil⟩
  | cons hfirst _ ih =>
      rcases hfirst with ⟨a, b, ha, hb, hab⟩
      rcases ih with ⟨as, bs, has, hbs, hrest⟩
      refine ⟨a :: as, b :: bs, ?_, ?_, .cons hab hrest⟩
      · exact mapM_eq_ok_iff.2 (.cons ha (mapM_eq_ok_iff.1 has))
      · exact mapM_eq_ok_iff.2 (.cons hb (mapM_eq_ok_iff.1 hbs))

end Result
end GraphSql
