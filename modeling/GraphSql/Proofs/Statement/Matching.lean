import GraphSql.Proofs.Filter.Literals
import GraphSql.Proofs.Statement.Filtering

/-!
# Matching — the markers of the clauses that a statement holds

A clause matches when its condition has one marker for its value, and none when it has no value.
Openings put clauses that match, and calls on the filter refuse all others.  A range is put without
a check, and its key goes into the condition as it stands:

* `Opening.matches_clauses` — the clauses of an opening match;
* `Call.PutsRange` — the clause that an accepted range puts;
* `Call.matches_of_apply`, `matches_run_of_ranges` — what one call keeps, and what a run keeps;
* `matches_range_iff` — a range whose key has its quotes closed matches when the key has no marker;
* `matches_run_iff` — the clauses held match in every state of a run exactly when its ranges do.
-/

namespace GraphSql

open Condition (Closed Markerless Sealed markers)

/-! ## Clauses of openings -/

theorem Opening.matches_clauses {k : Kind} (o : Opening k) {clause : Clause} :
    clause ∈ o.clauses → clause.Matches := by
  have hkey : (markers "key = ?").length = 1 := by decide +kernel
  have hlink : (markers "rid = ?").length = 1 := by decide +kernel
  intro hmem
  cases o with
  | deleteEdgeById edge =>
      have hclause : clause = ⟨.none, "rid = ?", some edge⟩ := by simpa [clauses] using hmem
      rw [hclause]
      exact hlink
  | indexRemove name key link =>
      cases key <;> cases link <;> simp only [clauses, entryClauses, List.mem_cons,
        List.not_mem_nil, or_false] at hmem
      · rw [hmem]
        exact hlink
      · rw [hmem]
        exact hkey
      · rcases hmem with rfl | rfl
        · exact hkey
        · exact hlink
  | _ => simp [clauses] at hmem

/-! ## Clauses that calls put -/

theorem Filter.forall_mem_push {P : Clause → Prop} {f : Filter} {new : Clause} :
    (∀ clause ∈ f.clauses, P clause) → P new → ∀ clause ∈ (f.push new).clauses, P clause := by
  intro hf hnew clause hmem
  rcases List.mem_append.1 hmem with hold | hlast
  · exact hf clause hold
  · rw [List.mem_singleton.1 hlast]
    exact hnew

namespace Call

variable {k : Kind}

/-- The call puts the clause, a range, in place of the filter. -/
def PutsRange (clause : Clause) : Call k → Prop
  | .between key left right => rangeClause key left right = .ok clause
  | _ => False

theorem clauses_of_putsRange {c : Call k} {clause : Clause} (h : c.PutsRange clause)
    (content : Content) :
    ∃ content', c.apply content = .ok content' ∧ content'.filter.clauses = [clause] := by
  cases c with
  | between key left right =>
      have hrange : rangeClause key left right = .ok clause := h
      refine ⟨content.resetFilter.push clause, ?_, rfl⟩
      rw [apply, hrange]
      rfl
  | _ => exact h.elim

/-- A range keeps the clauses matching when its own clause does, and any other call anyway. -/
theorem matches_of_apply {c : Call k} {content content' : Content}
    (hrange : ∀ clause, c.PutsRange clause → clause.Matches)
    (h : c.apply content = .ok content') :
    (∀ clause ∈ content.filter.clauses, clause.Matches) →
      ∀ clause ∈ content'.filter.clauses, clause.Matches := by
  intro hheld
  cases c with
  | fill f =>
      have hcontent : content' = content.put f.write := (Except.ok.inj h).symm
      simpa [hcontent, Content.put, Content.write] using hheld
  | filter hk call =>
      rcases FilterCall.cases_of_apply h with rfl | ⟨clause, hmatch, _, rfl⟩
      · simp [Content.resetFilter, Filter.empty]
      · exact Filter.forall_mem_push hheld hmatch
  | between key left right =>
      rcases Result.bind_eq_ok_iff.1 h with ⟨made, hmade, hcontent⟩
      have hmatch : made.Matches := hrange made hmade
      obtain rfl := Except.ok.inj hcontent
      exact Filter.forall_mem_push (by simp [Content.resetFilter, Filter.empty]) hmatch

/-- With every quote of its key closed, a range has the markers of the key: its bounds bring none. -/
theorem matches_range_iff {key : String} {left right : Value} {clause : Clause}
    (h : rangeClause key left right = .ok clause) (hclosed : Closed key.toList) :
    clause.Matches ↔ markers key = [] := by
  have hbounds : ¬(left.HoldsPair ∨ right.HoldsPair) := by
    intro hpair
    exact absurd (h.symm.trans (rangeClause_of_holdsPair key hpair)) (by simp)
  rcases exists_literals_of_not_holdsPair hbounds with ⟨low, high, hleft, hright⟩
  have hclause := Except.ok.inj (h.symm.trans (rangeClause_of_literals key hleft hright))
  have hbetween : Sealed " BETWEEN ".toList := .of_plain (by decide)
  have hand : Sealed " AND ".toList := .of_plain (by decide)
  have hbehind : Sealed (" BETWEEN ".toList ++ (low.toList ++ (" AND ".toList ++ high.toList))) :=
    hbetween.append ((Value.sealed_literal hleft).append
      (hand.append (Value.sealed_literal hright)))
  have hsplit : clause.condition.toList =
      key.toList ++ (" BETWEEN ".toList ++ (low.toList ++ (" AND ".toList ++ high.toList))) := by
    simp [hclause]
  have hmatches : clause.Matches ↔ markers clause.condition = [] := by
    simp [Clause.Matches, hclause, Clause.expectedMarkers]
  calc
    clause.Matches ↔ Markerless clause.condition.toList :=
      hmatches.trans Condition.markers_eq_nil_iff
    _ ↔ Markerless key.toList := by
      rw [hsplit, Condition.markerless_append_iff hclosed, and_iff_left hbehind.markerless]
    _ ↔ markers key = [] := Condition.markers_eq_nil_iff.symm

end Call

/-! ## Reachable statements -/

namespace Statement

variable {k : Kind}

theorem matches_run_of_ranges {o : Opening k} {calls : List (Call k)}
    (hranges : ∀ c ∈ calls, ∀ clause, c.PutsRange clause → clause.Matches) :
    ∀ clause ∈ ((start o).run calls).content.filter.clauses, clause.Matches := by
  refine inv_run_of_mem (P := fun content => ∀ clause ∈ content.filter.clauses, clause.Matches)
    ?_ ?_
  · intro clause hmem
    rw [Opening.clauses_content] at hmem
    exact o.matches_clauses hmem
  · intro c hc content content' hheld hstep
    exact Call.matches_of_apply (hranges c hc) hstep hheld

/-- A `SELECT` is the only statement with ranges. -/
theorem matches_run (hk : k ≠ .select) (o : Opening k) (calls : List (Call k)) :
    ∀ clause ∈ ((start o).run calls).content.filter.clauses, clause.Matches := by
  refine matches_run_of_ranges ?_
  intro c _ clause hrange
  cases c with
  | between key left right => exact absurd rfl hk
  | _ => exact hrange.elim

theorem clauses_run_range {o : Opening k} {c : Call k} {clause : Clause} (h : c.PutsRange clause)
    (front : List (Call k)) :
    ((start o).run (front ++ [c])).content.filter.clauses = [clause] := by
  rcases Call.clauses_of_putsRange h ((start o).run front).content with ⟨content', happly, hclauses⟩
  have hcall : ((start o).run front).call c = .ok ⟨content'⟩ := call_eq_ok_iff.2 happly
  have hattempt : ((start o).run front).attempt c = ⟨content'⟩ := by
    simp [attempt, hcall]
  have hrun : (start o).run (front ++ [c]) = ⟨content'⟩ := by
    rw [run_append]
    exact hattempt
  rw [hrun]
  exact hclauses

/-- In every state of a run all clauses match exactly when the clauses of its ranges do, and with
every quote of its key closed a range matches exactly when the key has no marker. -/
theorem matches_run_iff (o : Opening k) (calls : List (Call k)) :
    ((∀ front, front <+: calls →
        ∀ clause ∈ ((start o).run front).content.filter.clauses, clause.Matches) ↔
      ∀ c ∈ calls, ∀ clause, c.PutsRange clause → clause.Matches) ∧
    ∀ (key : String) (left right : Value) (clause : Clause),
      Call.rangeClause key left right = .ok clause → Closed key.toList →
        (clause.Matches ↔ markers key = []) := by
  refine ⟨⟨?_, ?_⟩, fun key left right clause => Call.matches_range_iff⟩
  · intro hheld c hc clause hrange
    rcases List.append_of_mem hc with ⟨front, back, rfl⟩
    -- Right after the range its clause is the only one held.
    have hfront : front ++ [c] <+: front ++ c :: back := ⟨back, by simp⟩
    have honly := clauses_run_range (o := o) hrange front
    exact hheld (front ++ [c]) hfront clause (by simp [honly])
  · intro hranges front hfront
    exact matches_run_of_ranges fun c hc => hranges c (hfront.subset hc)

/-- The marker of this key is part of a literal, and so are the quote and the marker of the bound. -/
def quotedKey : String :=
  "n = 'a?' AND k"

def quotedRange : Clause :=
  ⟨.none, quotedKey ++ " BETWEEN " ++ "'b\\'?'" ++ " AND " ++ "NULL", none⟩

theorem matches_run_quotedKey :
    Call.rangeClause quotedKey (.string "b'?") .null = .ok quotedRange ∧
      Closed quotedKey.toList ∧ quotedRange.Matches ∧
      ∀ clause ∈ ((start (.select [])).run
          [.between quotedKey (.string "b'?") .null]).content.filter.clauses, clause.Matches := by
  have hlow : (Value.string "b'?").literal = .ok "'b\\'?'" := by decide +kernel
  have hhigh : Value.null.literal = .ok "NULL" := by decide +kernel
  have hrange : Call.rangeClause quotedKey (.string "b'?") .null = .ok quotedRange :=
    Call.rangeClause_of_literals quotedKey hlow hhigh
  have hclosed : Closed quotedKey.toList := by decide +kernel
  have hmatches := matches_run_iff (.select []) [.between quotedKey (.string "b'?") .null]
  have hrangeMatches : quotedRange.Matches :=
    (hmatches.2 _ _ _ _ hrange hclosed).2 (by decide +kernel)
  refine ⟨hrange, hclosed, hrangeMatches, hmatches.1.2 ?_ _ (List.prefix_refl _)⟩
  intro c hc clause hputs
  obtain rfl := List.mem_singleton.1 hc
  obtain rfl := Except.ok.inj (hrange.symm.trans hputs)
  exact hrangeMatches

/-- A range can put a marker into a filter without a value for it. -/
theorem not_matches_run :
    ¬∀ (k : Kind) (o : Opening k) (calls : List (Call k)),
      ∀ clause ∈ ((start o).run calls).content.filter.clauses, clause.Matches := by
  intro h
  have hlow : (Value.int 1).literal = .ok "1" := by decide +kernel
  have hhigh : (Value.int 2).literal = .ok "2" := by decide +kernel
  have hputs : (Call.between "k?" (.int 1) (.int 2)).PutsRange
      ⟨.none, "k?" ++ " BETWEEN " ++ "1" ++ " AND " ++ "2", none⟩ :=
    Call.rangeClause_of_literals "k?" hlow hhigh
  have hclauses := clauses_run_range (o := .select ["a"]) hputs []
  have hmatch := h .select (.select ["a"]) _ _ (hclauses ▸ List.mem_singleton_self _)
  exact absurd hmatch (by decide +kernel)

-- With an open quote in its key a range can have a marker where neither key nor bounds have one.
example : (markers "' BETWEEN '?' AND NULL").length = 1 := by decide +kernel

end Statement
end GraphSql
