import GraphSql.Proofs.Result
import GraphSql.Statement

/-!
# Reachable — what holds of a statement after any calls

A statement is reached by an opening and then any calls, of which some may be refused.

* `inv_run_of_mem`, `inv_run` — what the opening establishes and every accepted call keeps holds of
  every reachable statement;
* `clauses_content`, `tokens_content` — the content of an opening, part by part.
-/

namespace GraphSql

/-! ## Contents of openings -/

namespace Opening

variable {k : Kind}

theorem filter_foldl_put (ws : List Write) (c : Content) :
    (ws.foldl Content.put c).filter = c.filter := by
  induction ws generalizing c with
  | nil => rfl
  | cons w ws ih => exact ih (c.put w)

theorem clauses_foldl_push (clauses : List Clause) (c : Content) :
    (clauses.foldl Content.push c).filter.clauses = c.filter.clauses ++ clauses := by
  induction clauses generalizing c with
  | nil => simp
  | cons clause clauses ih => simp [ih, Content.push, Filter.push]

theorem tokens_foldl_push (clauses : List Clause) (c : Content) :
    (clauses.foldl Content.push c).tokens = c.tokens := by
  induction clauses generalizing c with
  | nil => rfl
  | cons clause clauses ih => exact ih (c.push clause)

theorem clauses_content (o : Opening k) : o.content.filter.clauses = o.clauses := by
  rw [content, clauses_foldl_push, filter_foldl_put]
  rfl

theorem tokens_content (o : Opening k) :
    o.content.tokens = (o.writes.foldl Content.put .empty).tokens :=
  tokens_foldl_push o.clauses _

end Opening

/-! ## Runs -/

namespace Statement

variable {k : Kind}

theorem call_eq_ok_iff {s s' : Statement k} {c : Call k} :
    s.call c = .ok s' ↔ c.apply s.content = .ok s'.content := by
  rw [call, Result.bind_eq_ok_iff]
  constructor
  · rintro ⟨content, hcontent, hs⟩
    rw [hcontent, ← Except.ok.inj hs]
  · intro h
    exact ⟨s'.content, h, rfl⟩

theorem run_append (s : Statement k) (calls more : List (Call k)) :
    s.run (calls ++ more) = (s.run calls).run more :=
  List.foldl_append

/-- What a call keeps when it is accepted is kept anyway, since a refused call changes nothing. -/
theorem inv_attempt {P : Content → Prop} {c : Call k}
    (hstep : ∀ content content' : Content,
      P content → c.apply content = .ok content' → P content')
    {s : Statement k} (hs : P s.content) : P (s.attempt c).content := by
  rw [attempt]
  cases hcall : s.call c with
  | error e => exact hs
  | ok s' => exact hstep s.content s'.content hs (call_eq_ok_iff.1 hcall)

/-- What the opening establishes and each of the calls keeps holds after the calls. -/
theorem inv_run_of_mem {P : Content → Prop} {o : Opening k} {calls : List (Call k)}
    (hstart : P o.content)
    (hstep : ∀ c ∈ calls, ∀ content content' : Content,
      P content → c.apply content = .ok content' → P content') :
    P ((start o).run calls).content := by
  -- The invariant has to hold of any statement, or the induction on the calls does not go through.
  have hrun : ∀ s : Statement k, P s.content → P (s.run calls).content := by
    induction calls with
    | nil =>
        intro s hs
        exact hs
    | cons c calls ih =>
        intro s hs
        rcases List.forall_mem_cons.1 hstep with ⟨hfirst, hrest⟩
        exact ih hrest (s.attempt c) (inv_attempt hfirst hs)
  exact hrun (start o) hstart

theorem inv_run {P : Content → Prop} {o : Opening k} (hstart : P o.content)
    (hstep : ∀ (c : Call k) (content content' : Content),
      P content → c.apply content = .ok content' → P content')
    (calls : List (Call k)) : P ((start o).run calls).content :=
  inv_run_of_mem hstart fun c _ => hstep c

end Statement
end GraphSql
