import GraphSql.Proofs.Filter.Splicing
import GraphSql.Proofs.Statement.Reachable
import GraphSql.Proofs.Value.Literal

/-!
# Filtering — the filter of a statement as a state machine

The states are filters and the moves are calls.  A call brings a clause, replaces the filter by a
range, empties it, or leaves it alone:

* `Call.Answers` — what each call answers, and the filter it leaves;
* `Filter.Step` — how an accepted call moves the filter;
* `Filter.Connected` — every clause but the first has a connector, whatever the calls were;
* `Filter.Written` — the text of such a filter.
-/

namespace GraphSql

/-- The clause that a call brings, if it brings one. -/
def FilterCall.clause? : FilterCall → Option Clause
  | .whereValue condition value => some ⟨.none, condition, some value⟩
  | .andValue condition value => some ⟨.and, condition, some value⟩
  | .orValue condition value => some ⟨.or, condition, some value⟩
  | .bare connector condition => some ⟨connector, condition, none⟩
  | .reset => none

/-! ## Answers -/

namespace Filter

/-- A clause whose markers do not match is refused, with the number that it needs and the number that
it has.  Otherwise one without a connector is refused when there is a clause already, and any other
is put behind the clauses. -/
structure Adds (f : Filter) (clause : Clause) (answer : Except QueryError Filter) : Prop where
  mismatch : answer = .error (.markerMismatch clause.condition
      (Clause.expectedMarkers clause.value) (Condition.markers clause.condition).length) ↔
    ¬clause.Matches
  alreadyOpen : answer = .error (.filterAlreadyOpen clause.condition) ↔
    clause.Matches ∧ clause.connector = .none ∧ f.clauses ≠ []
  accepted : answer = .ok ⟨f.clauses ++ [clause]⟩ ↔
    clause.Matches ∧ (clause.connector = .none → f.clauses = [])

/-- A range is refused when a bound has no literal.  Otherwise it is the only clause. -/
structure Ranges (key : String) (left right : Value) (answer : Except QueryError Filter) :
    Prop where
  refused : (∃ e, answer = .error e) ↔ left.HoldsPair ∨ right.HoldsPair
  cause : ∀ e, answer = .error e → e = .valueType whereToken .pairLiteral
  replaced : ∀ f, answer = .ok f → ∃ low high, left.literal = .ok low ∧ right.literal = .ok high ∧
      f.clauses = [⟨.none, key ++ " BETWEEN " ++ low ++ " AND " ++ high, none⟩]

end Filter

/-- What a call on a statement with filter `f` answers, as far as the filter is concerned. -/
def Call.Answers {k : Kind} (f : Filter) (answer : Except QueryError Filter) : Call k → Prop
  | .fill _ => answer = .ok f
  | .filter _ call =>
      match call.clause? with
      | some clause => f.Adds clause answer
      | none => answer = .ok .empty
  | .between key left right => Filter.Ranges key left right answer

namespace FilterCall

theorem apply_of_clause? {call : FilterCall} {clause : Clause} (h : call.clause? = some clause)
    (c : Content) :
    call.apply c =
      (Clause.make clause.connector clause.condition clause.value >>= fun made =>
        if clause.connector = .none then c.openWith made else .ok (c.push made)) := by
  cases call with
  | whereValue condition value =>
      obtain rfl := Option.some.inj h
      rfl
  | andValue condition value =>
      obtain rfl := Option.some.inj h
      rfl
  | orValue condition value =>
      obtain rfl := Option.some.inj h
      rfl
  | bare connector condition =>
      obtain rfl := Option.some.inj h
      rfl
  | reset => simp [clause?] at h

theorem apply_of_not_matches {call : FilterCall} {clause : Clause}
    (h : call.clause? = some clause) (hmatch : ¬clause.Matches) (c : Content) :
    call.apply c = .error (.markerMismatch clause.condition
      (Clause.expectedMarkers clause.value) (Condition.markers clause.condition).length) := by
  rw [apply_of_clause? h, Clause.make_of_not_matches hmatch]
  rfl

theorem apply_of_matches {call : FilterCall} {clause : Clause} (h : call.clause? = some clause)
    (hmatch : clause.Matches) (c : Content) :
    call.apply c =
      if clause.connector = .none ∧ c.filter.clauses ≠ [] then
        .error (.filterAlreadyOpen clause.condition)
      else
        .ok (c.push clause) := by
  rw [apply_of_clause? h, Clause.make_of_matches hmatch]
  by_cases hconn : clause.connector = .none
  · by_cases hempty : c.filter.clauses = []
    · simp [bind, Except.bind, hconn, hempty, Content.openWith, Filter.openWith, Filter.isEmpty,
        Content.push, pure, Except.pure]
    · simp [bind, Except.bind, hconn, hempty, Content.openWith, Filter.openWith, Filter.isEmpty]
  · simp [bind, Except.bind, hconn]

/-- An accepted call empties the filter or puts a clause, which matches, behind those held. -/
theorem cases_of_apply {call : FilterCall} {c c' : Content} (h : call.apply c = .ok c') :
    c' = c.resetFilter ∨ ∃ clause, clause.Matches ∧
      (clause.connector = .none → c.filter.clauses = []) ∧ c' = c.push clause := by
  cases hclause : call.clause? with
  | none =>
      cases call with
      | reset => exact Or.inl (Except.ok.inj h).symm
      | _ => simp [clause?] at hclause
  | some clause =>
      by_cases hmatch : clause.Matches
      · rw [apply_of_matches hclause hmatch] at h
        split at h
        · simp at h
        · rename_i hopen
          have hempty : clause.connector = .none → c.filter.clauses = [] := by
            intro hconn
            by_contra hheld
            exact hopen ⟨hconn, hheld⟩
          exact Or.inr ⟨clause, hmatch, hempty, (Except.ok.inj h).symm⟩
      · rw [apply_of_not_matches hclause hmatch] at h
        simp at h

theorem adds {call : FilterCall} {clause : Clause} (h : call.clause? = some clause) (c : Content) :
    c.filter.Adds clause ((call.apply c).map Content.filter) := by
  -- The markers are checked before the clauses that are held.
  by_cases hmatch : clause.Matches
  · have happly := apply_of_matches h hmatch c
    by_cases hopen : clause.connector = .none ∧ c.filter.clauses ≠ []
    · rw [if_pos hopen] at happly
      simp only [happly, Except.map]
      exact ⟨by simp [hmatch], by simp [hmatch, hopen], by simp [hopen]⟩
    · have hempty : clause.connector = .none → c.filter.clauses = [] := by
        intro hconn
        by_contra hheld
        exact hopen ⟨hconn, hheld⟩
      rw [if_neg hopen] at happly
      simp only [happly, Except.map]
      refine ⟨by simp [hmatch], by simpa [hmatch] using hempty, ?_⟩
      exact ⟨fun _ => ⟨hmatch, hempty⟩, fun _ => rfl⟩
  · simp only [apply_of_not_matches h hmatch, Except.map]
    exact ⟨by simp [hmatch], by simp [hmatch], by simp [hmatch]⟩

end FilterCall

/-! ## Ranges -/

namespace Call

theorem rangeClause_of_literals {left right : Value} {low high : String} (key : String)
    (hleft : left.literal = .ok low) (hright : right.literal = .ok high) :
    rangeClause key left right =
      .ok ⟨.none, key ++ " BETWEEN " ++ low ++ " AND " ++ high, none⟩ := by
  have hformat : Formatter.between.format [left, right] =
      .ok (some ("BETWEEN " ++ low ++ " AND " ++ high)) := by
    simp only [Formatter.format, Formatter.formatSome, hleft, hright]
    rfl
  have htext : key ++ " " ++ ("BETWEEN " ++ low ++ " AND " ++ high) =
      key ++ " BETWEEN " ++ low ++ " AND " ++ high := by
    have hword : " " ++ "BETWEEN " = " BETWEEN " := by decide
    simp only [String.append_assoc, ← hword]
  rw [rangeClause, hformat, ← htext]
  rfl

theorem rangeClause_of_holdsPair {left right : Value} (key : String)
    (h : left.HoldsPair ∨ right.HoldsPair) :
    rangeClause key left right = .error (.valueType whereToken .pairLiteral) := by
  have hformat : Formatter.between.format [left, right] = .error .pairLiteral := by
    -- The left bound is tried first; when it has a literal, the right one must be at fault.
    cases hleft : left.literal with
    | error e =>
        have he := (Value.literal_eq_error_iff.1 hleft).1
        simp [Formatter.format, Formatter.formatSome, hleft, he, bind, Except.bind]
    | ok low =>
        have hright : right.literal = .error .pairLiteral :=
          Value.literal_eq_error_iff.2
            ⟨rfl, h.resolve_left (Value.not_holdsPair_of_literal hleft)⟩
        simp [Formatter.format, Formatter.formatSome, hleft, hright, bind, Except.bind]
  rw [rangeClause, hformat]
  rfl

theorem exists_literals_of_not_holdsPair {left right : Value}
    (h : ¬(left.HoldsPair ∨ right.HoldsPair)) :
    ∃ low high, left.literal = .ok low ∧ right.literal = .ok high := by
  cases hleft : left.literal with
  | error e => exact absurd (Or.inl (Value.literal_eq_error_iff.1 hleft).2) h
  | ok low =>
      cases hright : right.literal with
      | error e => exact absurd (Or.inr (Value.literal_eq_error_iff.1 hright).2) h
      | ok high => exact ⟨low, high, rfl, rfl⟩

theorem ranges (c : Content) (key : String) (left right : Value) :
    Filter.Ranges key left right
      (((Call.between key left right).apply c).map Content.filter) := by
  by_cases h : left.HoldsPair ∨ right.HoldsPair
  · simp only [apply, rangeClause_of_holdsPair key h, Except.map, bind, Except.bind]
    exact ⟨by simp [h], by simp, by simp⟩
  · rcases exists_literals_of_not_holdsPair h with ⟨low, high, hleft, hright⟩
    simp only [apply, rangeClause_of_literals key hleft hright, Except.map, bind, Except.bind,
      pure, Except.pure]
    refine ⟨by simp [h], by simp, fun f hf => ?_⟩
    obtain rfl := Except.ok.inj hf
    exact ⟨low, high, hleft, hright, rfl⟩

theorem answers {k : Kind} (s : Statement k) (c : Call k) :
    c.Answers s.content.filter ((s.call c).map fun s' => s'.content.filter) := by
  have hmap : (s.call c).map (fun s' => s'.content.filter) =
      (c.apply s.content).map Content.filter := by
    rw [Statement.call]
    cases c.apply s.content <;> rfl
  rw [hmap]
  cases c with
  | fill f => rfl
  | between key left right => exact ranges s.content key left right
  | filter hk call =>
      cases hclause : call.clause? with
      | some clause =>
          simp only [Answers, hclause]
          exact FilterCall.adds hclause s.content
      | none =>
          simp only [Answers, hclause]
          cases call with
          | reset => rfl
          | _ => simp [FilterCall.clause?] at hclause

end Call

/-! ## Moves -/

namespace Filter

/-- How an accepted call on a statement of kind `k` moves its filter. -/
inductive Step (k : Kind) : Filter → Filter → Prop
  | keep (f : Filter) : Step k f f
  | opens {f : Filter} {clause : Clause} :
      f.clauses = [] → clause.Matches → Step k f (f.push clause)
  | continues {f : Filter} {clause : Clause} :
      clause.connector ≠ .none → clause.Matches → Step k f (f.push clause)
  | reset (f : Filter) : Step k f .empty
  | range (f : Filter) (condition : String) :
      k = .select → Step k f ⟨[⟨.none, condition, none⟩]⟩

theorem step_of_apply {k : Kind} {c : Call k} {content content' : Content}
    (h : c.apply content = .ok content') : Step k content.filter content'.filter := by
  cases c with
  | fill f =>
      obtain rfl := Except.ok.inj h
      exact .keep content.filter
  | between key left right =>
      have hranges := Call.ranges content key left right
      rw [h] at hranges
      rcases hranges.replaced content'.filter rfl with ⟨low, high, _, _, hclauses⟩
      have hfilter : content'.filter = ⟨_⟩ := congrArg Filter.mk hclauses
      rw [hfilter]
      exact .range content.filter _ rfl
  | filter hk call =>
      rcases FilterCall.cases_of_apply h with rfl | ⟨clause, hmatch, hempty, rfl⟩
      · exact .reset content.filter
      · by_cases hconn : clause.connector = .none
        · exact .opens (hempty hconn) hmatch
        · exact .continues hconn hmatch

/-! ## Connectors -/

/-- Every clause after the first has a connector. -/
def Connected (f : Filter) : Prop :=
  ∀ clause ∈ f.clauses.tail, clause.connector = .and ∨ clause.connector = .or

theorem connector_ne_none {connector : Connector} (h : connector ≠ .none) :
    connector = .and ∨ connector = .or := by
  cases connector with
  | none => exact absurd rfl h
  | and => exact Or.inl rfl
  | or => exact Or.inr rfl

theorem Step.connected {k : Kind} {f g : Filter} (h : Step k f g) (hf : f.Connected) :
    g.Connected := by
  cases h with
  | keep => exact hf
  | reset => simp [Connected, Filter.empty]
  | range => simp [Connected]
  | opens hempty _ => simp [Connected, Filter.push, hempty]
  | @continues clause hconn _ =>
      intro other hmem
      -- The new clause is the last: it has a connector, and the others are those of `f`.
      cases hclauses : f.clauses with
      | nil => simp [Filter.push, hclauses] at hmem
      | cons first others =>
          have hsplit : other ∈ others ∨ other = clause := by
            simpa [Filter.push, hclauses] using hmem
          rcases hsplit with hother | rfl
          · exact hf other (by simpa [hclauses] using hother)
          · exact connector_ne_none hconn

end Filter

theorem Opening.connected {k : Kind} (o : Opening k) : o.content.filter.Connected := by
  intro clause hmem
  rw [Opening.clauses_content] at hmem
  cases o with
  | indexRemove name key link =>
      cases key <;> cases link <;> simp_all [Opening.clauses, Opening.entryClauses]
  | _ => simp [Opening.clauses] at hmem

/-! ## Text -/

namespace Filter

/-- The text of a clause behind its connector. -/
def WrittenBehind (f : Formatter) (clause : Clause) (text : String) : Prop :=
  ∃ resolved, clause.resolve f = .ok resolved ∧
    (clause.connector = .and ∧ text = " AND " ++ resolved ∨
      clause.connector = .or ∧ text = " OR " ++ resolved)

/-- `WHERE`, the first clause, and every later clause behind `AND` or `OR`. -/
def Written (f : Formatter) (filter : Filter) (text : String) : Prop :=
  ∃ first others opening texts, filter.clauses = first :: others ∧
    first.resolve f = .ok opening ∧ List.Forall₂ (WrittenBehind f) others texts ∧
    text = "WHERE " ++ opening ++ String.join texts

theorem writtenBehind_of_following {f : Formatter} {clause : Clause} {text : String}
    (hconn : clause.connector = .and ∨ clause.connector = .or)
    (h : clause.following f = .ok text) : WrittenBehind f clause text := by
  rw [Clause.following_eq_map, Result.map_eq_ok_iff] at h
  rcases h with ⟨resolved, hresolved, rfl⟩
  refine ⟨resolved, hresolved, ?_⟩
  rcases hconn with hand | hor
  · exact Or.inl ⟨hand, by simp [hand, Connector.lead]⟩
  · exact Or.inr ⟨hor, by simp [hor, Connector.lead]⟩

theorem Connected.written {filter : Filter} {f : Formatter} {answer : Option String}
    (h : filter.Connected) (hheld : filter.clauses ≠ []) (hrender : filter.render f = .ok answer) :
    ∃ text, answer = some text ∧ Written f filter text := by
  rcases List.exists_cons_of_ne_nil hheld with ⟨first, others, hclauses⟩
  simp only [render, hclauses] at hrender
  rcases Result.bind_eq_ok_iff.1 hrender with ⟨opening, hopening, hrest⟩
  rcases Result.bind_eq_ok_iff.1 hrest with ⟨texts, htexts, hanswer⟩
  -- The invariant is used here: no clause behind the first is written without its word.
  have hwritten : List.Forall₂ (WrittenBehind f) others texts := by
    have hconn : ∀ clause ∈ others, clause.connector = .and ∨ clause.connector = .or := by
      simpa [Connected, hclauses] using h
    have hboth := (List.forall₂_and_left others texts).2 ⟨hconn, Result.mapM_eq_ok_iff.1 htexts⟩
    exact hboth.imp fun clause text hclause =>
      writtenBehind_of_following hclause.1 hclause.2
  exact ⟨_, (Except.ok.inj hanswer).symm, first, others, opening, texts, hclauses, hopening,
    hwritten, rfl⟩

end Filter

/-! ## Reachable statements -/

namespace Statement

variable {k : Kind}

theorem connected_run (o : Opening k) (calls : List (Call k)) :
    ((start o).run calls).content.filter.Connected := by
  refine inv_run (P := fun content => content.filter.Connected) o.connected ?_ calls
  intro c content content' hcontent hstep
  exact (Filter.step_of_apply hstep).connected hcontent

/-- After any opening and any calls, each call answers as its clause and the clauses held demand,
every clause but the first has a connector, and the text of the filter puts it in front. -/
theorem filter_run (o : Opening k) (calls : List (Call k)) :
    let s := (start o).run calls
    (∀ c : Call k, c.Answers s.content.filter ((s.call c).map fun s' => s'.content.filter)) ∧
      s.content.filter.Connected ∧
      ∀ (f : Formatter) (answer : Option String), s.content.filter.clauses ≠ [] →
        s.content.filter.render f = .ok answer →
          ∃ text, answer = some text ∧ s.content.filter.Written f text := by
  intro s
  refine ⟨fun c => Call.answers s c, connected_run o calls, ?_⟩
  intro f answer hheld hrender
  exact (connected_run o calls).written hheld hrender

/-- The third call is refused, since there is a clause already. -/
def whereOrWhere : List (Call .delete) :=
  [.filter rfl (.whereValue "a = ?" (.bool true)), .filter rfl (.orValue "b = ?" .null),
    .filter rfl (.bare .none "c")]

theorem filter_run_whereOrWhere :
    let s := (start (.delete "C")).run whereOrWhere
    s.content.filter.render .regular = .ok (some "WHERE a = true OR b = NULL") ∧
      s.content.filter.Written .regular "WHERE a = true OR b = NULL" := by
  intro s
  have hheld : s.content.filter.clauses ≠ [] := by
    have hlength : s.content.filter.clauses.length = 2 := by decide +kernel
    exact List.ne_nil_of_length_pos (by omega)
  have hrender : s.content.filter.render .regular = .ok (some "WHERE a = true OR b = NULL") := by
    decide +kernel
  rcases (filter_run (.delete "C") whereOrWhere).2.2 .regular _ hheld hrender with
    ⟨text, htext, hwritten⟩
  rw [← Option.some.inj htext] at hwritten
  exact ⟨hrender, hwritten⟩

end Statement
end GraphSql
