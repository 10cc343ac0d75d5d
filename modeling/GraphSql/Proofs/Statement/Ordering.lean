import GraphSql.Proofs.Formatter.Alignment
import GraphSql.Proofs.Formatter.Joining
import GraphSql.Proofs.Statement.Overwriting
import GraphSql.Proofs.Statement.Rendering

/-!
# Ordering — the orderings of a `SELECT`, in the order in which they are written

An ordering is put behind those that are there, or in front of them:

* `Call.orderFirst?`, `Call.orderLast?` — the ordering that a call brings;
* `orders` — the orderings of a list of calls, those put in front in reverse;
* `values_orderBy_attempt`, `values_orderBy_run` — what one call and any calls do to the token;
* `lookup_orderBy_run` — the text of the token;
* `appended_joined` — appended values are written as the join of the parts, and so are orderings.
-/

namespace GraphSql

/-! ## Orderings -/

namespace Call

def orderFirst? : Call .select → Option String
  | .fill (.orderByFirst order) => some order
  | _ => none

def orderLast? : Call .select → Option String
  | .fill (.orderBy order) => some order
  | _ => none

end Call

def orders (calls : List (Call .select)) : List String :=
  (calls.filterMap Call.orderFirst?).reverse ++ calls.filterMap Call.orderLast?

/-! ## The token -/

namespace Statement

theorem values_orderBy_attempt (s : Statement .select) (call : Call .select) :
    (s.attempt call).content.tokens.values "OrderBy" =
      Value.ofStrings call.orderFirst?.toList ++ (s.content.tokens.values "OrderBy" ++
        Value.ofStrings call.orderLast?.toList) := by
  cases call with
  | fill f =>
      have hfill : s.attempt (.fill f) = s.fill f := rfl
      rw [hfill, values_fill]
      cases f <;> simp [Fill.write, Write.one, WriteMode.combine, Call.orderFirst?,
        Call.orderLast?, Value.ofStrings]
  | filter hfilterable f =>
      rw [Tokens.values, tokens_attempt (by simp)]
      simp [Tokens.values, Call.orderFirst?, Call.orderLast?, Value.ofStrings]
  | between key left right =>
      rw [Tokens.values, tokens_attempt (by simp)]
      simp [Tokens.values, Call.orderFirst?, Call.orderLast?, Value.ofStrings]

theorem values_orderBy_run (s : Statement .select) (calls : List (Call .select)) :
    (s.run calls).content.tokens.values "OrderBy" =
      Value.ofStrings (calls.filterMap Call.orderFirst?).reverse ++
        (s.content.tokens.values "OrderBy" ++
          Value.ofStrings (calls.filterMap Call.orderLast?)) := by
  induction calls generalizing s with
  | nil => simp [run_nil, Value.ofStrings]
  | cons call calls ih =>
      have hrun : s.run (call :: calls) = (s.attempt call).run calls := rfl
      -- What this call puts in front stands behind what the later calls put in front.
      rw [hrun, ih, values_orderBy_attempt, List.filterMap_cons, List.filterMap_cons]
      cases call.orderFirst? <;> cases call.orderLast? <;> simp [Value.ofStrings]

theorem values_orderBy_start (o : Opening .select) :
    (start o).content.tokens.values "OrderBy" = [] := by
  cases o with
  | select projections => rfl

theorem resolve_orderBy : Kind.select.bindings.resolve "OrderBy" = some (.keyword "ORDER BY") := by
  decide +kernel

theorem format_keyword_ofStrings (word : String) {texts : List String} (hne : texts ≠ []) :
    (Formatter.keyword word).format (Value.ofStrings texts) =
      .ok (some (word ++ " " ++ ", ".intercalate texts)) := by
  rcases List.exists_cons_of_ne_nil hne with ⟨text, rest, rfl⟩
  rw [Value.ofStrings_cons, Formatter.format, Formatter.formatSome,
    Formatter.joinPlain_cons_ofStrings]
  rfl

theorem lookup_orderBy_run (o : Opening .select) {calls : List (Call .select)}
    (hne : orders calls ≠ []) :
    ((start o).run calls).content.lookup Kind.select.bindings "OrderBy" =
      .ok (some ("ORDER BY " ++ ", ".intercalate (orders calls))) := by
  have hvalues : ((start o).run calls).content.tokens.values "OrderBy" =
      Value.ofStrings (orders calls) := by
    rw [values_orderBy_run, values_orderBy_start, orders]
    simp [Value.ofStrings]
  rw [Content.lookup_token resolve_orderBy (by decide), hvalues, format_keyword_ofStrings _ hne]
  rfl

/-- Appended values have a text when both parts do, which is the texts of the parts with a comma
between them, and the error is that of the first part without a text.  So the orderings of a
`SELECT` stand with commas between them, those put in front before those put behind. -/
theorem appended_joined :
    (∀ (f : Formatter) (xs ys : List Value), f.joins = true → xs ≠ [] → ys ≠ [] →
      (∀ answer, f.format (xs ++ ys) = .ok answer ↔ ∃ a b, f.format xs = .ok (some a) ∧
        f.format ys = .ok (some b) ∧ answer = some (a ++ ", " ++ b)) ∧
      ∀ e, f.format (xs ++ ys) = .error e ↔ f.format xs = .error e ∨
        (∃ a, f.format xs = .ok (some a)) ∧ f.format ys = .error e) ∧
    ∀ (o : Opening .select) (calls : List (Call .select)), orders calls ≠ [] →
      ((start o).run calls).content.lookup Kind.select.bindings "OrderBy" =
        .ok (some ("ORDER BY " ++ ", ".intercalate (orders calls))) := by
  refine ⟨fun f xs ys hf hxs hys => ⟨fun answer => ?_, fun e => ?_⟩, fun o calls hcalls => ?_⟩
  · exact Formatter.format_append_ok_iff hf hxs hys
  · exact Formatter.format_append_error_iff hf hxs hys
  · exact lookup_orderBy_run o hcalls

/-- An ordering behind and one in front, with a limit between them. -/
def twoOrderings : List (Call .select) :=
  [.fill (.orderBy "b"), .fill (.limit 1), .fill (.orderByFirst "a")]

theorem appended_joined_twoOrderings :
    Formatter.updates.format ([.pair "a" .null] ++ [.pair "b" (.bool true)]) =
      .ok (some ("a = NULL" ++ ", " ++ "b = true")) ∧
    Formatter.updates.format ([.null] ++ [.pair "b" (.bool true)]) = .error (.wantsPair .null) ∧
    ((start (.select [])).run twoOrderings).content.lookup Kind.select.bindings "OrderBy" =
      .ok (some ("ORDER BY " ++ ", ".intercalate ["a", "b"])) := by
  have horders : orders twoOrderings ≠ [] := List.cons_ne_nil "a" ["b"]
  have hpairs : [Value.pair "a" .null] ≠ [] := List.cons_ne_nil _ _
  have hnull : [Value.null] ≠ [] := List.cons_ne_nil _ _
  have hmore : [Value.pair "b" (.bool true)] ≠ [] := List.cons_ne_nil _ _
  rcases appended_joined with ⟨hjoined, horderBy⟩
  have htext := (hjoined .updates _ _ rfl hpairs hmore).1
  have herror := (hjoined .updates _ _ rfl hnull hmore).2
  exact ⟨(htext _).2 ⟨_, _, rfl, rfl, rfl⟩, (herror _).2 (Or.inl rfl),
    horderBy (.select []) twoOrderings horders⟩

end Statement
end GraphSql
