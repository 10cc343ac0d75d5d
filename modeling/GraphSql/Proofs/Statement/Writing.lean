import GraphSql.Proofs.Statement.Reachable

/-!
# Writing — what the tokens of a statement hold after any calls

Only calls that fill a token write one, so what holds of all values that the opening and the calls
write to a token holds of its values in every reachable statement:

* `values_put`, `values_fill` — one write;
* `Call.tokens_of_apply` — a call fills a token or leaves all tokens alone;
* `Statement.forall_values_run` — a property of the written values is one of the values held.
-/

namespace GraphSql

theorem WriteMode.mem_combine {mode : WriteMode} {old new : List Value} {v : Value} :
    v ∈ mode.combine old new → v ∈ old ∨ v ∈ new := by
  intro h
  cases mode with
  | overwrite => exact Or.inr h
  | append => exact List.mem_append.1 h
  | prepend => exact (List.mem_append.1 h).symm

/-! ## One write -/

namespace Content

theorem values_put (c : Content) (w : Write) (name : String) :
    (c.put w).tokens.values name =
      if name = w.token then w.mode.combine (c.tokens.values w.token) w.values
      else c.tokens.values name := by
  rw [put, write, Tokens.values, Tokens.slot_write]
  split
  · exact Slot.values_write _ _ _
  · rfl

theorem mem_values_put {c : Content} {w : Write} {name : String} {v : Value} :
    v ∈ (c.put w).tokens.values name →
      v ∈ c.tokens.values name ∨ w.token = name ∧ v ∈ w.values := by
  intro h
  rw [values_put] at h
  by_cases hname : name = w.token
  · rw [if_pos hname, ← hname] at h
    rcases WriteMode.mem_combine h with hold | hnew
    · exact Or.inl hold
    · exact Or.inr ⟨hname.symm, hnew⟩
  · rw [if_neg hname] at h
    exact Or.inl h

theorem tokens_of_openWith {c c' : Content} {clause : Clause} :
    c.openWith clause = .ok c' → c'.tokens = c.tokens := by
  intro h
  rcases Result.bind_eq_ok_iff.1 h with ⟨filter, _, hc'⟩
  rw [← Except.ok.inj hc']

end Content

/-! ## One call -/

theorem FilterCall.tokens_of_apply {call : FilterCall} {c c' : Content} :
    call.apply c = .ok c' → c'.tokens = c.tokens := by
  intro h
  cases call with
  | whereValue condition value =>
      rcases Result.bind_eq_ok_iff.1 h with ⟨clause, _, hopen⟩
      exact Content.tokens_of_openWith hopen
  | andValue condition value =>
      rcases Result.bind_eq_ok_iff.1 h with ⟨clause, _, hc'⟩
      rw [← Except.ok.inj hc', Content.push]
  | orValue condition value =>
      rcases Result.bind_eq_ok_iff.1 h with ⟨clause, _, hc'⟩
      rw [← Except.ok.inj hc', Content.push]
  | bare connector condition =>
      rcases Result.bind_eq_ok_iff.1 h with ⟨clause, _, hrest⟩
      split at hrest
      · exact Content.tokens_of_openWith hrest
      · rw [← Except.ok.inj hrest, Content.push]
  | reset => rw [← Except.ok.inj h, Content.resetFilter]

theorem Call.tokens_of_apply {k : Kind} {c : Call k} {content content' : Content} :
    c.apply content = .ok content' →
      content'.tokens = content.tokens ∨ ∃ f : Fill k, content' = content.put f.write := by
  intro h
  cases c with
  | fill f => exact Or.inr ⟨f, (Except.ok.inj h).symm⟩
  | filter _ call => exact Or.inl (FilterCall.tokens_of_apply h)
  | between key left right =>
      rcases Result.bind_eq_ok_iff.1 h with ⟨clause, _, hcontent'⟩
      rw [← Except.ok.inj hcontent']
      exact Or.inl rfl

/-! ## Runs -/

theorem Opening.mem_values_foldl_put {name : String} {v : Value} (ws : List Write) (c : Content) :
    v ∈ (ws.foldl Content.put c).tokens.values name →
      v ∈ c.tokens.values name ∨ ∃ w ∈ ws, w.token = name ∧ v ∈ w.values := by
  induction ws generalizing c with
  | nil =>
      intro h
      exact Or.inl h
  | cons w ws ih =>
      intro h
      rcases ih (c.put w) h with hput | ⟨other, hmem, hother⟩
      · rcases Content.mem_values_put hput with hold | hnew
        · exact Or.inl hold
        · exact Or.inr ⟨w, List.mem_cons_self, hnew⟩
      · exact Or.inr ⟨other, List.mem_cons_of_mem w hmem, hother⟩

namespace Statement

variable {k : Kind}

theorem run_nil (s : Statement k) : s.run [] = s :=
  rfl

theorem run_fill (s : Statement k) (f : Fill k) (calls : List (Call k)) :
    s.run (.fill f :: calls) = (s.fill f).run calls :=
  rfl

theorem values_fill (s : Statement k) (f : Fill k) (name : String) :
    (s.fill f).content.tokens.values name =
      if name = f.write.token then
        f.write.mode.combine (s.content.tokens.values f.write.token) f.write.values
      else s.content.tokens.values name :=
  Content.values_put s.content f.write name

theorem forall_values_run {P : Value → Prop} {o : Opening k} {name : String}
    (hstart : ∀ w ∈ o.writes, w.token = name → ∀ v ∈ w.values, P v)
    (hfill : ∀ f : Fill k, f.write.token = name → ∀ v ∈ f.write.values, P v)
    (calls : List (Call k)) :
    ∀ v ∈ ((start o).run calls).content.tokens.values name, P v := by
  refine inv_run (P := fun content => ∀ v ∈ content.tokens.values name, P v) ?_ ?_ calls
  · intro v hv
    rw [Opening.tokens_content] at hv
    rcases Opening.mem_values_foldl_put _ _ hv with hempty | ⟨w, hw, hname, hvalue⟩
    · exact absurd hempty List.not_mem_nil
    · exact hstart w hw hname v hvalue
  -- A fill brings values of its own; every other call leaves the tokens alone.
  · intro c content content' hcontent hstep v hv
    rcases Call.tokens_of_apply hstep with hsame | ⟨f, rfl⟩
    · rw [hsame] at hv
      exact hcontent v hv
    · rcases Content.mem_values_put hv with hold | ⟨hname, hnew⟩
      · exact hcontent v hold
      · exact hfill f hname v hnew

end Statement
end GraphSql
