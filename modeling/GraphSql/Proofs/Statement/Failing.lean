import GraphSql.Proofs.Filter.Splicing
import GraphSql.Proofs.Formatter.Refusal
import GraphSql.Proofs.Statement.Rendering
import GraphSql.Proofs.Statement.Writing

/-!
# Failing — the statements that have no text

Most calls fix the kind of the value they write, and then its formatter has a text for it.  Any
value may be given to the filter, to be inserted, to be assigned to a field, or as the key of an
index entry, and these are the values over which a statement fails:

* `Role`, `Statement.Holds` — what a value is given for, and the values that a statement holds;
* `Kind.Refuses` — those among them that the kind of the statement cannot write;
* `Write.Fits`, `Opening.fits`, `Fill.fits` — what any other write brings can be written;
* `written_run`, `pairs_run` — so can what any other token holds after any calls;
* `raw_fails_iff` — a statement fails exactly when it holds a refused value, and says where.
-/

namespace GraphSql

/-! ## Filters -/

theorem Clause.exists_resolve_error_iff {clause : Clause} {f : Formatter}
    (hf : f.writesAll = true) :
    (∃ e, clause.resolve f = .error e) ↔ ∃ v, clause.value = some v ∧ f.Refuses v := by
  rcases clause with ⟨connector, condition, value⟩
  cases value with
  | none => simp [resolve]
  | some v => simp [resolve_some, Result.map_eq_error_iff, Formatter.exists_format_error_iff hf]

theorem Filter.exists_render_error_iff {filter : Filter} {f : Formatter}
    (hf : f.writesAll = true) :
    (∃ e, filter.render f = .error e) ↔
      ∃ clause ∈ filter.clauses, ∃ v, clause.value = some v ∧ f.Refuses v := by
  simp only [render_error_iff_mapM, Result.exists_mapM_error_iff,
    Clause.exists_resolve_error_iff hf]

/-! ## Values of any kind -/

/-- What a value of any kind is given for. -/
inductive Role
  | filter
  | insertion
  | assignment
  | key
  deriving DecidableEq, Repr

/-- The token under which the value is written. -/
def Role.token : Role → String
  | .filter => whereToken
  | .insertion => "Values"
  | .assignment => "Updates"
  | .key => "Key"

/-- The value is held by the statement in this role. -/
def Statement.Holds {k : Kind} (s : Statement k) : Role → Value → Prop
  | .filter, v => ∃ clause ∈ s.content.filter.clauses, clause.value = some v
  | .insertion, v => v ∈ s.content.tokens.values "Values"
  | .assignment, v => ∃ field, .pair field v ∈ s.content.tokens.values "Updates"
  | .key, v => v ∈ s.content.tokens.values "Key"

namespace Kind

variable {k : Kind} {v : Value}

/-- The kind cannot write the value in this role.  A literal must not hold a field pair, and what is
written as it stands must not be a list either. -/
def Refuses (k : Kind) : Role → Value → Prop
  | .filter, v =>
      k.isFilterable = true ∧ k ≠ .indexRemove ∧ v.Compound ∨ k = .indexRemove ∧ v.HoldsPair
  | .insertion, v => k = .insert ∧ v.HoldsPair
  | .assignment, v => k = .update ∧ v.HoldsPair
  | .key, v => k = .indexPut ∧ v.Compound

theorem Refuses.compound {role : Role} (h : k.Refuses role v) : v.Compound := by
  cases role with
  | filter =>
      rcases h with ⟨_, _, hcompound⟩ | ⟨_, hpair⟩
      · exact hcompound
      · exact hpair.compound
  | insertion => exact h.2.compound
  | assignment => exact h.2.compound
  | key => exact h.2

/-- The role of the values that are given to the statement besides those of its filter. -/
def role? : Kind → Option Role
  | .insert => some .insertion
  | .update => some .assignment
  | .indexPut => some .key
  | _ => none

/-! ## Formatters -/

/-- Every token has a formatter, if only the fallback. -/
def formatter (k : Kind) (token : String) : Formatter :=
  (k.bindings.resolve token).getD .regular

theorem fallback_withAll (b : Bindings) (more : List (String × Formatter)) :
    (b.withAll more).fallback = b.fallback := by
  induction more generalizing b with
  | nil => rfl
  | cons entry more ih => exact ih (b.bind entry.1 entry.2)

theorem fallback_eq (k : Kind) : k.bindings.fallback = some .regular :=
  fallback_withAll .base k.ownBindings

theorem resolve_eq (k : Kind) (token : String) :
    k.bindings.resolve token = some (k.formatter token) := by
  rw [formatter, Bindings.resolve, k.fallback_eq]
  cases k.bindings.bound.lookup token <;> rfl

theorem formatter_where (k : Kind) :
    k.formatter whereToken = if k = .indexRemove then .quoted else .regular := by
  cases k with
  | truncate scope => cases scope <;> decide +kernel
  | _ => decide +kernel

theorem writesAll_formatter_where (k : Kind) : (k.formatter whereToken).writesAll = true := by
  rw [formatter_where]
  split <;> rfl

theorem where_mem_placeholders_iff (k : Kind) :
    whereToken ∈ (Template.compile k.schema).placeholders ↔ k.isFilterable = true := by
  cases k with
  | truncate scope => cases scope <;> decide +kernel
  | _ => decide +kernel

/-- Bounds are counted where the filter is turned into a range, not where it is written. -/
theorem formatter_ne_between (k : Kind) (token : String) : k.formatter token ≠ .between := by
  have hbound : ∀ entry ∈ k.bindings.bound, entry.2 ≠ .between := by
    cases k with
    | truncate scope => cases scope <;> decide
    | _ => decide
  intro hbetween
  rw [formatter, Bindings.resolve, k.fallback_eq] at hbetween
  cases hlookup : k.bindings.bound.lookup token with
  | none => simp [hlookup] at hbetween
  | some f =>
      rcases List.lookup_eq_some_iff.1 hlookup with ⟨front, back, hsplit, _⟩
      have hmem : (token, f) ∈ k.bindings.bound := by simp [hsplit]
      refine hbound _ hmem ?_
      simpa [hlookup] using hbetween

theorem refuses_filter_iff (hk : k.isFilterable = true) :
    k.Refuses .filter v ↔ (k.formatter whereToken).Refuses v := by
  rw [formatter_where, Refuses]
  by_cases hindex : k = .indexRemove
  · simp [hindex, Formatter.refuses_quoted_iff]
  · simp [hindex, hk, Formatter.refuses_verbatim_iff (f := .regular) rfl]

end Kind

/-! ## Writes of calls that fix the kind of their values -/

/-- The formatter of the token has a text for each value, unless the token takes any value. -/
def Write.Fits (k : Kind) (w : Write) : Prop :=
  k.role?.map Role.token = some w.token ∨
    ∀ v ∈ w.values, ∃ text, (k.formatter w.token).item v = .ok text

namespace Write

variable {k : Kind} {token : String}

theorem fits_one {value : Value} (mode : WriteMode)
    (h : ∃ text, (k.formatter token).item value = .ok text) :
    Write.Fits k ⟨token, [value], mode⟩ := by
  refine Or.inr ?_
  intro v hv
  rw [List.mem_singleton.1 hv]
  exact h

theorem fits_ofStrings (h : (k.formatter token).isVerbatim = true) (texts : List String)
    (mode : WriteMode) : Write.Fits k ⟨token, Value.ofStrings texts, mode⟩ := by
  refine Or.inr ?_
  intro v hv
  rcases List.mem_map.1 hv with ⟨text, _, rfl⟩
  cases hitem : (k.formatter token).item (.string text) with
  | ok text => exact ⟨text, rfl⟩
  | error e =>
      have hcompound := (Formatter.refuses_verbatim_iff h).1 ⟨e, hitem⟩
      simp [Value.Compound, Value.shape] at hcompound

end Write

theorem Opening.fits {k : Kind} (o : Opening k) : ∀ w ∈ o.writes, w.Fits k := by
  cases o with
  | select projections =>
      exact List.forall_mem_singleton.2 (Write.fits_ofStrings (by decide) projections .overwrite)
  | indexPut name key link =>
      refine List.forall_mem_cons.2 ⟨Write.fits_one _ ⟨_, rfl⟩, ?_⟩
      -- The key is the one value of any kind that an opening writes to a token.
      refine List.forall_mem_cons.2 ⟨Or.inl rfl, ?_⟩
      exact List.forall_mem_singleton.2 (Write.fits_one _ ⟨_, rfl⟩)
  | _ =>
      repeat refine List.forall_mem_cons.2 ⟨Write.fits_one _ ⟨_, rfl⟩, ?_⟩
      exact List.forall_mem_nil _

theorem Fill.fits {k : Kind} (f : Fill k) : f.write.Fits k := by
  cases f with
  | select items mode => exact Write.fits_ofStrings (by decide) items mode
  | target items mode => exact Write.fits_ofStrings (by decide) items mode
  | fields items mode => exact Write.fits_ofStrings (by decide) items mode
  | inClasses items mode => exact Write.fits_ofStrings (by decide) items mode
  | insertValues values mode => exact Or.inl rfl
  | set field value => exact Or.inl rfl
  | setAll pairs mode => exact Or.inl rfl
  | _ => exact Write.fits_one _ ⟨_, rfl⟩

/-! ## Reachable statements -/

namespace Statement

variable {k : Kind}

/-- A token that does not take any value holds what its formatter has a text for. -/
theorem written_run (o : Opening k) (calls : List (Call k)) {token : String}
    (htoken : k.role?.map Role.token ≠ some token) :
    ∀ v ∈ ((start o).run calls).content.tokens.values token, ¬(k.formatter token).Refuses v := by
  have hwrite : ∀ w : Write, w.Fits k → w.token = token →
      ∀ v ∈ w.values, ¬(k.formatter token).Refuses v := by
    rintro w hfits rfl v hv ⟨e, hrefused⟩
    rcases hfits with hany | hwritten
    · exact htoken hany
    · rcases hwritten v hv with ⟨text, htext⟩
      simp [htext] at hrefused
  exact forall_values_run (fun w hw => hwrite w (o.fits w hw))
    (fun f => hwrite f.write f.fits) calls

/-- What an `UPDATE` assigns is assigned to a field. -/
theorem pairs_run (o : Opening .update) (calls : List (Call .update)) :
    ∀ v ∈ ((start o).run calls).content.tokens.values "Updates",
      ∃ field value, v = .pair field value := by
  refine forall_values_run ?_ ?_ calls
  · intro w hw hname
    cases o with
    | update className =>
        rw [List.mem_singleton.1 hw] at hname
        simp [Write.one] at hname
  · intro f _ v hv
    cases f with
    | set field value => exact ⟨field, value, List.mem_singleton.1 hv⟩
    | setAll pairs mode =>
        rcases List.mem_map.1 hv with ⟨pair, _, rfl⟩
        exact ⟨pair.1, pair.2, rfl⟩

/-- A look-up that fails does so over a value that is held for its token and refused. -/
theorem exists_refused_of_lookup (o : Opening k) (calls : List (Call k)) {token : String}
    {e : QueryError} (hmem : token ∈ (Template.compile k.schema).placeholders)
    (h : ((start o).run calls).content.lookup k.bindings token = .error e) :
    ∃ role v cause, ((start o).run calls).Holds role v ∧ k.Refuses role v ∧
      e = .valueType role.token cause := by
  by_cases hwhere : token = whereToken
  · subst hwhere
    have hk := (Kind.where_mem_placeholders_iff k).1 hmem
    rw [Content.lookup_where (k.resolve_eq whereToken), Result.mapError_eq_error_iff] at h
    rcases h with ⟨cause, hrender, rfl⟩
    rcases (Filter.exists_render_error_iff k.writesAll_formatter_where).1 ⟨cause, hrender⟩ with
      ⟨clause, hclause, v, hv, hrefused⟩
    exact ⟨.filter, v, cause, ⟨clause, hclause, hv⟩, (Kind.refuses_filter_iff hk).2 hrefused, rfl⟩
  · rw [Content.lookup_token (k.resolve_eq token) hwhere, Result.mapError_eq_error_iff] at h
    rcases h with ⟨cause, hformat, rfl⟩
    rcases Formatter.exists_refused_of_format (k.formatter_ne_between token) hformat with
      ⟨v, hv, hrefused⟩
    -- Only the one token that takes any value can hold a value that its formatter refuses.
    have htoken : k.role?.map Role.token = some token := by
      by_contra hother
      exact written_run o calls hother v hv hrefused
    cases k with
    | insert =>
        obtain rfl := Option.some.inj htoken
        exact ⟨.insertion, v, cause, hv, ⟨rfl, Formatter.refuses_quoted_iff.1 hrefused⟩, rfl⟩
    | update =>
        obtain rfl := Option.some.inj htoken
        rcases pairs_run o calls v hv with ⟨field, value, rfl⟩
        have hpair := Formatter.refuses_updates_pair_iff.1 hrefused
        exact ⟨.assignment, value, cause, ⟨field, hv⟩, ⟨rfl, hpair⟩, rfl⟩
    | indexPut =>
        obtain rfl := Option.some.inj htoken
        have hcompound := (Formatter.refuses_verbatim_iff (f := .doubleQuoted) rfl).1 hrefused
        exact ⟨.key, v, cause, hv, ⟨rfl, hcompound⟩, rfl⟩
    | _ => simp [Kind.role?] at htoken

/-- A refused value makes the look-up of its token fail, and the schema asks for that token. -/
theorem exists_fault_of_refused {s : Statement k} {role : Role} {v : Value}
    (hholds : s.Holds role v) (hrefuses : k.Refuses role v) :
    role.token ∈ (Template.compile k.schema).placeholders ∧
      ∃ e, s.content.lookup k.bindings role.token = .error e := by
  -- A token of values fails as soon as its formatter, which writes all values, refuses one.
  have htoken : ∀ {token : String} {v : Value}, token ≠ whereToken →
      v ∈ s.content.tokens.values token → (k.formatter token).writesAll = true →
      (k.formatter token).Refuses v → ∃ e, s.content.lookup k.bindings token = .error e := by
    intro token v hwhere hv hall hrefused
    rcases (Formatter.exists_format_error_iff hall).2 ⟨v, hv, hrefused⟩ with ⟨cause, hformat⟩
    rw [Content.lookup_token (k.resolve_eq token) hwhere, hformat]
    exact ⟨.valueType token cause, rfl⟩
  cases role with
  | filter =>
      rcases hholds with ⟨clause, hclause, hv⟩
      have hk : k.isFilterable = true := by
        rcases hrefuses with ⟨hk, _⟩ | ⟨rfl, _⟩
        · exact hk
        · rfl
      rcases (Filter.exists_render_error_iff k.writesAll_formatter_where).2
        ⟨clause, hclause, v, hv, (Kind.refuses_filter_iff hk).1 hrefuses⟩ with ⟨cause, hrender⟩
      refine ⟨(Kind.where_mem_placeholders_iff k).2 hk, .valueType whereToken cause, ?_⟩
      rw [Role.token, Content.lookup_where (k.resolve_eq whereToken), hrender]
      rfl
  | insertion =>
      rcases hrefuses with ⟨rfl, hpair⟩
      exact ⟨by simp [Kind.placeholders_insert, Role.token],
        htoken (by decide) hholds rfl (Formatter.refuses_quoted_iff.2 hpair)⟩
  | assignment =>
      rcases hrefuses with ⟨rfl, hpair⟩
      rcases hholds with ⟨field, hv⟩
      exact ⟨by simp [Kind.placeholders_update, Role.token],
        htoken (by decide) hv rfl (Formatter.refuses_updates_pair_iff.2 hpair)⟩
  | key =>
      rcases hrefuses with ⟨rfl, hcompound⟩
      exact ⟨by decide +kernel, htoken (by decide) hholds rfl
        ((Formatter.refuses_verbatim_iff (f := .doubleQuoted) rfl).2 hcompound)⟩

/-- After any calls a statement fails exactly when it holds a value that its kind cannot write.  The
error is about such a value and names its token; with scalars alone there is a text. -/
theorem raw_fails_iff (o : Opening k) (calls : List (Call k)) :
    ((∃ e, ((start o).run calls).raw = .error e) ↔
      ∃ role v, ((start o).run calls).Holds role v ∧ k.Refuses role v) ∧
    (∀ e, ((start o).run calls).raw = .error e →
      ∃ role v cause, ((start o).run calls).Holds role v ∧ k.Refuses role v ∧
        e = .valueType role.token cause) ∧
    ((∀ role v, ((start o).run calls).Holds role v → ¬v.Compound) →
      ∃ text, ((start o).run calls).raw = .ok text) := by
  have hcause : ∀ e, ((start o).run calls).raw = .error e →
      ∃ role v cause, ((start o).run calls).Holds role v ∧ k.Refuses role v ∧
        e = .valueType role.token cause := by
    intro e h
    rcases exists_fault_of_raw h with ⟨token, hmem, hfault⟩
    exact exists_refused_of_lookup o calls hmem hfault
  refine ⟨⟨?_, ?_⟩, hcause, ?_⟩
  · rintro ⟨e, h⟩
    rcases hcause e h with ⟨role, v, _, hholds, hrefuses, _⟩
    exact ⟨role, v, hholds, hrefuses⟩
  · rintro ⟨role, v, hholds, hrefuses⟩
    rcases exists_fault_of_refused hholds hrefuses with ⟨hmem, e, hfault⟩
    cases h : ((start o).run calls).raw with
    | error e' => exact ⟨e', rfl⟩
    | ok text =>
        -- A text would need an answer for every placeholder.
        rcases exists_answer_of_raw h hmem with ⟨_, answer, _, hanswer, _⟩
        exact absurd (hfault.symm.trans hanswer) (by simp)
  · intro hscalar
    cases h : ((start o).run calls).raw with
    | ok text => exact ⟨text, rfl⟩
    | error e =>
        rcases hcause e h with ⟨role, v, _, hholds, hrefuses, _⟩
        exact absurd hrefuses.compound (hscalar role v hholds)

/-- A class gets a value assigned to one field. -/
def assignOne (v : Value) : List (Call .update) :=
  [.fill (.set "a" v)]

theorem holds_assignOne_iff {v w : Value} {role : Role} :
    ((start (.update "C")).run (assignOne v)).Holds role w ↔ role = .assignment ∧ w = v := by
  have hempty : ∀ name, Content.empty.tokens.values name = [] := fun _ => rfl
  cases role with
  | filter =>
      have hclauses :
          ((start (.update "C")).run (assignOne v)).content.filter.clauses = [] := rfl
      simp [Holds, hclauses]
  | _ =>
      simp [Holds, assignOne, run_nil, run_fill, values_fill, start, Opening.tokens_content,
        Opening.writes, Content.values_put, Write.one, Fill.write, WriteMode.combine, hempty]

theorem raw_fails_pairInList :
    (∃ e, ((start (.update "C")).run (assignOne (.list [.pair "b" .null]))).raw = .error e) ∧
      ∃ text, ((start (.update "C")).run (assignOne .null)).raw = .ok text := by
  rcases raw_fails_iff (.update "C") (assignOne (.list [.pair "b" .null])) with ⟨hfails, _, _⟩
  rcases raw_fails_iff (.update "C") (assignOne .null) with ⟨_, _, hscalar⟩
  constructor
  · have hpair : (Value.list [.pair "b" .null]).HoldsPair :=
      .item (List.mem_singleton.2 rfl) (.pair "b" .null)
    exact hfails.2 ⟨.assignment, _, holds_assignOne_iff.2 ⟨rfl, rfl⟩, ⟨rfl, hpair⟩⟩
  · refine hscalar ?_
    intro role v hholds
    rw [(holds_assignOne_iff.1 hholds).2]
    simp [Value.Compound, Value.shape]

end Statement
end GraphSql
