import GraphSql.Command
import GraphSql.Proofs.Template.Filling
import GraphSql.Proofs.Tokens.History

/-!
# Independence — the operations that the text of a command depends on

The text asks for the slots of the placeholders and, where the schema has the placeholder `Where`,
for the filter.  Tokens and filter never meet on the way there:

* `Op.tokenOp?` — an operation is on one token or on the filter;
* `tokens_run`, `filter_run_eq` — a run on a content is one run on its tokens and one on its filter;
* `Agree`, `Agree.render_eq` — contents that agree on what the schema mentions have the same text;
* `rawAfter_eq` — so have runs with the same operations on each of these tokens and the same filter;
* `rawAfter_deleted_swapped` — operations that may be deleted, and neighbours that may be swapped.
-/

namespace GraphSql

open History (on)

/-! ## Operations -/

namespace Op

def tokenOp? : Op → Option TokenOp
  | .setToken name value => some (.set name value)
  | .writeToken name values mode => some (.write name values mode)
  | .clearToken name => some (.clear name)
  | .openClause _ => none
  | .pushClause _ => none
  | .resetClauses => none

/-- The token that the operation is on; an operation on the filter is on none. -/
def token? (op : Op) : Option String :=
  op.tokenOp?.map TokenOp.name

def isTokenOp (op : Op) : Bool :=
  op.token?.isSome

end Op

/-- The operations on a token, in order. -/
def opsOn (name : String) (ops : List Op) : List TokenOp :=
  on name (ops.filterMap Op.tokenOp?)

/-- The operations on the filter, in order. -/
def clauseOps (ops : List Op) : List Op :=
  ops.filter fun op => op.token? = none

theorem opsOn_cons (name : String) (op : Op) (ops : List Op) :
    opsOn name (op :: ops) = opsOn name [op] ++ opsOn name ops := by
  cases h : op.tokenOp? <;> simp [opsOn, on, h, List.filter_cons]
  split <;> rfl

theorem opsOn_append (name : String) (ops more : List Op) :
    opsOn name (ops ++ more) = opsOn name ops ++ opsOn name more := by
  simp [opsOn, on]

theorem opsOn_of_ne {name : String} {op : Op} (h : op.token? ≠ some name) :
    opsOn name [op] = [] := by
  cases hop : op.tokenOp? with
  | none => simp [opsOn, on, hop]
  | some tokenOp =>
      have hname : tokenOp.name ≠ name := by simpa [Op.token?, hop] using h
      simp [opsOn, on, hop, hname]

/-- Only operations on the token matter to what is done to it. -/
theorem opsOn_filter {name : String} {keep : Op → Bool}
    (h : ∀ op : Op, op.token? = some name → keep op = true) (ops : List Op) :
    opsOn name (ops.filter keep) = opsOn name ops := by
  induction ops with
  | nil => rfl
  | cons op ops ih =>
      cases hkeep : keep op with
      | true => rw [List.filter_cons_of_pos hkeep, opsOn_cons, ih, ← opsOn_cons]
      | false =>
          have hother : op.token? ≠ some name := by
            intro htoken
            simp [h op htoken] at hkeep
          rw [List.filter_cons_of_neg (by simp [hkeep]), opsOn_cons, opsOn_of_ne hother,
            List.nil_append, ih]

theorem clauseOps_filter {keep : Op → Bool} (h : ∀ op : Op, op.token? = none → keep op = true)
    (ops : List Op) : clauseOps (ops.filter keep) = clauseOps ops := by
  rw [clauseOps, List.filter_filter, clauseOps]
  refine List.filter_congr ?_
  intro op _
  by_cases htoken : op.token? = none
  · simp [htoken, h op htoken]
  · simp [htoken]

theorem clauseOps_filter_isTokenOp (ops : List Op) : clauseOps (ops.filter Op.isTokenOp) = [] := by
  rw [clauseOps, List.filter_filter, List.filter_eq_nil_iff]
  intro op _
  cases h : op.token? <;> simp [Op.isTokenOp, h]

/-! ## Runs -/

/-- What an operation does to the filter; one that is refused or on a token does nothing. -/
def Filter.apply (f : Filter) : Op → Filter
  | .openClause clause => if f.isEmpty then f.push clause else f
  | .pushClause clause => f.push clause
  | .resetClauses => .empty
  | _ => f

theorem Filter.apply_of_token {f : Filter} {op : Op} (h : op.token? ≠ none) : f.apply op = f := by
  cases op <;> simp_all [Op.token?, Op.tokenOp?, apply]

theorem Filter.foldl_apply_clauseOps (f : Filter) (ops : List Op) :
    ops.foldl apply f = (clauseOps ops).foldl apply f := by
  induction ops generalizing f with
  | nil => rfl
  | cons op ops ih =>
      by_cases h : op.token? = none
      · simp [clauseOps, h, ih]
      · simp [clauseOps, h, ih, apply_of_token h]

namespace Content

theorem attempt_openClause (c : Content) (clause : Clause) :
    c.attempt (.openClause clause) = { c with filter := c.filter.apply (.openClause clause) } := by
  cases h : c.filter.isEmpty <;>
    simp [attempt, apply, openWith, Filter.openWith, Filter.apply, h, bind, Except.bind, pure,
      Except.pure]

theorem filter_attempt (c : Content) (op : Op) : (c.attempt op).filter = c.filter.apply op := by
  cases op with
  | openClause clause => rw [attempt_openClause]
  | _ => rfl

theorem tokens_attempt (c : Content) (op : Op) :
    (c.attempt op).tokens = c.tokens.run op.tokenOp?.toList := by
  cases op with
  | openClause clause => rw [attempt_openClause]; rfl
  | _ => rfl

theorem tokens_run (c : Content) (ops : List Op) :
    (c.run ops).tokens = c.tokens.run (ops.filterMap Op.tokenOp?) := by
  induction ops generalizing c with
  | nil => rfl
  | cons op ops ih =>
      have hrest := ih (c.attempt op)
      rw [tokens_attempt] at hrest
      cases hop : op.tokenOp? <;> simpa [run, Tokens.run, hop] using hrest

theorem filter_run_eq (c : Content) (ops : List Op) :
    (c.run ops).filter = (clauseOps ops).foldl Filter.apply c.filter := by
  rw [← Filter.foldl_apply_clauseOps]
  induction ops generalizing c with
  | nil => rfl
  | cons op ops ih =>
      have hrest := ih (c.attempt op)
      rwa [filter_attempt] at hrest

/-! ## Contents that agree -/

/-- The contents have the same slots for the names, and the same filter if one is `Where`. -/
structure Agree (names : List String) (c d : Content) : Prop where
  slot : ∀ name ∈ names, name ≠ whereToken → c.tokens.slot name = d.tokens.slot name
  filter : whereToken ∈ names → c.filter = d.filter

theorem Agree.lookup_eq {names : List String} {c d : Content} (h : Agree names c d)
    (bindings : Bindings) {name : String} (hname : name ∈ names) :
    c.lookup bindings name = d.lookup bindings name := by
  by_cases hwhere : name = whereToken
  · subst hwhere
    simp [lookup, h.filter hname]
  · have hvalues : c.tokens.values name = d.tokens.values name :=
      congrArg Slot.values (h.slot name hname hwhere)
    simp [lookup, hwhere, hvalues]

theorem Agree.render_eq {template : Template} {c d : Content}
    (h : Agree template.placeholders c d) (bindings : Bindings) :
    c.render template bindings = d.render template bindings := by
  have hlookup : ∀ name slot, .placeholder name slot ∈ template.segments →
      c.lookup bindings name = d.lookup bindings name := by
    intro name slot hmem
    exact h.lookup_eq bindings (List.mem_filterMap.2 ⟨_, hmem, rfl⟩)
  rw [render, render, Template.render_eq_fill, Template.fill_congr hlookup false,
    Template.render_eq_fill]

theorem agree_run {names : List String} {c : Content} {ops more : List Op}
    (hops : ∀ name ∈ names, name ≠ whereToken → opsOn name ops = opsOn name more)
    (hclauses : whereToken ∈ names →
      (clauseOps ops).foldl Filter.apply c.filter = (clauseOps more).foldl Filter.apply c.filter) :
    Agree names (c.run ops) (c.run more) where
  slot := by
    intro name hname hwhere
    have hsame : on name (ops.filterMap Op.tokenOp?) = on name (more.filterMap Op.tokenOp?) :=
      hops name hname hwhere
    rw [tokens_run, tokens_run, Tokens.slot_run, Tokens.slot_run, hsame]
  filter := by
    intro hname
    rw [filter_run_eq, filter_run_eq, hclauses hname]

end Content

/-! ## Commands -/

namespace Command

/-- An operation that is refused leaves the command as it was. -/
def attempt (c : Command) (op : Op) : Command :=
  match c.apply op with
  | .ok c' => c'
  | .error _ => c

def run (c : Command) (ops : List Op) : Command :=
  ops.foldl attempt c

theorem attempt_eq (c : Command) (op : Op) :
    c.attempt op = { c with content := c.content.attempt op } := by
  cases h : c.content.apply op <;>
    simp [attempt, apply, Content.attempt, h, bind, Except.bind, pure, Except.pure]

theorem run_eq (c : Command) (ops : List Op) :
    c.run ops = { c with content := c.content.run ops } := by
  induction ops generalizing c with
  | nil => rfl
  | cons op ops ih =>
      calc
        c.run (op :: ops) = (c.attempt op).run ops := rfl
        _ = { c with content := (c.attempt op).content.run ops } := by rw [ih, attempt_eq]
        _ = { c with content := c.content.run (op :: ops) } := by rw [attempt_eq]; rfl

/-- The text of a new command after operations, of which some may be refused. -/
def rawAfter (schema : String) (bindings : Bindings) (ops : List Op) : Except QueryError String :=
  ((ofSchema schema bindings).run ops).raw

variable {schema : String} {bindings : Bindings}

theorem rawAfter_eq {ops more : List Op}
    (hops : ∀ name ∈ (Template.compile schema).placeholders, name ≠ whereToken →
      opsOn name ops = opsOn name more)
    (hclauses : whereToken ∈ (Template.compile schema).placeholders →
      (clauseOps ops).foldl Filter.apply .empty = (clauseOps more).foldl Filter.apply .empty) :
    rawAfter schema bindings ops = rawAfter schema bindings more := by
  rw [rawAfter, rawAfter, run_eq, run_eq]
  exact (Content.agree_run hops hclauses).render_eq bindings

/-! ## Operations that make no difference -/

theorem rawAfter_filter {keep : Op → Bool}
    (htokens : ∀ op name, op.token? = some name → name ∈ (Template.compile schema).placeholders →
      name ≠ whereToken → keep op = true)
    (hclauses : whereToken ∈ (Template.compile schema).placeholders →
      ∀ op : Op, op.token? = none → keep op = true) (ops : List Op) :
    rawAfter schema bindings (ops.filter keep) = rawAfter schema bindings ops := by
  refine rawAfter_eq ?_ ?_
  · intro name hname hwhere
    exact opsOn_filter (fun op hop => htokens op name hop hname hwhere) ops
  · intro hname
    rw [clauseOps_filter (hclauses hname)]

theorem rawAfter_reset (front back : List Op) :
    rawAfter schema bindings (front.filter Op.isTokenOp ++ back) =
      rawAfter schema bindings (front ++ .resetClauses :: back) := by
  refine rawAfter_eq ?_ ?_
  · intro name _ _
    have hfront : opsOn name (front.filter Op.isTokenOp) = opsOn name front :=
      opsOn_filter (fun op hop => by simp [Op.isTokenOp, hop]) front
    rw [opsOn_append, opsOn_append, hfront]
    rfl
  · intro _
    -- On the one side the filter is still empty behind the front, on the other it is empty again.
    have hfront : clauseOps (front.filter Op.isTokenOp ++ back) = clauseOps back := by
      have hnil := clauseOps_filter_isTokenOp front
      rw [clauseOps, List.filter_append, ← clauseOps, ← clauseOps, hnil, List.nil_append]
    have hreset : clauseOps (front ++ .resetClauses :: back) =
        clauseOps front ++ .resetClauses :: clauseOps back := by
      simp [clauseOps, Op.token?, Op.tokenOp?]
    rw [hfront, hreset, List.foldl_append]
    rfl

theorem rawAfter_swap {op other : Op} (h : op.token? ≠ other.token?) (front back : List Op) :
    rawAfter schema bindings (front ++ op :: other :: back) =
      rawAfter schema bindings (front ++ other :: op :: back) := by
  refine rawAfter_eq ?_ ?_
  · intro name _ _
    -- One of the two is not on this token.
    have hpair : opsOn name [op] ++ opsOn name [other] = opsOn name [other] ++ opsOn name [op] := by
      by_cases hop : op.token? = some name
      · have hother : other.token? ≠ some name := fun hother => h (hop.trans hother.symm)
        simp [opsOn_of_ne hother]
      · simp [opsOn_of_ne hop]
    have hsplit : ∀ first second : Op, opsOn name (front ++ first :: second :: back) =
        opsOn name front ++ ((opsOn name [first] ++ opsOn name [second]) ++ opsOn name back) := by
      intro first second
      rw [opsOn_append, opsOn_cons name first, opsOn_cons name second, List.append_assoc]
    rw [hsplit, hsplit, hpair]
  · intro _
    -- One of the two is not on the filter.
    have hclauses : clauseOps (front ++ op :: other :: back) =
        clauseOps (front ++ other :: op :: back) := by
      by_cases hop : op.token? = none
      · have hother : other.token? ≠ none := fun hother => h (hop.trans hother.symm)
        simp [clauseOps, hop, hother]
      · simp [clauseOps, List.filter_cons, hop]
    rw [hclauses]

/-- The text after a run of operations stays the same when operations on tokens that the schema
does not mention are deleted, or those on the token `Where`, or those on the filter up to a reset,
or all of those on the filter where the schema has no placeholder for it, and when two neighbours
are swapped that are not on the same token and not both on the filter.  Behind a reset it is the
text of a command that never had a filter. -/
theorem rawAfter_deleted_swapped (schema : String) (bindings : Bindings) :
    (∀ ops, rawAfter schema bindings (ops.filter fun op =>
        op.token?.all fun name => name ∈ (Template.compile schema).placeholders) =
      rawAfter schema bindings ops) ∧
    (∀ ops, rawAfter schema bindings (ops.filter fun op => op.token? ≠ some whereToken) =
      rawAfter schema bindings ops) ∧
    (∀ front back, rawAfter schema bindings (front.filter Op.isTokenOp ++ back) =
      rawAfter schema bindings (front ++ .resetClauses :: back)) ∧
    (whereToken ∉ (Template.compile schema).placeholders → ∀ ops,
      rawAfter schema bindings (ops.filter Op.isTokenOp) = rawAfter schema bindings ops) ∧
    (∀ op other : Op, op.token? ≠ other.token? → ∀ front back,
      rawAfter schema bindings (front ++ op :: other :: back) =
        rawAfter schema bindings (front ++ other :: op :: back)) ∧
    (∀ ops, rawAfter schema bindings (ops ++ [.resetClauses]) =
      rawAfter schema bindings (ops.filter Op.isTokenOp)) := by
  refine ⟨?_, ?_, rawAfter_reset, ?_, fun op other => rawAfter_swap, ?_⟩
  · refine rawAfter_filter ?_ ?_
    · intro op name hop hname _
      simpa [hop] using hname
    · intro _ op hop
      simp [hop]
  · refine rawAfter_filter ?_ ?_
    · intro op name hop _ hwhere
      simpa [hop] using hwhere
    · intro _ op hop
      simp [hop]
  · intro hwhere
    refine rawAfter_filter ?_ ?_
    · intro op name hop _ _
      simp [Op.isTokenOp, hop]
    · intro hname
      exact absurd hname hwhere
  · intro ops
    have hreset : rawAfter schema bindings (ops.filter Op.isTokenOp ++ []) =
        rawAfter schema bindings (ops ++ [.resetClauses]) := rawAfter_reset ops []
    rw [← hreset, List.append_nil]

/-- The second opening is refused, and neither the filter nor the token `Where` is asked for. -/
def unaskedOps : List Op :=
  [.setToken "Class" (.string "C"), .openClause ⟨.none, "a = ?", some .null⟩,
    .openClause ⟨.none, "b", none⟩, .writeToken "Limit" [.int 2] .append]

theorem rawAfter_deleted_swapped_unasked :
    whereToken ∉ (Template.compile "DELETE VERTEX :Class :Limit").placeholders ∧
      (Op.clearToken "Class").token? ≠ (Op.setToken whereToken .null).token? ∧
      rawAfter "DELETE VERTEX :Class :Limit" .base (unaskedOps.filter Op.isTokenOp) =
        rawAfter "DELETE VERTEX :Class :Limit" .base unaskedOps ∧
      rawAfter "DELETE VERTEX :Class :Limit" .base
          (unaskedOps ++ [.clearToken "Class", .setToken whereToken .null]) =
        rawAfter "DELETE VERTEX :Class :Limit" .base
          (unaskedOps ++ [.setToken whereToken .null, .clearToken "Class"]) := by
  have hwhere : whereToken ∉ (Template.compile "DELETE VERTEX :Class :Limit").placeholders := by
    decide +kernel
  have htokens : (Op.clearToken "Class").token? ≠ (Op.setToken whereToken .null).token? := by
    decide +kernel
  rcases rawAfter_deleted_swapped "DELETE VERTEX :Class :Limit" .base with
    ⟨_, _, _, hdeleted, hswapped, _⟩
  exact ⟨hwhere, htokens, hdeleted hwhere unaskedOps,
    hswapped (.clearToken "Class") (.setToken whereToken .null) htokens unaskedOps []⟩

end Command
end GraphSql
