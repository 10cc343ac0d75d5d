import GraphSql.Command
import GraphSql.Proofs.Filter.Splicing
import GraphSql.Proofs.Template.Filling
import GraphSql.Proofs.Template.Segmentation

/-!
# Leftmost — which fault of a command is reported

A placeholder is at fault when no formatter is bound to it, or when its formatter refuses what the
placeholder stands for: the values of the token, or, for `Where`, the value of a clause.

* `Clause.RefusedBy`, `Content.Fault` — what can be wrong with a clause and with a placeholder;
* `Filter.render_error_iff` — a filter fails over its first refused clause;
* `Template.render_error_iff_mapM` — a template fails over its leftmost placeholder without an answer;
* `Template.slotFormatters`, `render_eq_slots` — a formatter that is chosen for each slot beforehand
  is the one bound to the name;
* `raw_leftmost_fault` — a command fails with the fault of its leftmost placeholder at fault.
-/

namespace GraphSql

variable {f : Formatter} {e cause : Unrepresentable}

/-! ## Filters -/

/-- The formatter refuses the value of the clause, whatever the markers of its condition. -/
def Clause.RefusedBy (clause : Clause) (f : Formatter) (cause : Unrepresentable) : Prop :=
  ∃ v, clause.value = some v ∧ f.format [v] = .error cause

theorem Clause.resolve_error_iff {clause : Clause} :
    clause.resolve f = .error cause ↔ clause.RefusedBy f cause := by
  rcases clause with ⟨connector, condition, value⟩
  cases value with
  | none => simp [resolve, RefusedBy]
  | some v => simp [resolve_some, Result.map_eq_error_iff, RefusedBy]

theorem Clause.exists_resolve_iff {clause : Clause} :
    (∃ text, clause.resolve f = .ok text) ↔ ∀ cause, ¬clause.RefusedBy f cause := by
  simp only [← resolve_error_iff]
  cases clause.resolve f <;> simp

theorem Filter.render_error_iff {filter : Filter} :
    filter.render f = .error cause ↔ ∃ front clause back,
      filter.clauses = front ++ clause :: back ∧
        (∀ other ∈ front, ∀ e, ¬other.RefusedBy f e) ∧ clause.RefusedBy f cause := by
  rw [render_error_iff_mapM, Result.mapM_first_error_iff]
  simp only [Clause.exists_resolve_iff, Clause.resolve_error_iff]

/-! ## Placeholders -/

namespace Content

variable {c : Content} {b : Bindings} {name : String}

/-- What is wrong with the placeholder of this name. -/
inductive Fault (c : Content) (b : Bindings) : String → QueryError → Prop
  | unbound {name : String} : b.resolve name = none → Fault c b name (.unbound name)
  | values {name : String} {f : Formatter} {cause : Unrepresentable} :
      b.resolve name = some f → name ≠ whereToken →
        f.format (c.tokens.values name) = .error cause → Fault c b name (.valueType name cause)
  | clause {f : Formatter} {front back : List Clause} {clause : Clause} {cause : Unrepresentable} :
      b.resolve whereToken = some f → c.filter.clauses = front ++ clause :: back →
        (∀ other ∈ front, ∀ e, ¬other.RefusedBy f e) → clause.RefusedBy f cause →
          Fault c b whereToken (.valueType whereToken cause)

/-- The answer for a placeholder whose formatter has been found, or is missing. -/
def formatted (c : Content) (f : Option Formatter) (name : String) :
    Except QueryError (Option String) :=
  match f with
  | none => .error (.unbound name)
  | some f =>
      let rendered :=
        if name = whereToken then c.filter.render f else f.format (c.tokens.values name)
      rendered.mapError (.valueType name)

theorem lookup_eq_formatted (c : Content) (b : Bindings) (name : String) :
    c.lookup b name = c.formatted (b.resolve name) name := by
  cases hf : b.resolve name <;> simp only [lookup, formatted, hf]

theorem lookup_error_iff {e : QueryError} : c.lookup b name = .error e ↔ c.Fault b name e := by
  rw [lookup_eq_formatted]
  constructor
  · intro h
    cases hf : b.resolve name with
    | none =>
        rw [hf, formatted] at h
        cases h
        exact .unbound hf
    | some f =>
        rw [hf, formatted] at h
        rcases Result.mapError_eq_error_iff.1 h with ⟨cause, hrendered, rfl⟩
        split at hrendered
        · rename_i hname
          subst hname
          rcases Filter.render_error_iff.1 hrendered with ⟨front, clause, back, hsplit, hfront, hcause⟩
          exact .clause hf hsplit hfront hcause
        · rename_i hname
          exact .values hf hname hrendered
  · intro h
    cases h with
    | unbound hf => rw [hf, formatted]
    | values hf hname hformat =>
        rw [hf, formatted]
        simp [hname, hformat, Except.mapError]
    | clause hf hsplit hfront hcause =>
        have hrender := Filter.render_error_iff.2 ⟨_, _, _, hsplit, hfront, hcause⟩
        rw [hf, formatted]
        simp [hrender, Except.mapError]

/-- With a fallback no name is without a formatter. -/
theorem Fault.ne_unbound {e : QueryError} (h : c.Fault b name e) (hb : b.fallback.isSome = true)
    (token : String) : e ≠ .unbound token := by
  cases h with
  | unbound hf =>
      rw [Bindings.resolve, Option.or_eq_none_iff] at hf
      simp [hf.2] at hb
  | values _ _ _ => simp
  | clause _ _ _ _ => simp

theorem exists_lookup_iff :
    (∃ answer, c.lookup b name = .ok answer) ↔ ∀ e, ¬c.Fault b name e := by
  simp only [← lookup_error_iff]
  cases c.lookup b name <;> simp

end Content

/-! ## Templates -/

namespace Template

variable {ε : Type} {lookup : String → Except ε (Option String)} {t : Template}

/-- The leftmost fault is found among the names of the placeholders alone. -/
theorem leftmostFault_iff_mapM {e : ε} {segments : List Segment} :
    LeftmostFault (fun _ name => lookup name) e segments ↔
      (segments.filterMap Segment.name?).mapM lookup = .error e := by
  rw [Result.mapM_first_error_iff]
  constructor
  · rintro ⟨front, name, slot, back, rfl, hfront, herror⟩
    have hnames : (front ++ Segment.placeholder name slot :: back).filterMap Segment.name? =
        front.filterMap Segment.name? ++ name :: back.filterMap Segment.name? := by
      simp [Segment.name?]
    refine ⟨_, name, _, hnames, ?_, herror⟩
    intro other hother
    rcases List.mem_filterMap.1 hother with ⟨segment, hmem, hname⟩
    cases segment with
    | literal text => simp [Segment.name?] at hname
    | placeholder found slot =>
        cases hname
        exact hfront other slot hmem
  · rintro ⟨front, name, back, hnames, hfront, herror⟩
    rcases List.filterMap_eq_append_iff.1 hnames with ⟨left, right, rfl, rfl, hright⟩
    rcases List.filterMap_eq_cons_iff.1 hright with ⟨literals, segment, rest, rfl, hnone, hname, _⟩
    cases segment with
    | literal text => simp [Segment.name?] at hname
    | placeholder found slot =>
        cases hname
        refine ⟨left ++ literals, name, slot, rest, by simp, ?_, herror⟩
        intro other number hmem
        rcases List.mem_append.1 hmem with hleft | hliteral
        · exact hfront other (List.mem_filterMap.2 ⟨_, hleft, rfl⟩)
        · have hname := hnone _ hliteral
          simp [Segment.name?] at hname

theorem render_error_iff_mapM {e : ε} :
    t.render (fun _ name => lookup name) = .error e ↔ t.placeholders.mapM lookup = .error e := by
  rw [render_eq_fill, Result.map_eq_error_iff, fill_eq_error_iff, leftmostFault_iff_mapM]
  rfl

/-! ## Slots -/

/-- The formatters of the placeholders in the order of their slots. -/
def slotFormatters (t : Template) (b : Bindings) : List (Option Formatter) :=
  t.placeholders.map b.resolve

theorem getElem?_slotFormatters {source name : String} {slot : Nat} (b : Bindings)
    (h : .placeholder name slot ∈ (compile source).segments) :
    ((compile source).slotFormatters b)[slot]? = some (b.resolve name) := by
  have hslots := (segmentation_compile source).slots
  have hname : (compile source).placeholders[slot]? = some name :=
    (getElem?_filterMap_name? hslots).2 (by simpa using h)
  rw [slotFormatters, List.getElem?_map, hname]
  rfl

end Template

open Template in
theorem Content.render_eq_slots (c : Content) (source : String) (b : Bindings) :
    c.render (compile source) b = (compile source).render fun slot name =>
      c.formatted (((compile source).slotFormatters b)[slot]?).join name := by
  have hanswers : ∀ name slot, .placeholder name slot ∈ (compile source).segments →
      c.lookup b name = c.formatted (((compile source).slotFormatters b)[slot]?).join name := by
    intro name slot hmem
    rw [getElem?_slotFormatters b hmem, Option.join_some, Content.lookup_eq_formatted]
  rw [Content.render, render_eq_fill, render_eq_fill, fill_congr hanswers false]

/-! ## Commands -/

namespace Command

open Template (compile slotFormatters)

/-- A command fails exactly when a placeholder of its schema is at fault, and it reports the fault of
the leftmost of them.  With a fallback no placeholder is unbound.  Each slot has the formatter that
is bound to the name of its placeholder, so formatters may be chosen for the slots beforehand. -/
theorem raw_leftmost_fault (schema : String) (b : Bindings) (c : Content) :
    ((∃ e, raw ⟨compile schema, b, c⟩ = .error e) ↔
      ∃ name ∈ (compile schema).placeholders, ∃ e, c.Fault b name e) ∧
    (∀ e, raw ⟨compile schema, b, c⟩ = .error e ↔
      ∃ front name back, (compile schema).placeholders = front ++ name :: back ∧
        (∀ other ∈ front, ∀ e', ¬c.Fault b other e') ∧ c.Fault b name e) ∧
    (b.fallback.isSome = true → ∀ name, raw ⟨compile schema, b, c⟩ ≠ .error (.unbound name)) ∧
    (∀ name slot, .placeholder name slot ∈ (compile schema).segments →
      (slotFormatters (compile schema) b)[slot]? = some (b.resolve name)) ∧
    raw ⟨compile schema, b, c⟩ = (compile schema).render fun slot name =>
      c.formatted ((slotFormatters (compile schema) b)[slot]?).join name := by
  have hraw : ∀ e, raw ⟨compile schema, b, c⟩ = .error e ↔
      (compile schema).placeholders.mapM (c.lookup b) = .error e :=
    fun _ => Template.render_error_iff_mapM
  refine ⟨?_, ?_, ?_, fun _ _ => Template.getElem?_slotFormatters b, c.render_eq_slots schema b⟩
  · simp only [hraw, Result.exists_mapM_error_iff, Content.lookup_error_iff]
  · intro e
    simp only [hraw, Result.mapM_first_error_iff, Content.exists_lookup_iff,
      Content.lookup_error_iff]
  · intro hfallback name h
    rcases Result.mapM_first_error_iff.1 ((hraw _).1 h) with ⟨_, found, _, _, _, herror⟩
    exact (Content.lookup_error_iff.1 herror).ne_unbound hfallback name rfl

/-- Three placeholders are at fault, and the first of them is bound. -/
theorem raw_leftmost_fault_limit :
    raw ⟨compile "SELECT :Limit :Mode :Where", Bindings.strict.bind "Limit" .limit,
      Content.empty.write "Limit" [.string "ten"] .overwrite⟩ =
      .error (.valueType "Limit" (.wantsCount .string)) := by
  rcases raw_leftmost_fault "SELECT :Limit :Mode :Where" (Bindings.strict.bind "Limit" .limit)
    (Content.empty.write "Limit" [.string "ten"] .overwrite) with ⟨_, hleftmost, _⟩
  refine (hleftmost _).2 ⟨[], "Limit", ["Mode", whereToken], by decide +kernel, by simp, ?_⟩
  exact .values rfl (by decide) rfl

end Command
end GraphSql
