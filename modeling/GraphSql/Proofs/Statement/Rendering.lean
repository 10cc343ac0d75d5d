import GraphSql.Proofs.Template.Filling
import GraphSql.Statement

/-!
# Rendering — the text of a statement from the answers for its placeholders

* `placeholders_insert` and its like — the placeholders of some schemas, in order;
* `lookup_token`, `lookup_where` — the answer for a token is what its formatter makes of its values,
  and the answer for `Where` is the filter;
* `raw_eq_fill` — the text is the filled schema, normalised;
* `exists_answer_of_raw` — if there is a text, what a formatter answers is part of it, up to
  spacing;
* `exists_fault_of_raw` — if there is none, a formatter has no answer for its token;
* `exists_raw_related` — two statements of a kind with related answers have related texts.
-/

namespace GraphSql

/-! ## Answers -/

namespace Content

variable {c : Content} {b : Bindings} {f : Formatter}

theorem lookup_token {name : String} (hf : b.resolve name = some f) (hname : name ≠ whereToken) :
    c.lookup b name = (f.format (c.tokens.values name)).mapError (.valueType name) := by
  simp only [lookup, hf, if_neg hname]

theorem lookup_where (hf : b.resolve whereToken = some f) :
    c.lookup b whereToken = (c.filter.render f).mapError (.valueType whereToken) := by
  simp only [lookup, hf, if_true]

end Content

/-! ## Placeholders -/

namespace Kind

theorem placeholders_insert : (Template.compile insert.schema).placeholders =
    ["Target", "Fields", "Values"] := by
  decide +kernel

theorem placeholders_update : (Template.compile update.schema).placeholders =
    ["Class", "Updates", whereToken] := by
  decide +kernel

theorem placeholders_indexRemove : (Template.compile indexRemove.schema).placeholders =
    ["Name", whereToken] := by
  decide +kernel

end Kind

theorem Template.exists_slot {t : Template} {name : String} :
    name ∈ t.placeholders → ∃ slot, .placeholder name slot ∈ t.segments := by
  intro h
  rcases List.mem_filterMap.1 h with ⟨segment, hmem, hname⟩
  cases segment with
  | literal text => simp [Segment.name?] at hname
  | placeholder other slot =>
      cases Option.some.inj hname
      exact ⟨slot, hmem⟩

/-! ## Texts -/

namespace Statement

variable {k : Kind}

theorem raw_eq_fill (s : Statement k) :
    s.raw = (Template.fill (fun _ name => s.content.lookup k.bindings name) false
      (Template.compile k.schema).segments).map fun out => String.ofList (Text.normalise out) :=
  Template.render_eq_fill _ _

/-- What a formatter answers for a placeholder is part of the text before it is normalised. -/
theorem exists_answer_of_raw {s : Statement k} {text name : String} :
    s.raw = .ok text → name ∈ (Template.compile k.schema).placeholders →
      ∃ out answer, text.toList = Text.normalise out ∧
        s.content.lookup k.bindings name = .ok answer ∧
          ∀ part, answer = some part → part.toList <:+: out := by
  intro h hmem
  rcases Template.exists_slot hmem with ⟨slot, hmem⟩
  rw [raw_eq_fill] at h
  rcases Result.map_eq_ok_iff.1 h with ⟨out, hout, rfl⟩
  rcases Template.exists_answer_of_fill hout hmem with ⟨answer, hanswer, hin⟩
  exact ⟨out, answer, String.toList_ofList, hanswer, hin⟩

/-- Without a text there is a placeholder that has no answer, and its fault is the one reported. -/
theorem exists_fault_of_raw {s : Statement k} {e : QueryError} :
    s.raw = .error e → ∃ name ∈ (Template.compile k.schema).placeholders,
      s.content.lookup k.bindings name = .error e := by
  intro h
  rw [raw_eq_fill, Result.map_eq_error_iff] at h
  rcases Template.fill_eq_error_iff.1 h with ⟨front, name, slot, back, hsplit, _, hfault⟩
  have hmem : .placeholder name slot ∈ (Template.compile k.schema).segments := by
    simp [hsplit]
  exact ⟨name, List.mem_filterMap.2 ⟨_, hmem, rfl⟩, hfault⟩

theorem exists_raw_related {s s' : Statement k} {R : List Char → List Char → Prop} (hnil : R [] [])
    (happend : ∀ {as bs cs ds : List Char}, R as bs → R cs ds → R (as ++ cs) (bs ++ ds))
    (hnormalise : ∀ {as bs : List Char}, R as bs → R (Text.normalise as) (Text.normalise bs))
    (hliteral : ∀ text, .literal text ∈ (Template.compile k.schema).segments →
      R text.toList text.toList ∧ R (Text.dropBlank text.toList) (Text.dropBlank text.toList))
    (hlookup : ∀ name ∈ (Template.compile k.schema).placeholders,
      Template.AnswersRelated R (s.content.lookup k.bindings name)
        (s'.content.lookup k.bindings name)) :
    ∃ text text', s.raw = .ok text ∧ s'.raw = .ok text' ∧ R text.toList text'.toList := by
  have hanswers : ∀ name slot,
      .placeholder name slot ∈ (Template.compile k.schema).segments →
        Template.AnswersRelated R (s.content.lookup k.bindings name)
          (s'.content.lookup k.bindings name) := by
    intro name slot hmem
    exact hlookup name (List.mem_filterMap.2 ⟨_, hmem, rfl⟩)
  rcases Template.exists_fill_related hnil happend hliteral hanswers false with
    ⟨out, out', hout, hout', hR⟩
  refine ⟨String.ofList (Text.normalise out), String.ofList (Text.normalise out'), ?_, ?_, ?_⟩
  · rw [raw_eq_fill, hout]
    rfl
  · rw [raw_eq_fill, hout']
    rfl
  · rw [String.toList_ofList, String.toList_ofList]
    exact hnormalise hR

end Statement
end GraphSql
