import GraphSql.Proofs.Statement.Matching
import GraphSql.Proofs.Statement.Rendering
import GraphSql.Proofs.Statement.Writing
import GraphSql.Proofs.Value.Spelling

/-!
# Escaping — what becomes of the literals in a statement

`INSERT`, `UPDATE` and the removal of index entries write their values as literals.  Every such
literal goes into the text of the statement, and then the text is normalised as a whole, literals
included:

* `quotedValues` — the values that a statement writes as literals;
* `WrittenIn`, `writtenIn_run` — before the text is normalised, it has every literal in it;
* `literal_arrives_iff` — a literal reaches the statement as it is exactly when no string in its
  value has two spaces in a row; of every string, what can be read back is the string with its runs
  of spaces shortened.
-/

namespace GraphSql

open Text

/-! ## Values in texts of formatters -/

namespace Formatter

theorem infix_commaJoin {write : Value → Except Unrepresentable String} {values : List Value}
    {texts : List String} {v : Value} :
    values.mapM write = .ok texts → v ∈ values →
      ∃ text, write v = .ok text ∧ text.toList <:+: (commaJoin texts).toList := by
  intro h hmem
  rcases Result.exists_mem_of_mapM h hmem with ⟨text, hin, htext⟩
  refine ⟨text, htext, ?_⟩
  rw [commaJoin, String.toList_intercalate]
  exact infix_intercalate _ (List.mem_map_of_mem hin)

theorem exists_literal_of_quoted {values : List Value} {answer : Option String} {v : Value} :
    quoted.format values = .ok answer → v ∈ values →
      ∃ literal text, v.literal = .ok literal ∧ answer = some text ∧
        literal.toList <:+: text.toList := by
  intro h hmem
  cases values with
  | nil => simp at hmem
  | cons first others =>
      rcases Result.bind_eq_ok_iff.1 h with ⟨text, htext, hanswer⟩
      rcases Result.bind_eq_ok_iff.1 htext with ⟨texts, htexts, hjoin⟩
      rcases infix_commaJoin htexts hmem with ⟨literal, hliteral, hin⟩
      rw [Except.ok.inj hjoin] at hin
      exact ⟨literal, text, hliteral, (Except.ok.inj hanswer).symm, hin⟩

theorem exists_literal_of_updates {values : List Value} {answer : Option String}
    {field : String} {v : Value} :
    updates.format values = .ok answer → .pair field v ∈ values →
      ∃ literal text, v.literal = .ok literal ∧ answer = some text ∧
        literal.toList <:+: text.toList := by
  intro h hmem
  cases values with
  | nil => simp at hmem
  | cons first others =>
      rcases Result.bind_eq_ok_iff.1 h with ⟨text, htext, hanswer⟩
      rcases Result.bind_eq_ok_iff.1 htext with ⟨texts, htexts, hjoin⟩
      rcases infix_commaJoin htexts hmem with ⟨written, hwritten, hin⟩
      rcases Result.bind_eq_ok_iff.1 hwritten with ⟨literal, hliteral, hassign⟩
      have hpart : literal.toList <:+: written.toList := by
        rw [← Except.ok.inj hassign, String.toList_append]
        exact List.infix_append_right
      rw [Except.ok.inj hjoin] at hin
      exact ⟨literal, text, hliteral, (Except.ok.inj hanswer).symm, List.IsInfix.trans hpart hin⟩

end Formatter

/-! ## Values written as literals -/

namespace Statement

variable {k : Kind}

/-- The values that the statement writes as literals. -/
def quotedValues (s : Statement k) : List Value :=
  match k with
  | .insert => s.content.tokens.values "Values"
  | .update =>
      (s.content.tokens.values "Updates").filterMap fun assignment =>
        match assignment with
        | .pair _ value => some value
        | _ => none
  | .indexRemove => s.content.filter.clauses.filterMap Clause.value
  | _ => []

end Statement

namespace Statement

variable {k : Kind}

/-! ## Literals in the text -/

/-- Before the text is normalised, the literal of the value is part of it. -/
def WrittenIn (text : String) (v : Value) : Prop :=
  ∃ out literal, v.literal = .ok literal ∧ literal.toList <:+: out ∧ text.toList = normalise out

theorem writtenIn_insert {s : Statement .insert} {text : String} {v : Value} :
    s.raw = .ok text → v ∈ s.content.tokens.values "Values" → WrittenIn text v := by
  intro hraw hmem
  have hname : "Values" ∈ (Template.compile Kind.insert.schema).placeholders := by
    simp [Kind.placeholders_insert]
  rcases exists_answer_of_raw hraw hname with ⟨out, answer, htext, hanswer, hin⟩
  rw [Content.lookup_token (f := .quoted) (by decide) (by decide)] at hanswer
  have hformat := Result.mapError_eq_ok_iff.1 hanswer
  rcases Formatter.exists_literal_of_quoted hformat hmem with
    ⟨literal, part, hliteral, hpart, hinfix⟩
  exact ⟨out, literal, hliteral, List.IsInfix.trans hinfix (hin part hpart), htext⟩

theorem writtenIn_update {s : Statement .update} {text field : String} {v : Value} :
    s.raw = .ok text → .pair field v ∈ s.content.tokens.values "Updates" → WrittenIn text v := by
  intro hraw hmem
  have hname : "Updates" ∈ (Template.compile Kind.update.schema).placeholders := by
    simp [Kind.placeholders_update]
  rcases exists_answer_of_raw hraw hname with ⟨out, answer, htext, hanswer, hin⟩
  rw [Content.lookup_token (f := .updates) (by decide) (by decide)] at hanswer
  have hformat := Result.mapError_eq_ok_iff.1 hanswer
  rcases Formatter.exists_literal_of_updates hformat hmem with
    ⟨literal, part, hliteral, hpart, hinfix⟩
  exact ⟨out, literal, hliteral, List.IsInfix.trans hinfix (hin part hpart), htext⟩

/-- A value in a filter reaches the text through the marker of its condition. -/
theorem writtenIn_indexRemove {s : Statement .indexRemove} {text : String} {clause : Clause}
    {v : Value} :
    s.raw = .ok text → clause ∈ s.content.filter.clauses → clause.Matches →
      clause.value = some v → WrittenIn text v := by
  intro hraw hclause hmatch hvalue
  have hname : whereToken ∈ (Template.compile Kind.indexRemove.schema).placeholders := by
    simp [Kind.placeholders_indexRemove]
  rcases exists_answer_of_raw hraw hname with ⟨out, answer, htext, hanswer, hin⟩
  rw [Content.lookup_where (f := .quoted) (by decide)] at hanswer
  have hrender := Result.mapError_eq_ok_iff.1 hanswer
  rcases Filter.infix_render hrender hclause with ⟨part, resolved, hpart, hresolved, hinfix⟩
  rcases clause.infix_resolve hmatch hvalue hresolved with ⟨written, hwritten, hvaluein⟩
  rcases Formatter.exists_literal_of_quoted hwritten (List.mem_singleton.2 rfl) with
    ⟨literal, whole, hliteral, rfl, hwhole⟩
  have hclausein : literal.toList <:+: resolved.toList := List.IsInfix.trans hwhole hvaluein
  have hpartin : literal.toList <:+: part.toList := List.IsInfix.trans hclausein hinfix
  exact ⟨out, literal, hliteral, List.IsInfix.trans hpartin (hin part hpart), htext⟩

theorem writtenIn_run (o : Opening k) (calls : List (Call k)) {text : String} {v : Value} :
    ((start o).run calls).raw = .ok text → v ∈ ((start o).run calls).quotedValues →
      WrittenIn text v := by
  intro hraw hmem
  cases k with
  | insert => exact writtenIn_insert hraw hmem
  | update =>
      rcases List.mem_filterMap.1 hmem with ⟨assignment, hassignment, hvalue⟩
      cases assignment with
      | pair field value =>
          obtain rfl := Option.some.inj hvalue
          exact writtenIn_update hraw hassignment
      | _ => simp at hvalue
  | indexRemove =>
      rcases List.mem_filterMap.1 hmem with ⟨clause, hclause, hvalue⟩
      have hmatch := matches_run (by decide) o calls clause hclause
      exact writtenIn_indexRemove hraw hclause hmatch hvalue
  | _ => simp [quotedValues] at hmem

/-- A quoted string in the text: what is between its quotes ends where the string was ended, and
undoing the escapes gives `found`. -/
def ReadsBack (text found : List Char) : Prop :=
  ∃ before body after, text = before ++ '\'' :: (body ++ '\'' :: after) ∧
    body? '\'' (body ++ '\'' :: after) = some (body, after) ∧ unescape body = found

theorem readsBack_of_infix {found text : List Char} (h : quoteChars found <:+: text) :
    ReadsBack text found := by
  rcases h with ⟨before, after, rfl⟩
  refine ⟨before, escape found, after, by simp [quoteChars], body?_escape found after, ?_⟩
  have hread := unescape_escape_append found []
  rwa [List.append_nil, unescape, List.append_nil] at hread

/-- Normalising the statement alters a literal exactly when a string in its value has two spaces in
a row; of each string, the statement has the text with its runs of spaces shortened. -/
theorem literal_arrives_iff (o : Opening k) (calls : List (Call k)) {text : String} {v : Value}
    (hraw : ((start o).run calls).raw = .ok text)
    (hv : v ∈ ((start o).run calls).quotedValues) :
    ∃ literal, v.literal = .ok literal ∧
      (literal.toList <:+: text.toList ↔ ∀ s, v.HoldsString s → ¬TwoSpaces s.toList) ∧
      ∀ s, v.HoldsString s → ReadsBack text.toList (collapse s.toList) := by
  rcases writtenIn_run o calls hraw hv with ⟨out, literal, hliteral, hin, htext⟩
  refine ⟨literal, hliteral, ?_, ?_⟩
  · rw [htext, infix_normalise_iff (Value.framed_literal hliteral) hin,
      Value.twoSpaces_literal_iff hliteral]
    simp
  · intro s hs
    have hquoted : quoteChars s.toList <:+: out :=
      List.IsInfix.trans (Value.quoteChars_infix_literal hs hliteral) hin
    -- Shortening the literal gives the literal of the shortened string, and that can be read.
    have hnorm := collapse_infix_normalise (framed_quoteChars s.toList) hquoted
    rw [collapse_quoteChars] at hnorm
    rw [htext]
    exact readsBack_of_infix hnorm

/-- One field of a record is inserted. -/
def insertOne (value : Value) : List (Call .insert) :=
  [.fill (.into "C"), .fill (.fields ["a"] .overwrite), .fill (.insertValues [value] .overwrite)]

theorem raw_insertOne_two_spaces :
    ((start .insert).run (insertOne (.string "a  b"))).raw =
      .ok "INSERT INTO C (a) VALUES ('a b')" := by
  decide +kernel

theorem mem_quotedValues_insertOne (v : Value) :
    v ∈ ((start .insert).run (insertOne v)).quotedValues := by
  have hvalues : ((start .insert).run (insertOne v)).quotedValues = [v] := by
    simp [quotedValues, insertOne, run_nil, run_fill, values_fill, Fill.write, WriteMode.combine]
  rw [hvalues]
  exact List.mem_singleton.2 rfl

theorem literal_arrives_two_spaces :
    ((start .insert).run (insertOne (.string "a  b"))).raw =
        .ok "INSERT INTO C (a) VALUES ('a b')" ∧
      .string "a  b" ∈ ((start .insert).run (insertOne (.string "a  b"))).quotedValues ∧
      ∃ literal, (Value.string "a  b").literal = .ok literal ∧
        (literal.toList <:+: "INSERT INTO C (a) VALUES ('a b')".toList ↔
          ∀ s, (Value.string "a  b").HoldsString s → ¬TwoSpaces s.toList) ∧
        ∀ s, (Value.string "a  b").HoldsString s →
          ReadsBack "INSERT INTO C (a) VALUES ('a b')".toList (collapse s.toList) :=
  ⟨raw_insertOne_two_spaces, mem_quotedValues_insertOne _,
    literal_arrives_iff .insert (insertOne (.string "a  b")) raw_insertOne_two_spaces
      (mem_quotedValues_insertOne _)⟩

/-- A statement need not have the literals of its values in it as they are. -/
theorem not_literal_arrives :
    ¬∀ (k : Kind) (o : Opening k) (calls : List (Call k)) (text : String) (v : Value),
      ((start o).run calls).raw = .ok text → v ∈ ((start o).run calls).quotedValues →
        ∃ literal, v.literal = .ok literal ∧ literal.toList <:+: text.toList := by
  intro h
  rcases h .insert .insert (insertOne (.string "a  b")) _ _ raw_insertOne_two_spaces
    (mem_quotedValues_insertOne _) with ⟨literal, hliteral, hin⟩
  have hquote : literal.toList = "'a  b'".toList := by
    rw [Value.literal] at hliteral
    rw [← Except.ok.inj hliteral]
    decide +kernel
  rw [hquote] at hin
  exact absurd hin (by decide +kernel)

end Statement
end GraphSql
