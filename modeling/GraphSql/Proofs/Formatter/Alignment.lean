import GraphSql.Proofs.Filter.Literals
import GraphSql.Proofs.Template.Filling
import GraphSql.Proofs.Text.Skeleton
import GraphSql.Proofs.Value.Spelling

/-!
# Alignment — what is written for two choices of strings

From the values up, the texts written for one choice of strings and for another are aligned: the
same characters outside of literals, and literals in the same places.

* `Value.Alike` — two values with aligned literals, such as any two strings;
* `Formatter.Alike` — a formatter answers with aligned texts for two lists of values;
* `alike_target`, `alike_regular` — names without quotes are written alike;
* `alike_quoted`, `alike_updates` — so are strings, and assignments of strings to the same fields;
* `Clause.Alike`, `Filter.alike_render` — the same for clauses and filters.
-/

namespace GraphSql

open Condition (Unquoted Aligned)
open Template (AnswersRelated)

/-! ## Values -/

namespace Value

/-- Both values have a literal, and the literals are aligned. -/
def Alike (v w : Value) : Prop :=
  ∃ text text', v.literal = .ok text ∧ w.literal = .ok text' ∧ Aligned text.toList text'.toList

theorem alike_string (s t : String) : Alike (.string s) (.string t) := by
  refine ⟨Text.quote s, Text.quote t, rfl, rfl, ?_⟩
  rw [toList_quote, toList_quote]
  exact Aligned.quoted s.toList t.toList

/-- Two strings, whichever they are. -/
inductive BothStrings : Value → Value → Prop
  | intro (s t : String) : BothStrings (.string s) (.string t)

theorem BothStrings.alike {v w : Value} (h : BothStrings v w) : Alike v w := by
  cases h with
  | intro s t => exact alike_string s t

theorem alike_recordId (r : RecordId) : Alike (.recordId r) (.recordId r) := by
  refine ⟨r.text, r.text, rfl, rfl, Aligned.of_unquoted ?_⟩
  intro c hc
  have hchars : c ∈ r.chars := by simpa [RecordId.text] using hc
  have hplain := Condition.isPlain_of_isSpelling (r.spelled_chars c hchars)
  exact (show c ≠ '?' ∧ Condition.isQuote c = false by simpa [Condition.isPlain] using hplain).2

/-! ### Lists of strings -/

theorem ofStrings_cons (text : String) (texts : List String) :
    ofStrings (text :: texts) = .string text :: ofStrings texts := rfl

theorem shape_of_mem_ofStrings {texts : List String} {v : Value} :
    v ∈ ofStrings texts → v.shape = .string := by
  intro h
  rcases List.mem_map.1 h with ⟨text, _, rfl⟩
  rfl

theorem exists_ofStrings {vs : List Value} :
    (∀ v ∈ vs, v.shape = .string) → ∃ texts, vs = ofStrings texts := by
  intro h
  induction vs with
  | nil => exact ⟨[], rfl⟩
  | cons v vs ih =>
      rcases List.forall_mem_cons.1 h with ⟨hv, hrest⟩
      rcases ih hrest with ⟨texts, rfl⟩
      cases v with
      | string text => exact ⟨text :: texts, rfl⟩
      | _ => simp [shape] at hv

end Value

/-! ## Formatters -/

theorem Template.AnswersRelated.mapError {ε δ : Type} {R : List Char → List Char → Prop}
    {a b : Except ε (Option String)} (h : AnswersRelated R a b) (f g : ε → δ) :
    AnswersRelated R (a.mapError f) (b.mapError g) := by
  cases h with
  | absent => exact .absent
  | present htexts => exact .present htexts

namespace Formatter

def Alike (f : Formatter) (vs ws : List Value) : Prop :=
  AnswersRelated Aligned (f.format vs) (f.format ws)

/-! ### Names, which are written as they stand -/

theorem joinPlain_ofStrings (separator : String) (names : List String) :
    joinPlain separator (Value.ofStrings names) = .ok (separator.intercalate names) := by
  have hplain : (Value.ofStrings names).mapM Value.plain = .ok names := by
    rw [Result.mapM_eq_ok_iff, Value.ofStrings, List.forall₂_map_left_iff]
    exact List.forall₂_same.2 fun name _ => rfl
  rw [joinPlain, hplain]
  rfl

theorem joinPlain_cons_ofStrings (separator name : String) (names : List String) :
    joinPlain separator (.string name :: Value.ofStrings names) =
      .ok (separator.intercalate (name :: names)) :=
  joinPlain_ofStrings separator (name :: names)

theorem unquoted_commas {names : List String} (h : ∀ name ∈ names, Unquoted name.toList) :
    Unquoted (", ".intercalate names).toList := by
  rw [String.toList_intercalate]
  refine Unquoted.intercalate (by decide) ?_
  intro part hpart
  rcases List.mem_map.1 hpart with ⟨name, hname, rfl⟩
  exact h name hname

theorem alike_regular {names : List String} (h : ∀ name ∈ names, Unquoted name.toList) :
    regular.Alike (Value.ofStrings names) (Value.ofStrings names) := by
  cases names with
  | nil => exact .absent
  | cons name names =>
      have hformat : regular.format (Value.ofStrings (name :: names)) =
          .ok (some (", ".intercalate (name :: names))) := by
        rw [Value.ofStrings_cons, format, formatSome, joinPlain_cons_ofStrings]
        rfl
      rw [Alike, hformat]
      exact .present (Aligned.of_unquoted (unquoted_commas h))

theorem format_target_ofStrings (name other : String) (names : List String) :
    target.format (Value.ofStrings (name :: other :: names)) =
      .ok (some ("[" ++ ", ".intercalate (name :: other :: names) ++ "]")) := by
  rw [Value.ofStrings_cons, format, formatSome, joinPlain_cons_ofStrings]
  · rfl
  · simp [Value.ofStrings_cons]

theorem alike_target {names : List String} (h : ∀ name ∈ names, Unquoted name.toList) :
    target.Alike (Value.ofStrings names) (Value.ofStrings names) := by
  match names with
  | [] => exact .absent
  | [name] => exact alike_regular h
  | name :: other :: names =>
      have hbrackets : Unquoted ("[" ++ ", ".intercalate (name :: other :: names) ++ "]").toList := by
        rw [String.toList_append, String.toList_append]
        exact (Unquoted.append (by decide) (unquoted_commas h)).append (by decide)
      rw [Alike, format_target_ofStrings]
      exact .present (Aligned.of_unquoted hbrackets)

/-! ### Literals -/

theorem exists_commaJoin_aligned {write : Value → Except Unrepresentable String}
    {vs ws : List Value}
    (h : List.Forall₂ (fun v w => ∃ text text', write v = .ok text ∧ write w = .ok text' ∧
      Aligned text.toList text'.toList) vs ws) :
    ∃ texts texts', vs.mapM write = .ok texts ∧ ws.mapM write = .ok texts' ∧
      Aligned (commaJoin texts).toList (commaJoin texts').toList := by
  rcases Result.exists_mapM_related h with ⟨texts, texts', htexts, htexts', hall⟩
  refine ⟨texts, texts', htexts, htexts', ?_⟩
  have hchars : List.Forall₂ Aligned (texts.map String.toList) (texts'.map String.toList) := by
    rw [List.forall₂_map_left_iff, List.forall₂_map_right_iff]
    exact hall
  rw [commaJoin, commaJoin, String.toList_intercalate, String.toList_intercalate]
  exact Aligned.intercalate (by decide) hchars

theorem alike_quoted {vs ws : List Value} (h : List.Forall₂ Value.Alike vs ws) :
    quoted.Alike vs ws := by
  rcases exists_commaJoin_aligned h with ⟨texts, texts', htexts, htexts', haligned⟩
  cases h with
  | nil => exact .absent
  | cons _ _ =>
      rw [Alike, format, format, formatSome, formatSome, htexts, htexts']
      exact .present haligned

/-- Two assignments of strings to one field, whose name has no quotes. -/
inductive SameField : Value → Value → Prop
  | intro {field : String} (s t : String) :
      Unquoted field.toList → SameField (.pair field (.string s)) (.pair field (.string t))

theorem exists_assignment_aligned {v w : Value} (h : SameField v w) :
    ∃ text text', assignment (fun _ value => value.literal) v = .ok text ∧
      assignment (fun _ value => value.literal) w = .ok text' ∧
        Aligned text.toList text'.toList := by
  cases h with
  | @intro field s t hfield =>
      refine ⟨field ++ " = " ++ Text.quote s, field ++ " = " ++ Text.quote t, rfl, rfl, ?_⟩
      have hfront : Unquoted (field ++ " = ").toList := by
        rw [String.toList_append]
        exact hfield.append (by decide)
      have hwritten : ∀ text : String, (field ++ " = " ++ Text.quote text).toList =
          (field ++ " = ").toList ++ Text.quoteChars text.toList := by
        intro text
        rw [String.toList_append, Value.toList_quote]
      rw [hwritten, hwritten]
      exact (Aligned.of_unquoted hfront).append (Aligned.quoted s.toList t.toList)

theorem alike_updates {vs ws : List Value} (h : List.Forall₂ SameField vs ws) :
    updates.Alike vs ws := by
  have hassignments := h.imp fun v w => exists_assignment_aligned
  rcases exists_commaJoin_aligned hassignments with ⟨texts, texts', htexts, htexts', haligned⟩
  cases h with
  | nil => exact .absent
  | cons _ _ =>
      rw [Alike, format, format, formatSome, formatSome, htexts, htexts']
      exact .present haligned

end Formatter

/-! ## Conditions, clauses and filters -/

theorem Condition.aligned_splice {condition a b : String} (hcondition : Unquoted condition.toList)
    (h : Aligned a.toList b.toList) :
    Aligned (splice condition a).toList (splice condition b).toList := by
  by_cases hmarkers : markers condition = []
  · have hsame : ∀ text, splice condition text = condition := by
      intro text
      rw [splice, hmarkers]
    rw [hsame, hsame]
    exact Aligned.of_unquoted hcondition
  · rcases exists_splice hmarkers with ⟨before, after, hsplit, hsplice⟩
    rw [hsplit] at hcondition
    -- Only the marker is replaced, and the condition has no quotes around it.
    have hbefore : Unquoted before := hcondition.subset (List.subset_append_left _ _)
    have hafter : Unquoted after := by
      intro c hc
      exact hcondition c (List.mem_append_right _ (List.mem_cons_of_mem _ hc))
    rw [hsplice, hsplice]
    exact (Aligned.of_unquoted hbefore).append (h.append (Aligned.of_unquoted hafter))

namespace Clause

/-- Clauses behind the same connector that resolve to aligned texts. -/
structure Alike (f : Formatter) (clause other : Clause) : Prop where
  connector : clause.connector = other.connector
  resolved : ∃ text text', clause.resolve f = .ok text ∧ other.resolve f = .ok text' ∧
    Aligned text.toList text'.toList

theorem alike_of_values {f : Formatter} {connector : Connector} {condition : String} {v w : Value}
    (hcondition : Unquoted condition.toList) (h : f.Alike [v] [w]) :
    Alike f ⟨connector, condition, some v⟩ ⟨connector, condition, some w⟩ := by
  refine ⟨rfl, ?_⟩
  rw [resolve_some, resolve_some]
  rw [Formatter.Alike] at h
  -- What the formatter does is only known through how its two answers are related.
  generalize f.format [v] = first at h
  generalize f.format [w] = second at h
  cases h with
  | absent =>
      have hempty : Aligned "".toList "".toList := .nil
      exact ⟨_, _, rfl, rfl, Condition.aligned_splice hcondition hempty⟩
  | present htexts => exact ⟨_, _, rfl, rfl, Condition.aligned_splice hcondition htexts⟩

theorem Alike.following {f : Formatter} {clause other : Clause} (h : Alike f clause other) :
    ∃ text text', clause.following f = .ok text ∧ other.following f = .ok text' ∧
      Aligned text.toList text'.toList := by
  rcases h.resolved with ⟨text, text', htext, htext', haligned⟩
  have hlead : Unquoted other.connector.lead.toList := by
    cases other.connector <;> decide
  refine ⟨other.connector.lead ++ text, other.connector.lead ++ text', ?_, ?_, ?_⟩
  · rw [following_eq_map, htext, h.connector]
    rfl
  · rw [following_eq_map, htext']
    rfl
  · rw [String.toList_append, String.toList_append]
    exact (Aligned.of_unquoted hlead).append haligned

end Clause

theorem Filter.alike_render {f : Formatter} {filter other : Filter}
    (h : List.Forall₂ (Clause.Alike f) filter.clauses other.clauses) :
    AnswersRelated Aligned (filter.render f) (other.render f) := by
  rw [render, render]
  generalize filter.clauses = clauses at h
  generalize other.clauses = clauses' at h
  cases h with
  | nil => exact .absent
  | cons hfirst hrest =>
      rcases hfirst.resolved with ⟨opening, opening', hopening, hopening', haligned⟩
      rcases Result.exists_mapM_related (hrest.imp fun clause other => Clause.Alike.following) with
        ⟨texts, texts', htexts, htexts', hall⟩
      have hjoined : Aligned (String.join texts).toList (String.join texts').toList := by
        rw [String.toList_join, String.toList_join]
        clear htexts htexts'
        induction hall with
        | nil => exact .nil
        | cons hboth _ ih => exact hboth.append ih
      simp only [hopening, hopening', htexts, htexts']
      refine .present ?_
      simp only [String.toList_append]
      exact ((Aligned.of_unquoted (by decide)).append haligned).append hjoined

end GraphSql
