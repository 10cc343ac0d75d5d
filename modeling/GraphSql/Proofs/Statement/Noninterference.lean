import GraphSql.Proofs.Formatter.Alignment
import GraphSql.Proofs.Statement.Rendering
import GraphSql.Proofs.Statement.Writing
import GraphSql.Proofs.Template.Segmentation

/-!
# Noninterference — strings do not reach out of their literals

Two statements are compared that differ in the strings of their values only.  The answers for all
placeholders are aligned, the literals of the schemas have no quotes, and so the texts are aligned:

* `SameSkeleton` — both statements have a text, and outside of literals the texts are the same;
* `SameNames` — the names that are written as they stand are the same, and have no quotes;
* `sameSkeleton_run` — insertions, updates without a filter and removals of index entries have the
  same skeleton, whatever strings they are given.
-/

namespace GraphSql

open Condition (Unquoted Aligned)
open Template (AnswersRelated)

/-! ## Schemas -/

theorem Kind.unquoted_schema (k : Kind) : Unquoted k.schema.toList := by
  -- A literal as a list of characters is cheap to evaluate; its bytes, decoded, are not.
  have hchars : ∃ cs, k.schema = String.ofList cs ∧ Unquoted cs := by
    cases k with
    | truncate scope => cases scope <;> exact ⟨_, rfl, by decide +kernel⟩
    | _ => exact ⟨_, rfl, by decide +kernel⟩
  rcases hchars with ⟨cs, hcs, hunquoted⟩
  rw [hcs, String.toList_ofList]
  exact hunquoted

theorem Kind.unquoted_literal {k : Kind} {text : String} :
    .literal text ∈ (Template.compile k.schema).segments → Unquoted text.toList := by
  intro hmem c hc
  -- The literals of a template are parts of its schema.
  have hjoined := (Template.segmentation_compile k.schema).joined
  refine k.unquoted_schema c ?_
  rw [← hjoined]
  exact List.mem_flatMap.2 ⟨_, hmem, hc⟩

theorem Text.dropBlank_subset (cs : List Char) : dropBlank cs ⊆ cs := by
  cases cs with
  | nil => exact List.Subset.refl _
  | cons c cs =>
      rw [dropBlank]
      split
      · exact List.subset_cons_self c cs
      · exact List.Subset.refl _

/-! ## Statements -/

namespace Statement

variable {k : Kind}

/-- Both statements have a text, and outside of literals the texts are the same. -/
def SameSkeleton (s s' : Statement k) : Prop :=
  ∃ text text', s.raw = .ok text ∧ s'.raw = .ok text' ∧
    Condition.skeleton text.toList = Condition.skeleton text'.toList

theorem sameSkeleton_of_lookup {s s' : Statement k}
    (h : ∀ name ∈ (Template.compile k.schema).placeholders,
      AnswersRelated Aligned (s.content.lookup k.bindings name)
        (s'.content.lookup k.bindings name)) : s.SameSkeleton s' := by
  have hliteral : ∀ text, .literal text ∈ (Template.compile k.schema).segments →
      Aligned text.toList text.toList ∧
        Aligned (Text.dropBlank text.toList) (Text.dropBlank text.toList) := by
    intro text hmem
    have hunquoted := Kind.unquoted_literal hmem
    have hdropped := hunquoted.subset (Text.dropBlank_subset text.toList)
    exact ⟨Aligned.of_unquoted hunquoted, Aligned.of_unquoted hdropped⟩
  rcases exists_raw_related (R := Aligned) .nil Aligned.append Aligned.normalise hliteral h with
    ⟨text, text', htext, htext', haligned⟩
  exact ⟨text, text', htext, htext', Condition.skeleton_eq_of_aligned haligned⟩

theorem lookup_alike {s s' : Statement k} {name : String} {f : Formatter}
    (hf : k.bindings.resolve name = some f) (hname : name ≠ whereToken)
    (h : f.Alike (s.content.tokens.values name) (s'.content.tokens.values name)) :
    AnswersRelated Aligned (s.content.lookup k.bindings name)
      (s'.content.lookup k.bindings name) := by
  rw [Content.lookup_token hf hname, Content.lookup_token hf hname]
  exact h.mapError _ _

theorem lookup_where_alike {s s' : Statement k} {f : Formatter}
    (hf : k.bindings.resolve whereToken = some f)
    (h : List.Forall₂ (Clause.Alike f) s.content.filter.clauses s'.content.filter.clauses) :
    AnswersRelated Aligned (s.content.lookup k.bindings whereToken)
      (s'.content.lookup k.bindings whereToken) := by
  rw [Content.lookup_where hf, Content.lookup_where hf]
  exact (Filter.alike_render h).mapError _ _

/-! ### Names -/

/-- Both statements have the same names in the token, and none of them has a quote. -/
structure SameNames (token : String) (s s' : Statement k) : Prop where
  same : s.content.tokens.values token = s'.content.tokens.values token
  unquoted : ∀ name, .string name ∈ s.content.tokens.values token → Unquoted name.toList

/-- Tokens for names are given strings only, and those are written alike. -/
theorem SameNames.lookup_alike {token : String} {s s' : Statement k} {f : Formatter}
    (h : SameNames token s s')
    (hstrings : ∀ v ∈ s.content.tokens.values token, v.shape = .string)
    (hf : k.bindings.resolve token = some f) (htoken : token ≠ whereToken)
    (halike : ∀ names : List String, (∀ name ∈ names, Unquoted name.toList) →
      f.Alike (Value.ofStrings names) (Value.ofStrings names)) :
    AnswersRelated Aligned (s.content.lookup k.bindings token)
      (s'.content.lookup k.bindings token) := by
  rcases Value.exists_ofStrings hstrings with ⟨names, hnames⟩
  refine Statement.lookup_alike hf htoken ?_
  rw [← h.same, hnames]
  refine halike names ?_
  intro name hname
  refine h.unquoted name ?_
  rw [hnames]
  exact List.mem_map_of_mem hname

theorem shape_insert_names {token : String} (htoken : token = "Target" ∨ token = "Fields")
    (calls : List (Call .insert)) :
    ∀ v ∈ ((start .insert).run calls).content.tokens.values token, v.shape = .string := by
  refine forall_values_run ?_ ?_ calls
  · intro w hw
    simp [Opening.writes] at hw
  · intro f hf v hv
    cases f with
    | into name =>
        rw [List.mem_singleton.1 hv]
        rfl
    | fields items mode => exact Value.shape_of_mem_ofStrings hv
    | insertValues values mode => rcases htoken with rfl | rfl <;> simp [Fill.write] at hf

theorem shape_update_class (o : Opening .update) (calls : List (Call .update)) :
    ∀ v ∈ ((start o).run calls).content.tokens.values "Class", v.shape = .string := by
  refine forall_values_run ?_ ?_ calls
  · intro w hw _ v hv
    cases o with
    | update className =>
        rw [List.mem_singleton.1 hw] at hv
        rw [List.mem_singleton.1 hv]
        rfl
  · intro f hf
    cases f with
    | set field value => simp [Fill.write] at hf
    | setAll pairs mode => simp [Fill.write] at hf

/-! ### Statements with strings -/

theorem sameSkeleton_insert {calls calls' : List (Call .insert)}
    (htarget : SameNames "Target" ((start .insert).run calls) ((start .insert).run calls'))
    (hfields : SameNames "Fields" ((start .insert).run calls) ((start .insert).run calls'))
    (hvalues : List.Forall₂ Value.BothStrings
      (((start .insert).run calls).content.tokens.values "Values")
      (((start .insert).run calls').content.tokens.values "Values")) :
    ((start .insert).run calls).SameSkeleton ((start .insert).run calls') := by
  refine sameSkeleton_of_lookup ?_
  rw [Kind.placeholders_insert]
  refine List.forall_mem_cons.2 ⟨?_, List.forall_mem_cons.2 ⟨?_, List.forall_mem_singleton.2 ?_⟩⟩
  · have hstrings := shape_insert_names (Or.inl rfl) calls
    exact htarget.lookup_alike hstrings (f := .target) (by decide) (by decide) fun _ =>
      Formatter.alike_target
  · have hstrings := shape_insert_names (Or.inr rfl) calls
    exact hfields.lookup_alike hstrings (f := .regular) (by decide) (by decide) fun _ =>
      Formatter.alike_regular
  · refine lookup_alike (f := .quoted) (by decide) (by decide) ?_
    exact Formatter.alike_quoted (hvalues.imp fun v w => Value.BothStrings.alike)

theorem sameSkeleton_update {o o' : Opening .update} {calls calls' : List (Call .update)}
    (hfilter : ((start o).run calls).content.filter.clauses = [])
    (hfilter' : ((start o').run calls').content.filter.clauses = [])
    (hclass : SameNames "Class" ((start o).run calls) ((start o').run calls'))
    (hupdates : List.Forall₂ Formatter.SameField
      (((start o).run calls).content.tokens.values "Updates")
      (((start o').run calls').content.tokens.values "Updates")) :
    ((start o).run calls).SameSkeleton ((start o').run calls') := by
  refine sameSkeleton_of_lookup ?_
  rw [Kind.placeholders_update]
  refine List.forall_mem_cons.2 ⟨?_, List.forall_mem_cons.2 ⟨?_, List.forall_mem_singleton.2 ?_⟩⟩
  · have hstrings := shape_update_class o calls
    exact hclass.lookup_alike hstrings (f := .regular) (by decide) (by decide) fun _ =>
      Formatter.alike_regular
  · refine lookup_alike (f := .updates) (by decide) (by decide) ?_
    exact Formatter.alike_updates hupdates
  -- Without clauses the filter writes nothing, whatever its formatter.
  · refine lookup_where_alike (f := .regular) (by decide) ?_
    rw [hfilter, hfilter']
    exact .nil

theorem alike_entryClauses (key key' : String) (link : Option RecordId) :
    List.Forall₂ (Clause.Alike .quoted) (Opening.entryClauses (some (.string key)) link)
      (Opening.entryClauses (some (.string key')) link) := by
  have hkey : Clause.Alike .quoted ⟨.none, "key = ?", some (.string key)⟩
      ⟨.none, "key = ?", some (.string key')⟩ :=
    Clause.alike_of_values (by decide)
      (Formatter.alike_quoted (.cons (Value.alike_string key key') .nil))
  cases link with
  | none => exact .cons hkey .nil
  | some record =>
      have hlink : Clause.Alike .quoted ⟨.and, "rid = ?", some (.recordId record)⟩
          ⟨.and, "rid = ?", some (.recordId record)⟩ :=
        Clause.alike_of_values (by decide)
          (Formatter.alike_quoted (.cons (Value.alike_recordId record) .nil))
      exact .cons hkey (.cons hlink .nil)

theorem sameSkeleton_indexRemove {name : String} (hname : Unquoted name.toList)
    (key key' : String) (link : Option RecordId) :
    (start (.indexRemove name (some (.string key)) link)).SameSkeleton
      (start (.indexRemove name (some (.string key')) link)) := by
  have hnames : ∀ key : String,
      (start (.indexRemove name (some (.string key)) link)).content.tokens.values "Name" =
        Value.ofStrings [name] := by
    intro key
    rw [start, Opening.tokens_content]
    rfl
  refine sameSkeleton_of_lookup ?_
  rw [Kind.placeholders_indexRemove]
  refine List.forall_mem_cons.2 ⟨?_, List.forall_mem_singleton.2 ?_⟩
  · refine lookup_alike (f := .regular) (by decide) (by decide) ?_
    rw [hnames, hnames]
    exact Formatter.alike_regular (List.forall_mem_singleton.2 hname)
  · refine lookup_where_alike (f := .quoted) (by decide) ?_
    rw [start, start, Opening.clauses_content, Opening.clauses_content]
    exact alike_entryClauses key key' link

/-- The strings that are inserted, assigned or looked up in an index change nothing outside of
their own literals, whatever is in them. -/
theorem sameSkeleton_run :
    (∀ calls calls' : List (Call .insert),
      let s := (start .insert).run calls
      let s' := (start .insert).run calls'
      SameNames "Target" s s' → SameNames "Fields" s s' →
        List.Forall₂ Value.BothStrings (s.content.tokens.values "Values")
          (s'.content.tokens.values "Values") →
        s.SameSkeleton s') ∧
      (∀ (o o' : Opening .update) (calls calls' : List (Call .update)),
        let s := (start o).run calls
        let s' := (start o').run calls'
        s.content.filter.clauses = [] → s'.content.filter.clauses = [] → SameNames "Class" s s' →
          List.Forall₂ Formatter.SameField (s.content.tokens.values "Updates")
            (s'.content.tokens.values "Updates") →
          s.SameSkeleton s') ∧
      ∀ name key key' link, Unquoted name.toList →
        (start (.indexRemove name (some (.string key)) link)).SameSkeleton
          (start (.indexRemove name (some (.string key')) link)) := by
  refine ⟨?_, ?_, ?_⟩
  · intro calls calls' s s' htarget hfields hvalues
    exact sameSkeleton_insert htarget hfields hvalues
  · intro o o' calls calls' s s' hfilter hfilter' hclass hupdates
    exact sameSkeleton_update hfilter hfilter' hclass hupdates
  · intro name key key' link hname
    exact sameSkeleton_indexRemove hname key key' link

/-- A record with one value. -/
def insertText (text : String) : List (Call .insert) :=
  [.fill (.into "C"), .fill (.insertValues [.string text] .append)]

def assignText (text : String) : List (Call .update) :=
  [.fill (.set "a" (.string text))]

theorem values_insertText (text : String) :
    let tokens := ((start .insert).run (insertText text)).content.tokens
    tokens.values "Target" = Value.ofStrings ["C"] ∧ tokens.values "Fields" = Value.ofStrings [] ∧
      tokens.values "Values" = [.string text] := by
  simp only [insertText, run_nil, run_fill, values_fill]
  exact ⟨rfl, rfl, rfl⟩

theorem values_assignText (text : String) :
    let tokens := ((start (.update "C")).run (assignText text)).content.tokens
    tokens.values "Class" = Value.ofStrings ["C"] ∧
      tokens.values "Updates" = [.pair "a" (.string text)] := by
  simp only [assignText, run_nil, run_fill, values_fill]
  exact ⟨rfl, rfl⟩

theorem sameNames_of_values {token : String} {s s' : Statement k} {names : List String}
    (hs : s.content.tokens.values token = Value.ofStrings names)
    (hs' : s'.content.tokens.values token = Value.ofStrings names)
    (hnames : ∀ name ∈ names, Unquoted name.toList) : SameNames token s s' := by
  refine ⟨hs.trans hs'.symm, ?_⟩
  intro name hname
  rw [hs] at hname
  rcases List.mem_map.1 hname with ⟨other, hother, heq⟩
  rw [← Value.string.inj heq]
  exact hnames other hother

theorem sameSkeleton_closing_quote :
    ((start .insert).run (insertText "x")).SameSkeleton
        ((start .insert).run (insertText "'), ('")) ∧
      ((start (.update "C")).run (assignText "x")).SameSkeleton
        ((start (.update "C")).run (assignText "' WHERE '' = '")) ∧
      (start (.indexRemove "i" (some (.string "x")) none)).SameSkeleton
        (start (.indexRemove "i" (some (.string "' OR '' = '")) none)) := by
  have hclass : ∀ name ∈ ["C"], Unquoted name.toList := by decide
  have hnone : ∀ name ∈ ([] : List String), Unquoted name.toList := by simp
  refine ⟨?_, ?_, ?_⟩
  · have hvalues := values_insertText "x"
    have hvalues' := values_insertText "'), ('"
    refine sameSkeleton_run.1 (insertText "x") (insertText "'), ('")
      (sameNames_of_values hvalues.1 hvalues'.1 hclass)
      (sameNames_of_values hvalues.2.1 hvalues'.2.1 hnone) ?_
    rw [hvalues.2.2, hvalues'.2.2]
    exact .cons (.intro _ _) .nil
  · have hvalues := values_assignText "x"
    have hvalues' := values_assignText "' WHERE '' = '"
    refine sameSkeleton_run.2.1 (.update "C") (.update "C") (assignText "x")
      (assignText "' WHERE '' = '") rfl rfl
      (sameNames_of_values hvalues.1 hvalues'.1 hclass) ?_
    rw [hvalues.2, hvalues'.2]
    exact .cons (.intro _ _ (by decide)) .nil
  · exact sameSkeleton_run.2.2 "i" "x" "' OR '' = '" none (by decide)

end Statement
end GraphSql
