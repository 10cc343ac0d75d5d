import GraphSql.Proofs.Formatter.Alignment
import GraphSql.Proofs.Statement.Failing
import GraphSql.Proofs.Statement.Overwriting
import GraphSql.Proofs.Template.Substitution
import GraphSql.Statement.Defaults
import Mathlib.Algebra.Order.BigOperators.Group.List
import Mathlib.Algebra.Order.Group.Nat

/-!
# Configured — how long the defaults of a `SELECT` last

Each default stands in its own token until a call overwrites that token:

* `agreeBut_startSelect` — two configurations differ in the tokens of their defaults;
* `raw_run_eq` — a default that differs makes no difference once its token is overwritten;
* `exists_values_target` — without an overwriting call a default target stays among the targets;
* `raw_run_eq_iff_overwritten` — so the text is free of the configuration exactly when a call
  overwrites the targets, or when there is no text at all.
-/

namespace GraphSql

open Text

/-! ## Opened under two configurations -/

namespace Statement

variable {k : Kind} {isOpen : String → Prop} {s t : Statement k}

theorem slot_fill_of_ne {f : Fill k} {name : String} (h : f.write.token ≠ name)
    (s : Statement k) : (s.fill f).content.tokens.slot name = s.content.tokens.slot name :=
  (Tokens.slot_write _ _ _ _ _).trans (if_neg fun hname => h hname.symm)

theorem slot_foldl_fill {token name : String} {fills : List (Fill k)}
    (hfills : ∀ f ∈ fills, f.write.token = token) (hname : name ≠ token) (s : Statement k) :
    (fills.foldl fill s).content.tokens.slot name = s.content.tokens.slot name := by
  induction fills generalizing s with
  | nil => rfl
  | cons f fills ih =>
      rcases List.forall_mem_cons.1 hfills with ⟨hf, hrest⟩
      have hne : f.write.token ≠ name := by simpa [hf] using hname.symm
      rw [List.foldl_cons, ih hrest, slot_fill_of_ne hne]

theorem filter_foldl_fill (fills : List (Fill k)) (s : Statement k) :
    (fills.foldl fill s).content.filter = s.content.filter := by
  induction fills generalizing s with
  | nil => rfl
  | cons f fills ih => exact ih (s.fill f)

/-- Fills of an open token may differ, and other fills are the same for both. -/
theorem agreeBut_foldl_fill (token : String) (fills others : List (Fill k))
    (hfills : ∀ f ∈ fills, f.write.token = token) (hothers : ∀ f ∈ others, f.write.token = token)
    (hopen : fills ≠ others → isOpen token) (h : s.content.AgreeBut isOpen t.content) :
    (fills.foldl fill s).content.AgreeBut isOpen (others.foldl fill t).content := by
  by_cases hsame : fills = others
  · subst hsame
    clear hfills hothers hopen
    induction fills generalizing s t with
    | nil => exact h
    | cons f fills ih =>
        exact ih ((h.put f.write).mono fun _ hname => hname.1)
  · refine ⟨fun name hname => ?_, ?_⟩
    · have hne : name ≠ token := by
        rintro rfl
        exact hname (hopen hsame)
      rw [slot_foldl_fill hfills hne, slot_foldl_fill hothers hne, h.slot name hname]
    · rw [filter_foldl_fill, filter_foldl_fill, h.filter]

end Statement

namespace Config

/-- The configurations differ in the default of the token. -/
def Differ (c d : Config) (token : String) : Prop :=
  token = "Target" ∧ c.select.target ≠ d.select.target ∨
    token = "Fetchplan" ∧ c.select.fetchPlan ≠ d.select.fetchPlan ∨
    token = "Limit" ∧ c.select.limit ≠ d.select.limit

theorem agreeBut_startSelect {c d : Config} {projections : List String}
    (h : c.select.projections projections = d.select.projections projections) :
    (c.startSelect projections).content.AgreeBut (Differ c d)
      (d.startSelect projections).content := by
  -- The three parts are put in one after the other, each into its own token.
  have hstart := Content.AgreeBut.refl (Differ c d)
    (Statement.start (.select (c.select.projections projections))).content
  have htarget := Statement.agreeBut_foldl_fill "Target"
    (if c.select.target.isEmpty then [] else [.target c.select.target .overwrite])
    (if d.select.target.isEmpty then [] else [.target d.select.target .overwrite])
    (by split <;> simp [Fill.write]) (by split <;> simp [Fill.write])
    (fun hne => Or.inl ⟨rfl, fun heq => hne (by rw [heq])⟩) hstart
  have hplan := Statement.agreeBut_foldl_fill "Fetchplan"
    (c.select.fetchPlan.map Fill.fetchPlan).toList (d.select.fetchPlan.map Fill.fetchPlan).toList
    (by simp [Fill.write, Write.one]) (by simp [Fill.write, Write.one])
    (fun hne => Or.inr (Or.inl ⟨rfl, fun heq => hne (by rw [heq])⟩)) htarget
  have hlimit := Statement.agreeBut_foldl_fill "Limit"
    (c.select.limit.map Fill.limit).toList (d.select.limit.map Fill.limit).toList
    (by simp [Fill.write, Write.one]) (by simp [Fill.write, Write.one])
    (fun hne => Or.inr (Or.inr ⟨rfl, fun heq => hne (by rw [heq])⟩)) hplan
  simpa only [startSelect, SelectDefaults.fills, List.foldl_append, h] using hlimit

/-- A default that differs makes no difference once a call overwrites its token. -/
theorem raw_run_eq {c d : Config} {projections : List String} {calls : List (Call .select)}
    (hprojections : c.select.projections projections = d.select.projections projections)
    (hcalls : ∀ token, Differ c d token → ∃ call ∈ calls, call.Overwrites token) :
    ((c.startSelect projections).run calls).raw = ((d.startSelect projections).run calls).raw := by
  refine Statement.raw_eq_of_agreeBut
    (Statement.agreeBut_run (agreeBut_startSelect hprojections) calls) ?_
  rintro token ⟨hdiffer, hnone⟩
  rcases hcalls token hdiffer with ⟨call, hcall, hover⟩
  exact hnone call hcall hover

theorem projections_of_ne_nil (c : Config) {projections : List String} (h : projections ≠ []) :
    c.select.projections projections = projections := by
  simp [SelectDefaults.projections, h]

end Config

/-! ## Targets without an overwriting call -/

namespace Fill

/-- A fill writes the targets behind or in front of those that are there, or leaves them alone. -/
theorem exists_values_target {f : Fill .select} (h : ¬f.write.Overwrites "Target") :
    ∃ front back : List String, ∀ s : Statement .select,
      (s.fill f).content.tokens.values "Target" =
        Value.ofStrings front ++ (s.content.tokens.values "Target" ++ Value.ofStrings back) := by
  by_cases htoken : "Target" = f.write.token
  · cases f with
    | target items mode =>
        cases mode with
        | overwrite => exact absurd ⟨rfl, rfl⟩ h
        | append =>
            refine ⟨[], items, fun s => ?_⟩
            rw [Statement.values_fill]
            rfl
        | prepend =>
            refine ⟨items, [], fun s => ?_⟩
            rw [Statement.values_fill]
            simp [write, WriteMode.combine, Value.ofStrings]
    | _ => simp [write, Write.one] at htoken
  · refine ⟨[], [], fun s => ?_⟩
    rw [Statement.values_fill, if_neg htoken]
    simp [Value.ofStrings]

end Fill

namespace Statement

theorem exists_values_attempt {call : Call .select} (h : ¬call.Overwrites "Target") :
    ∃ front back : List String, ∀ s : Statement .select,
      (s.attempt call).content.tokens.values "Target" =
        Value.ofStrings front ++ (s.content.tokens.values "Target" ++ Value.ofStrings back) := by
  by_cases hfill : ∃ f, call = .fill f
  · rcases hfill with ⟨f, rfl⟩
    exact Fill.exists_values_target h
  · refine ⟨[], [], fun s => ?_⟩
    have hcall : ∀ f, call ≠ .fill f := fun f hf => hfill ⟨f, hf⟩
    simp [tokens_attempt hcall, Value.ofStrings]

/-- Unless a call overwrites them, the calls put other targets around those that are there. -/
theorem exists_values_run {calls : List (Call .select)}
    (h : ∀ call ∈ calls, ¬call.Overwrites "Target") :
    ∃ front back : List String, ∀ s : Statement .select,
      (s.run calls).content.tokens.values "Target" =
        Value.ofStrings front ++ (s.content.tokens.values "Target" ++ Value.ofStrings back) := by
  induction calls with
  | nil => exact ⟨[], [], fun s => by simp [run, Value.ofStrings]⟩
  | cons call calls ih =>
      rcases List.forall_mem_cons.1 h with ⟨hfirst, hrest⟩
      rcases exists_values_attempt hfirst with ⟨front, back, hattempt⟩
      rcases ih hrest with ⟨outerFront, outerBack, hrun⟩
      refine ⟨outerFront ++ front, back ++ outerBack, fun s => ?_⟩
      have hcons : s.run (call :: calls) = (s.attempt call).run calls := rfl
      rw [hcons, hrun, hattempt]
      simp [Value.ofStrings]

end Statement

/-! ## The text of the targets -/

namespace Formatter

theorem exists_intercalate (separator : List Char) (front back : List (List Char)) :
    ∃ left right : List Char, ∀ part,
      separator.intercalate (front ++ part :: back) = left ++ (part ++ right) := by
  induction front with
  | nil =>
      cases back with
      | nil => exact ⟨[], [], fun part => by simp⟩
      | cons next back =>
          exact ⟨[], separator ++ separator.intercalate (next :: back),
            fun part => by simp [List.intercalate_cons_cons]⟩
  | cons first front ih =>
      rcases ih with ⟨left, right, hrest⟩
      refine ⟨first ++ (separator ++ left), right, fun part => ?_⟩
      have hcons : separator.intercalate (first :: (front ++ part :: back)) =
          first ++ (separator ++ separator.intercalate (front ++ part :: back)) := by
        cases front <;> simp [List.intercalate_cons_cons]
      simp [hcons, hrest]

/-- One name among others stands somewhere in the text, and the rest does not depend on it. -/
theorem exists_format_target (front back : List String) :
    ∃ left right : List Char, ∀ name, ∃ text,
      target.format (Value.ofStrings (front ++ name :: back)) = .ok (some text) ∧
        text.toList = left ++ (name.toList ++ right) := by
  rcases exists_intercalate ", ".toList (front.map String.toList) (back.map String.toList) with
    ⟨left, right, hjoin⟩
  have htext : ∀ name, (", ".intercalate (front ++ name :: back)).toList =
      left ++ (name.toList ++ right) := by
    intro name
    rw [String.toList_intercalate]
    simpa using hjoin name.toList
  by_cases halone : front = [] ∧ back = []
  · rcases halone with ⟨rfl, rfl⟩
    exact ⟨left, right, fun name => ⟨_, rfl, htext name⟩⟩
  · refine ⟨'[' :: left, right ++ [']'], fun name => ?_⟩
    -- There is another name, in front or behind, so all of them stand in brackets.
    obtain ⟨first, next, others, hnames⟩ : ∃ first next others,
        front ++ name :: back = first :: next :: others := by
      cases front with
      | nil =>
          cases back with
          | nil => exact absurd ⟨rfl, rfl⟩ halone
          | cons next back => exact ⟨name, next, back, rfl⟩
      | cons first front =>
          rcases List.exists_cons_of_ne_nil (List.append_ne_nil_of_right_ne_nil front
            (List.cons_ne_nil name back)) with ⟨next, others, hothers⟩
          exact ⟨first, next, others, by rw [List.cons_append, hothers]⟩
    refine ⟨_, by rw [hnames, format_target_ofStrings], ?_⟩
    rw [← hnames, String.toList_append, String.toList_append, htext]
    simp

theorem exists_format_target_ofStrings (names : List String) :
    ∃ answer, target.format (Value.ofStrings names) = .ok answer := by
  cases names with
  | nil => exact ⟨none, rfl⟩
  | cons name names =>
      rcases exists_format_target [] names with ⟨left, right, hformat⟩
      rcases hformat name with ⟨text, htext, _⟩
      exact ⟨some text, htext⟩

end Formatter

/-! ## The length of a text -/

/-- What stands for a placeholder; a fault counts as nothing. -/
def Content.answer (c : Content) (b : Bindings) (name : String) : Option String :=
  match c.lookup b name with
  | .ok answer => answer
  | .error _ => none

namespace Template

variable {answer other : Nat → String → Option String} {segments : List Segment}

theorem length_ink_substitute_lt
    (hle : ∀ segment ∈ segments,
      (ink (segment.substituted answer)).length ≤ (ink (segment.substituted other)).length)
    (hlt : ∃ segment ∈ segments,
      (ink (segment.substituted answer)).length < (ink (segment.substituted other)).length) :
    (ink (substitute answer segments)).length < (ink (substitute other segments)).length := by
  have hsum : ∀ answer : Nat → String → Option String,
      (ink (substitute answer segments)).length =
        (segments.map fun segment => (ink (segment.substituted answer)).length).sum := by
    intro answer
    simp [ink, substitute, List.filter_flatMap, List.length_flatMap]
  rw [hsum answer, hsum other]
  exact List.sum_lt_sum _ _ hle hlt

end Template

namespace Statement

/-- A statement that has a text is its schema filled with answers. -/
theorem exists_fill_answer {k : Kind} {s : Statement k} {text : String} (h : s.raw = .ok text) :
    ∃ out, Template.fill
        (fun _ name => (.ok (s.content.answer k.bindings name) : Except QueryError (Option String)))
        false (Template.compile k.schema).segments = .ok out ∧
      text.toList = normalise out := by
  rw [raw_eq_fill, Result.map_eq_ok_iff] at h
  rcases h with ⟨out, hout, rfl⟩
  have hlookup : ∀ name slot, .placeholder name slot ∈ (Template.compile k.schema).segments →
      s.content.lookup k.bindings name = .ok (s.content.answer k.bindings name) := by
    intro name slot hmem
    rcases Template.exists_answer_of_fill hout hmem with ⟨answer, hanswer, _⟩
    rw [Content.answer, hanswer]
  rw [Template.fill_congr hlookup] at hout
  exact ⟨out, hout, String.toList_ofList⟩

theorem ink_raw {k : Kind} {s : Statement k} {text : String} (h : s.raw = .ok text) :
    ink text.toList = ink (Template.substitute (fun _ name => s.content.answer k.bindings name)
      (Template.compile k.schema).segments) := by
  rcases exists_fill_answer h with ⟨out, hout, htext⟩
  rcases Template.ink_fill (fun _ name => s.content.answer k.bindings name) false
    (Template.compile k.schema).segments with ⟨out', hout', hink⟩
  obtain rfl : out' = out := Except.ok.inj (hout'.symm.trans hout)
  rw [htext, ink_normalise, hink]

end Statement

/-! ## Runs under a configuration -/

namespace Config

variable {projections : List String} {calls : List (Call .select)}

theorem resolve_target : Kind.select.bindings.resolve "Target" = some .target := by
  decide

theorem startSelect_empty (h : projections ≠ []) :
    ({} : Config).startSelect projections = Statement.start (.select projections) := by
  rw [startSelect, projections_of_ne_nil _ h]
  rfl

/-- A default is put in by calls like any other. -/
theorem startSelect_eq_run (c : Config) (projections : List String) :
    c.startSelect projections =
      (Statement.start (.select (c.select.projections projections))).run
        (c.select.fills.map Call.fill) := by
  rw [startSelect, Statement.run, List.foldl_map]
  rfl

/-- The targets are strings, and strings can be written. -/
theorem exists_lookup_target (c : Config) (projections : List String) (calls : List (Call .select)) :
    ∃ answer, ((c.startSelect projections).run calls).content.lookup Kind.select.bindings
      "Target" = .ok answer := by
  have hstrings : ∀ v ∈ ((c.startSelect projections).run calls).content.tokens.values "Target",
      v.shape = .string := by
    rw [startSelect_eq_run, ← Statement.run_append]
    refine Statement.forall_values_run ?_ ?_ _
    · simp [Opening.writes]
    · intro f htoken v hv
      cases f with
      | target items mode => exact Value.shape_of_mem_ofStrings hv
      | _ => simp [Fill.write, Write.one] at htoken
  rcases Value.exists_ofStrings hstrings with ⟨names, hnames⟩
  rcases Formatter.exists_format_target_ofStrings names with ⟨answer, hanswer⟩
  refine ⟨answer, ?_⟩
  rw [Content.lookup_token resolve_target (by decide), hnames, hanswer]
  rfl

/-- Limit and fetch plan are overwritten, so the targets are all that two configurations can
differ in. -/
theorem agreeBut_run_startSelect (c d : Config) (hprojections : projections ≠ [])
    (hlimit : ∃ n, .fill (.limit n) ∈ calls) (hplan : ∃ plan, .fill (.fetchPlan plan) ∈ calls) :
    ((c.startSelect projections).run calls).content.AgreeBut
      (fun name => name = "Target" ∧ ∀ call ∈ calls, ¬call.Overwrites "Target")
      ((d.startSelect projections).run calls).content := by
  have hsame : c.select.projections projections = d.select.projections projections := by
    rw [projections_of_ne_nil c hprojections, projections_of_ne_nil d hprojections]
  refine (Statement.agreeBut_run (agreeBut_startSelect hsame) calls).mono ?_
  rintro name ⟨⟨rfl, _⟩ | ⟨rfl, _⟩ | ⟨rfl, _⟩, hnone⟩
  · exact ⟨rfl, hnone⟩
  · rcases hplan with ⟨plan, hmem⟩
    exact absurd ⟨rfl, rfl⟩ (hnone _ hmem)
  · rcases hlimit with ⟨n, hmem⟩
    exact absurd ⟨rfl, rfl⟩ (hnone _ hmem)

theorem exists_overwrites_target_iff :
    (∃ call ∈ calls, call.Overwrites "Target") ↔
      ∃ items, .fill (.target items .overwrite) ∈ calls := by
  constructor
  · rintro ⟨call, hmem, hover⟩
    cases call with
    | fill f =>
        cases f with
        | target items mode =>
            obtain rfl : mode = .overwrite := hover.2
            exact ⟨items, hmem⟩
        | _ => exact absurd hover.1 (by simp [Fill.write, Write.one])
    | filter _ _ => exact hover.elim
    | between _ _ _ => exact hover.elim
  · rintro ⟨items, hmem⟩
    exact ⟨_, hmem, rfl, rfl⟩

theorem lookup_run_eq {c d : Config} (hprojections : projections ≠ [])
    (hlimit : ∃ n, .fill (.limit n) ∈ calls) (hplan : ∃ plan, .fill (.fetchPlan plan) ∈ calls)
    {name : String} (hname : name ≠ "Target") :
    ((c.startSelect projections).run calls).content.lookup Kind.select.bindings name =
      ((d.startSelect projections).run calls).content.lookup Kind.select.bindings name := by
  have hagree : Content.Agree [name] _ _ :=
    (agreeBut_run_startSelect c d hprojections hlimit hplan).agree (by simp [hname])
  exact hagree.lookup_eq Kind.select.bindings (List.mem_singleton_self name)

/-- A fault is never that of the targets, so it is the same under all configurations. -/
theorem raw_run_error {c d : Config} {e : QueryError} (hprojections : projections ≠ [])
    (hlimit : ∃ n, .fill (.limit n) ∈ calls) (hplan : ∃ plan, .fill (.fetchPlan plan) ∈ calls)
    (h : ((c.startSelect projections).run calls).raw = .error e) :
    ((d.startSelect projections).run calls).raw = .error e := by
  have hlookup : ∀ name, name ≠ "Target" → _ := fun name hname =>
    lookup_run_eq (c := c) (d := d) hprojections hlimit hplan hname
  rw [Statement.raw_eq_fill, Result.map_eq_error_iff, Template.fill_eq_error_iff] at h ⊢
  refine h.of_lookup ?_ ?_
  · intro name slot _ answer hanswer
    by_cases hname : name = "Target"
    · subst hname
      exact exists_lookup_target d projections calls
    · exact ⟨answer, by rw [← hlookup name hname, hanswer]⟩
  · intro name slot _ herror
    by_cases hname : name = "Target"
    · subst hname
      rcases exists_lookup_target c projections calls with ⟨answer, hanswer⟩
      rw [hanswer] at herror
      cases herror
    · rw [← hlookup name hname, herror]

/-- A configuration with one default target. -/
def ofTarget (name : String) : Config :=
  ⟨{ target := [name] }⟩

theorem exists_answer_target (projections : List String)
    (hnone : ∀ call ∈ calls, ¬call.Overwrites "Target") :
    ∃ left right : List Char, ∀ name, ∃ text,
      (((ofTarget name).startSelect projections).run calls).content.answer Kind.select.bindings
        "Target" = some text ∧ text.toList = left ++ (name.toList ++ right) := by
  rcases Statement.exists_values_run hnone with ⟨front, back, hvalues⟩
  rcases Formatter.exists_format_target front back with ⟨left, right, hformat⟩
  refine ⟨left, right, fun name => ?_⟩
  rcases hformat name with ⟨text, htext, hchars⟩
  refine ⟨text, ?_, hchars⟩
  have hstart : ((ofTarget name).startSelect projections).content.tokens.values "Target" =
      Value.ofStrings [name] :=
    Statement.values_fill _ (.target [name] .overwrite) "Target"
  have hheld : (((ofTarget name).startSelect projections).run calls).content.tokens.values
      "Target" = Value.ofStrings (front ++ name :: back) := by
    rw [hvalues, hstart]
    simp [Value.ofStrings]
  rw [Content.answer, Content.lookup_token resolve_target (by decide), hheld, htext]
  rfl

/-- A longer default among the targets makes the text longer. -/
theorem raw_run_ne (hprojections : projections ≠ [])
    (hlimit : ∃ n, .fill (.limit n) ∈ calls) (hplan : ∃ plan, .fill (.fetchPlan plan) ∈ calls)
    (hnone : ∀ call ∈ calls, ¬call.Overwrites "Target") {text : String}
    (h : (((ofTarget "p").startSelect projections).run calls).raw = .ok text) :
    (((ofTarget "pp").startSelect projections).run calls).raw ≠ .ok text := by
  intro hlonger
  rcases exists_answer_target projections hnone with ⟨left, right, hanswer⟩
  rcases hanswer "p" with ⟨short, hshort, hshortChars⟩
  rcases hanswer "pp" with ⟨long, hlong, hlongChars⟩
  have hlt : (ink short.toList).length < (ink long.toList).length := by
    have hp : (ink "p".toList).length < (ink "pp".toList).length := by decide
    simp only [hshortChars, hlongChars, ink_append, List.length_append]
    omega
  have htarget : "Target" ∈ (Template.compile Kind.select.schema).placeholders := by
    decide +kernel
  rcases Template.exists_slot htarget with ⟨slot, hslot⟩
  have hink := (Statement.ink_raw h).symm.trans (Statement.ink_raw hlonger)
  refine absurd (congrArg List.length hink) (Nat.ne_of_lt ?_)
  refine Template.length_ink_substitute_lt ?_ ⟨_, hslot, ?_⟩
  · intro segment _
    cases segment with
    | literal text => exact Nat.le_refl _
    | placeholder name slot =>
        by_cases hname : name = "Target"
        · subst hname
          simpa [Segment.substituted, hshort, hlong] using hlt.le
        · have hsame := lookup_run_eq (c := ofTarget "p") (d := ofTarget "pp") hprojections
            hlimit hplan hname
          simp [Segment.substituted, Content.answer, hsame]
  · simpa [Segment.substituted, hshort, hlong] using hlt

/-- Once limit and fetch plan are set, what is left of the configuration is the default target: it
stays among the targets until a call overwrites them. -/
theorem raw_run_eq_iff_overwritten (hprojections : projections ≠ [])
    (hlimit : ∃ n, .fill (.limit n) ∈ calls) (hplan : ∃ plan, .fill (.fetchPlan plan) ∈ calls) :
    (∀ c d : Config, ((c.startSelect projections).run calls).raw =
        ((d.startSelect projections).run calls).raw) ↔
      (∃ items, .fill (.target items .overwrite) ∈ calls) ∨
        ∃ e, ((Statement.start (.select projections)).run calls).raw = .error e := by
  rw [← startSelect_empty hprojections]
  constructor
  · intro h
    by_contra hneither
    rcases not_or.1 hneither with ⟨hitems, herror⟩
    have hnone : ∀ call ∈ calls, ¬call.Overwrites "Target" := by
      intro call hmem hover
      exact hitems (exists_overwrites_target_iff.1 ⟨call, hmem, hover⟩)
    cases hraw : (((ofTarget "p").startSelect projections).run calls).raw with
    | error e => exact herror ⟨e, raw_run_error hprojections hlimit hplan hraw⟩
    | ok text =>
        refine raw_run_ne hprojections hlimit hplan hnone hraw ?_
        rw [h _ (ofTarget "p"), hraw]
  · rintro (hitems | ⟨e, herror⟩) c d
    · refine raw_run_eq ?_ ?_
      · rw [projections_of_ne_nil c hprojections, projections_of_ne_nil d hprojections]
      · rintro token (⟨rfl, _⟩ | ⟨rfl, _⟩ | ⟨rfl, _⟩)
        · exact exists_overwrites_target_iff.2 hitems
        · rcases hplan with ⟨plan, hmem⟩
          exact ⟨_, hmem, rfl, rfl⟩
        · rcases hlimit with ⟨n, hmem⟩
          exact ⟨_, hmem, rfl, rfl⟩
    · rw [raw_run_error hprojections hlimit hplan herror (d := c),
        raw_run_error hprojections hlimit hplan herror]

def configured : Config :=
  ⟨⟨["Person"], ["name"], some "*:1", some 20⟩⟩

/-- The targets are extended, then overwritten, then extended again. -/
def overwrittenTarget : List (Call .select) :=
  [.fill (.target ["X"] .append), .fill (.limit 3), .filter rfl (.whereValue "a > ?" (.int 2)),
    .fill (.target ["A"] .overwrite), .fill (.fetchPlan "*:2"), .fill (.target ["B"] .append)]

theorem raw_run_eq_overwrittenTarget :
    ((configured.startSelect ["a"]).run overwrittenTarget).raw =
        ((({} : Config).startSelect ["a"]).run overwrittenTarget).raw ∧
      ((configured.startSelect ["a"]).run overwrittenTarget).raw =
        .ok "SELECT a FROM [A, B] WHERE a > 2 LIMIT 3 FETCHPLAN *:2" := by
  have hlimit : ∃ n, .fill (.limit n) ∈ overwrittenTarget := ⟨3, by simp [overwrittenTarget]⟩
  have hplan : ∃ plan, .fill (.fetchPlan plan) ∈ overwrittenTarget :=
    ⟨"*:2", by simp [overwrittenTarget]⟩
  have hitems : ∃ items, .fill (.target items .overwrite) ∈ overwrittenTarget :=
    ⟨["A"], by simp [overwrittenTarget]⟩
  exact ⟨(raw_run_eq_iff_overwritten (by simp) hlimit hplan).2 (Or.inl hitems) configured {},
    by decide +kernel⟩

def extendedTarget : List (Call .select) :=
  [.fill (.target ["X"] (.ofAppend true)), .fill (.limit 1), .fill (.fetchPlan "p")]

/-- A call that extends the targets keeps the default one. -/
theorem not_raw_run_eq :
    ¬∀ (c d : Config) (projections : List String) (calls : List (Call .select)),
      projections ≠ [] →
        (∃ items append, .fill (.target items (.ofAppend append)) ∈ calls) →
          (∃ n, .fill (.limit n) ∈ calls) → (∃ plan, .fill (.fetchPlan plan) ∈ calls) →
            ((c.startSelect projections).run calls).raw =
              ((d.startSelect projections).run calls).raw := by
  intro h
  have hdefault : (((ofTarget "Person").startSelect ["a"]).run extendedTarget).raw =
      .ok "SELECT a FROM [Person, X] LIMIT 1 FETCHPLAN p" := by
    decide +kernel
  have hplain : ((({} : Config).startSelect ["a"]).run extendedTarget).raw =
      .ok "SELECT a FROM X LIMIT 1 FETCHPLAN p" := by
    decide +kernel
  have hsame := h (ofTarget "Person") {} ["a"] extendedTarget (by simp)
    ⟨["X"], true, by simp [extendedTarget]⟩ ⟨1, by simp [extendedTarget]⟩
    ⟨"p", by simp [extendedTarget]⟩
  rw [hdefault, hplain] at hsame
  exact absurd hsame (by decide)

end Config
end GraphSql
