import GraphSql.Proofs.Command.Independence
import GraphSql.Proofs.Statement.Writing

/-!
# Overwriting — where the difference between two statements ends

Two statements may hold different values for some tokens.  The same calls on both leave them alike in
all else, and a token that one of the calls overwrites is alike from there on:

* `Write.Overwrites`, `Call.Overwrites` — the write drops what the token held before;
* `Content.AgreeBut` — contents that are alike but for some tokens;
* `apply_withTokens`, `tokens_attempt` — a call that fills nothing neither reads nor writes a token;
* `agreeBut_attempt`, `agreeBut_run` — one call, and any calls;
* `raw_eq_of_agreeBut` — without a difference left, the texts are the same.
-/

namespace GraphSql

/-! ## Overwriting -/

def Write.Overwrites (w : Write) (name : String) : Prop :=
  w.token = name ∧ w.mode = .overwrite

def Call.Overwrites {k : Kind} (name : String) : Call k → Prop
  | .fill f => f.write.Overwrites name
  | .filter _ _ => False
  | .between _ _ _ => False

/-! ## Contents -/

namespace Content

/-- The contents have the same filter, and the same slots but for the names that are open. -/
structure AgreeBut (isOpen : String → Prop) (c d : Content) : Prop where
  slot : ∀ name, ¬isOpen name → c.tokens.slot name = d.tokens.slot name
  filter : c.filter = d.filter

namespace AgreeBut

variable {isOpen : String → Prop} {c d : Content}

theorem refl (isOpen : String → Prop) (c : Content) : AgreeBut isOpen c c :=
  ⟨fun _ _ => rfl, rfl⟩

theorem mono {wider : String → Prop} (hwider : ∀ name, isOpen name → wider name)
    (h : AgreeBut isOpen c d) : AgreeBut wider c d where
  slot name hname := h.slot name fun hopen => hname (hwider name hopen)
  filter := h.filter

theorem agree {names : List String} (h : AgreeBut isOpen c d)
    (hnames : ∀ name ∈ names, ¬isOpen name) : Agree names c d where
  slot name hname _ := h.slot name (hnames name hname)
  filter _ := h.filter

/-- An overwriting write does not look at what the token held, so it closes the token. -/
theorem put (h : AgreeBut isOpen c d) (w : Write) :
    AgreeBut (fun name => isOpen name ∧ ¬w.Overwrites name) (c.put w) (d.put w) where
  slot name hname := by
    have hput : ∀ content : Content, (content.put w).tokens.slot name =
        if name = w.token then (content.tokens.slot w.token).write w.values w.mode
        else content.tokens.slot name :=
      fun content => Tokens.slot_write content.tokens w.token name w.values w.mode
    rw [hput, hput]
    by_cases htoken : name = w.token
    · rw [if_pos htoken, if_pos htoken, ← htoken]
      by_cases hopen : isOpen name
      · have hmode : w.mode = .overwrite := by
          by_contra hmode
          exact hname ⟨hopen, fun hover => hmode hover.2⟩
        simp [Slot.write, hmode, WriteMode.combine]
      · rw [h.slot name hopen]
    · rw [if_neg htoken, if_neg htoken]
      refine h.slot name fun hopen => hname ⟨hopen, ?_⟩
      rintro ⟨hover, _⟩
      exact htoken hover.symm
  filter := h.filter

end AgreeBut
end Content

/-! ## Calls that fill nothing -/

def Content.withTokens (c : Content) (tokens : Tokens) : Content :=
  { c with tokens := tokens }

theorem FilterCall.apply_withTokens (call : FilterCall) (c : Content) (tokens : Tokens) :
    call.apply (c.withTokens tokens) =
      (call.apply c).map fun c' => c'.withTokens tokens := by
  have hopen : ∀ clause, (c.withTokens tokens).openWith clause =
      (c.openWith clause).map fun c' => c'.withTokens tokens := by
    intro clause
    rw [Content.openWith, Content.openWith]
    cases hfilter : c.filter.openWith clause <;>
      simp [Content.withTokens, hfilter, bind, Except.bind, pure, Except.pure, Except.map]
  cases call with
  | whereValue condition value =>
      rw [apply, apply]
      cases Clause.make .none condition (some value) with
      | error e => rfl
      | ok clause => exact hopen clause
  | andValue condition value =>
      rw [apply, apply]
      cases Clause.make .and condition (some value) <;> rfl
  | orValue condition value =>
      rw [apply, apply]
      cases Clause.make .or condition (some value) <;> rfl
  | bare connector condition =>
      rw [apply, apply]
      cases Clause.make connector condition none with
      | error e => rfl
      | ok clause =>
          by_cases hnone : connector = .none
          · simpa [bind, Except.bind, hnone] using hopen clause
          · simp [bind, Except.bind, hnone, pure, Except.pure, Except.map, Content.withTokens,
              Content.push]
  | reset => rfl

theorem Call.apply_withTokens {k : Kind} {call : Call k} (hcall : ∀ f, call ≠ .fill f)
    (c : Content) (tokens : Tokens) :
    call.apply (c.withTokens tokens) = (call.apply c).map fun c' => c'.withTokens tokens := by
  cases call with
  | fill f => exact absurd rfl (hcall f)
  | filter _ f => exact FilterCall.apply_withTokens f c tokens
  | between key left right =>
      rw [apply, apply]
      cases rangeClause key left right <;> rfl

/-! ## Statements -/

namespace Statement

variable {k : Kind} {isOpen : String → Prop} {s t : Statement k}

/-- A call that fills nothing keeps the tokens, and it would do the same with any others. -/
theorem attempt_withTokens {call : Call k} (hcall : ∀ f, call ≠ .fill f) (s : Statement k)
    (tokens : Tokens) :
    (attempt ⟨s.content.withTokens tokens⟩ call).content =
      (s.attempt call).content.withTokens tokens := by
  rw [attempt, attempt, Statement.call, Statement.call, Call.apply_withTokens hcall]
  cases call.apply s.content <;> rfl

theorem tokens_attempt {call : Call k} (hcall : ∀ f, call ≠ .fill f) (s : Statement k) :
    (s.attempt call).content.tokens = s.content.tokens := by
  have hkept : (s.attempt call).content = (s.attempt call).content.withTokens s.content.tokens :=
    attempt_withTokens hcall s s.content.tokens
  rw [hkept]
  rfl

theorem agreeBut_attempt (h : s.content.AgreeBut isOpen t.content) (call : Call k) :
    (s.attempt call).content.AgreeBut (fun name => isOpen name ∧ ¬call.Overwrites name)
      (t.attempt call).content := by
  by_cases hfill : ∃ f, call = .fill f
  · rcases hfill with ⟨f, rfl⟩
    exact h.put f.write
  · have hcall : ∀ f, call ≠ .fill f := fun f hf => hfill ⟨f, hf⟩
    -- Both statements have the same filter, so the call does the same to both.
    have ht : (t.attempt call).content =
        (s.attempt call).content.withTokens t.content.tokens := by
      have hcontent : t.content = s.content.withTokens t.content.tokens := by
        rw [Content.withTokens, h.filter]
      rw [← attempt_withTokens hcall s t.content.tokens, ← hcontent]
    have hcloses : ∀ name, ¬call.Overwrites name := by
      intro name
      cases call with
      | fill f => exact absurd rfl (hcall f)
      | filter _ _ => exact id
      | between _ _ _ => exact id
    rw [ht]
    refine ⟨fun name hname => ?_, rfl⟩
    rw [tokens_attempt hcall]
    exact h.slot name fun hopen => hname ⟨hopen, hcloses name⟩

theorem agreeBut_run (h : s.content.AgreeBut isOpen t.content) (calls : List (Call k)) :
    (s.run calls).content.AgreeBut
      (fun name => isOpen name ∧ ∀ call ∈ calls, ¬call.Overwrites name) (t.run calls).content := by
  induction calls generalizing s t isOpen with
  | nil => exact h.mono fun name hopen => ⟨hopen, by simp⟩
  | cons call calls ih =>
      refine (ih (agreeBut_attempt h call)).mono ?_
      rintro name ⟨⟨hopen, hfirst⟩, hrest⟩
      exact ⟨hopen, List.forall_mem_cons.2 ⟨hfirst, hrest⟩⟩

theorem raw_eq_of_agreeBut (h : s.content.AgreeBut isOpen t.content)
    (hclosed : ∀ name, ¬isOpen name) : s.raw = t.raw :=
  (h.agree fun name _ => hclosed name).render_eq k.bindings

end Statement
end GraphSql
