import GraphSql.Proofs.Formatter.Counting
import GraphSql.Proofs.Statement.Configured
import GraphSql.Proofs.Template.Spaced

/-!
# Limiting — the counts of a statement reach its text as they were given

A statement that is limited, or that skips records, is written from words with one space between two
of them, and the count is one of the words:

* `StandsIn`, `standsIn_normalise` — a phrase with a space in front and a space or the end behind;
* `raw_eq_shown` — the text of a statement whose schema is made of words;
* `standsIn_raw` — the answer for a placeholder stands in such a text;
* `Call.count?`, `lastCount?` — the count that a call brings, and the last one that calls bring;
* `values_counter_attempt`, `values_counter_run` — what one call and any calls do to the token;
* `counts_arrive` — which values are counts, how they are written, and that the last count of a run
  stands in the text.
-/

namespace GraphSql

open Text

/-! ## Phrases -/

namespace Text

/-- The phrase is in the text, with a space in front and with a space or the end behind. -/
def StandsIn (phrase text : List Char) : Prop :=
  ∃ before after, text = before ++ ' ' :: (phrase ++ after) ∧
    ∀ c, after.head? = some c → c = ' '

/-- Normalising keeps the spaces around a phrase, and the phrase if it has no run of spaces. -/
theorem standsIn_normalise {phrase before after : List Char} (hphrase : Framed phrase)
    (hspaces : ¬TwoSpaces phrase) (hbefore : ∃ c, before.head? = some c ∧ isBlank c = false)
    (hafter : ∀ c, after.head? = some c → c = ' ') :
    StandsIn phrase (normalise (before ++ ' ' :: (phrase ++ after))) := by
  have hstart : trimStart (before ++ [' ']) = before ++ [' '] := by
    rcases hbefore with ⟨c, hhead, hc⟩
    rcases List.head?_eq_some_iff.1 hhead with ⟨cs, rfl⟩
    exact trimStart_cons_kept (by simp [hc])
  have hlast : (collapse (before ++ [' '])).getLast? = some ' ' := by
    rw [getLast?_collapse]
    simp
  rcases List.getLast?_eq_some_iff.1 hlast with ⟨front, hfront⟩
  refine ⟨front, collapse (trimEnd after), ?_, ?_⟩
  · calc
      normalise (before ++ ' ' :: (phrase ++ after)) =
          collapse (trim ((before ++ [' ']) ++ (phrase ++ after))) := by
        rw [List.append_assoc, List.singleton_append, normalise]
      _ = collapse ((before ++ [' ']) ++ (phrase ++ trimEnd after)) := by
        rw [trim_framed hphrase, hstart]
      _ = (front ++ [' ']) ++ (phrase ++ collapse (trimEnd after)) := by
        rw [collapse_framed hphrase, hfront, collapse_eq_self_iff.2 hspaces]
      _ = front ++ ' ' :: (phrase ++ collapse (trimEnd after)) := by
        rw [List.append_assoc, List.singleton_append]
  · intro c hc
    rw [head?_collapse] at hc
    exact hafter c (head?_trimEnd hc)

/-- A part behind the first one of a join has a space in front, and one behind unless it ends it. -/
theorem exists_intercalate_space (first part : List Char) (front back : List (List Char)) :
    ∃ before after, [' '].intercalate (first :: (front ++ part :: back)) =
        (first ++ before) ++ ' ' :: (part ++ after) ∧ ∀ c, after.head? = some c → c = ' ' := by
  induction front generalizing first with
  | nil =>
      cases back with
      | nil => exact ⟨[], [], by simp [List.intercalate_cons_cons], by simp⟩
      | cons next back =>
          refine ⟨[], ' ' :: [' '].intercalate (next :: back), ?_, by simp [eq_comm]⟩
          simp [List.intercalate_cons_cons]
  | cons second front ih =>
      rcases ih second with ⟨before, after, hrest, hafter⟩
      refine ⟨' ' :: (second ++ before), after, ?_, hafter⟩
      rw [List.cons_append, List.intercalate_cons_cons, hrest]
      simp

end Text

/-! ## Schemas of words -/

namespace Template

theorem mem_shown {answer : Nat → String → Option String} {words : List Word}
    {name text : String} (hname : .hole name ∈ words)
    (hanswer : ∀ slot, answer slot name = some text) (slot : Nat) :
    text.toList ∈ shown answer slot words := by
  induction words generalizing slot with
  | nil => simp at hname
  | cons w words ih =>
      rw [shown, List.mem_append]
      rcases List.mem_cons.1 hname with heq | hrest
      · left
        simp [← heq, Word.shown?, hanswer]
      · right
        exact ih hrest (w.nextSlot slot)

end Template

namespace Statement

variable {k : Kind}

theorem raw_eq_shown {s : Statement k} {text : String} (h : s.raw = .ok text)
    (hwords : ∀ w ∈ Template.wordsOf k.schema, w.WellFormed) :
    text.toList = normalise ([' '].intercalate
      (Template.shown (fun _ name => s.content.answer k.bindings name) 0
        (Template.wordsOf k.schema))) := by
  rcases exists_fill_answer h with ⟨out, hout, htext⟩
  rcases Template.fill_layout (ε := QueryError) (fun _ _ => rfl) hwords 0 with
    ⟨blanks, hfill, hblanks⟩
  rw [← Template.segments_spaced hwords, Template.spaced_wordsOf] at hfill
  obtain rfl := Except.ok.inj (hfill.symm.trans hout)
  rw [htext]
  rcases hblanks with rfl | ⟨rfl, _⟩
  · rw [List.append_nil]
  · exact normalise_append_blank (by decide)

/-- Behind the first word of the schema, the answer for a placeholder stands in the text. -/
theorem standsIn_raw {s : Statement k} {text name phrase first : String}
    {words : List Template.Word} (h : s.raw = .ok text)
    (hschema : Template.wordsOf k.schema = .fixed first :: words)
    (hwords : ∀ w ∈ Template.wordsOf k.schema, w.WellFormed) (hname : .hole name ∈ words)
    (hanswer : s.content.answer k.bindings name = some phrase)
    (hphrase : Framed phrase.toList) (hspaces : ¬TwoSpaces phrase.toList) :
    StandsIn phrase.toList text.toList := by
  have hmem := Template.mem_shown hname (fun _ => hanswer) 0
  rcases List.append_of_mem hmem with ⟨front, back, hshown⟩
  rcases exists_intercalate_space first.toList phrase.toList front back with
    ⟨before, after, hjoin, hafter⟩
  have htext : text.toList =
      normalise ((first.toList ++ before) ++ ' ' :: (phrase.toList ++ after)) := by
    rw [raw_eq_shown h hwords, hschema, ← hjoin, ← hshown]
    rfl
  have hfixed : Template.Word.WellFormed (.fixed first) := hwords _ (by simp [hschema])
  have hfirst : ∃ c, (first.toList ++ before).head? = some c ∧ isBlank c = false := by
    have hne : first.toList ≠ [] := by simpa using hfixed.1
    rcases List.exists_cons_of_ne_nil hne with ⟨c, cs, hcons⟩
    exact ⟨c, by simp [hcons], hfixed.2.1 c (by simp [hcons])⟩
  rw [htext]
  exact standsIn_normalise hphrase hspaces hfirst hafter

end Statement

/-! ## Counts of calls -/

def Fill.count? {k : Kind} : Counter → Fill k → Option UInt64
  | .limit, .limit records => some records
  | .limit, .limitVertices records => some records
  | .skip, .skip records => some records
  | _, _ => none

def Call.count? {k : Kind} (counter : Counter) : Call k → Option UInt64
  | .fill f => f.count? counter
  | .filter _ _ => none
  | .between _ _ _ => none

/-- The count of the last call that brings one. -/
def lastCount? {k : Kind} (counter : Counter) (calls : List (Call k)) : Option UInt64 :=
  (calls.filterMap (Call.count? counter)).getLast?

theorem lastCount?_cons {k : Kind} (counter : Counter) (call : Call k) (calls : List (Call k)) :
    lastCount? counter (call :: calls) = (lastCount? counter calls).or (call.count? counter) := by
  rw [lastCount?, lastCount?, List.filterMap_cons]
  cases call.count? counter with
  | none => simp
  | some u => cases hlast : (calls.filterMap (Call.count? counter)).getLast? <;>
      simp [List.getLast?_cons, hlast]

/-- Only a `SELECT` and a removal of vertices bring counts, and their schemas are made of words. -/
theorem Fill.exists_words_of_count {k : Kind} {f : Fill k} {counter : Counter} {u : UInt64}
    (h : f.count? counter = some u) :
    ∃ first words, Template.wordsOf k.schema = .fixed first :: words ∧
      (∀ w ∈ Template.wordsOf k.schema, w.WellFormed) ∧ .hole counter.token ∈ words := by
  -- The call says of which kind the statement is, and so which schema it has.
  cases f with
  | limit records =>
      cases counter with
      | limit => exact ⟨"SELECT", _, rfl, by decide +kernel, by decide +kernel⟩
      | skip => simp [Fill.count?] at h
  | skip records =>
      cases counter with
      | limit => simp [Fill.count?] at h
      | skip => exact ⟨"SELECT", _, rfl, by decide +kernel, by decide +kernel⟩
  | limitVertices records =>
      cases counter with
      | limit => exact ⟨"DELETE", _, rfl, by decide +kernel, by decide +kernel⟩
      | skip => simp [Fill.count?] at h
  | _ => simp [Fill.count?] at h

theorem exists_words_of_lastCount {k : Kind} {calls : List (Call k)} {counter : Counter}
    {u : UInt64} (h : lastCount? counter calls = some u) :
    ∃ first words, Template.wordsOf k.schema = .fixed first :: words ∧
      (∀ w ∈ Template.wordsOf k.schema, w.WellFormed) ∧ .hole counter.token ∈ words := by
  rcases List.mem_filterMap.1 (List.mem_of_getLast? h) with ⟨call, _, hcount⟩
  cases call with
  | fill f => exact Fill.exists_words_of_count hcount
  | filter _ _ => simp [Call.count?] at hcount
  | between _ _ _ => simp [Call.count?] at hcount

theorem Kind.resolve_counter (k : Kind) (counter : Counter) :
    k.bindings.resolve counter.token = some counter.formatter := by
  cases k with
  | truncate scope => cases scope <;> cases counter <;> decide +kernel
  | _ => cases counter <;> decide +kernel

/-! ## The token of a counter -/

namespace Statement

variable {k : Kind}

theorem values_counter_fill (s : Statement k) (f : Fill k) (counter : Counter) :
    (s.fill f).content.tokens.values counter.token =
      (f.count? counter).elim (s.content.tokens.values counter.token) fun u => [.uint u] := by
  rw [values_fill]
  -- A call that brings no count writes tokens of other names, or none.
  cases f <;> cases counter <;>
    simp [Fill.write, Write.one, WriteMode.combine, Fill.count?, Counter.token]

theorem values_counter_attempt (s : Statement k) (call : Call k) (counter : Counter) :
    (s.attempt call).content.tokens.values counter.token =
      (call.count? counter).elim (s.content.tokens.values counter.token) fun u => [.uint u] := by
  cases call with
  | fill f => exact values_counter_fill s f counter
  | filter hfilterable f =>
      rw [Tokens.values, tokens_attempt (by simp)]
      rfl
  | between key left right =>
      rw [Tokens.values, tokens_attempt (by simp)]
      rfl

theorem values_counter_run (s : Statement k) (calls : List (Call k)) (counter : Counter) :
    (s.run calls).content.tokens.values counter.token =
      (lastCount? counter calls).elim (s.content.tokens.values counter.token)
        fun u => [.uint u] := by
  induction calls generalizing s with
  | nil => rfl
  | cons call calls ih =>
      have hrun : s.run (call :: calls) = (s.attempt call).run calls := rfl
      -- A later count hides the one that this call brings.
      rw [hrun, ih, values_counter_attempt, lastCount?_cons]
      cases lastCount? counter calls <;> rfl

theorem answer_counter_run (s : Statement k) {calls : List (Call k)} {counter : Counter}
    {u : UInt64} (h : lastCount? counter calls = some u) :
    (s.run calls).content.answer k.bindings counter.token =
      some (counter.phrase (Decimal.digits u.toNat)) := by
  have hname : counter.token ≠ whereToken := by
    cases counter <;> decide
  have hvalues : (s.run calls).content.tokens.values counter.token = [.uint u] := by
    rw [values_counter_run, h]
    rfl
  have hcount : (Value.uint u).count = .ok u := rfl
  rw [Content.answer, Content.lookup_token (k.resolve_counter counter) hname, hvalues,
    Counter.format_eq_map, hcount]
  rfl

/-- A count is written as its keyword and its digits, whatever it is given as, and any other value
is refused.  The last count that the calls on a statement bring stands in its text. -/
theorem counts_arrive (c : Counter) (v : Value) (vs : List Value) :
    (∀ answer, c.formatter.format (v :: vs) = .ok answer ↔
      ∃ n ds, v.Counts n ∧ Decimal.Canonical n ds ∧ answer = some (c.phrase ds)) ∧
    (∀ e, c.formatter.format (v :: vs) = .error e ↔
      e = .wantsCount v.shape ∧ ∀ n, ¬v.Counts n) ∧
    ∀ {k : Kind} (s : Statement k) (calls : List (Call k)) (u : UInt64) (text : String),
      lastCount? c calls = some u → (s.run calls).raw = .ok text →
        ∃ ds, Decimal.Canonical u.toNat ds ∧ StandsIn (c.phrase ds).toList text.toList := by
  refine ⟨fun answer => c.format_counter_ok_iff, fun e => c.format_counter_error_iff, ?_⟩
  intro k s calls u text hlast hraw
  refine ⟨Decimal.digits u.toNat, Decimal.canonical_digits u.toNat, ?_⟩
  rcases exists_words_of_lastCount hlast with ⟨first, words, hschema, hwords, hname⟩
  rcases c.framed_phrase u.toNat with ⟨hframed, hspaces⟩
  exact standsIn_raw hraw hschema hwords hname (answer_counter_run s hlast) hframed hspaces

/-- The first limit is overwritten, and both counts are beyond the signed integers. -/
def limitedTwice : List (Call .select) :=
  [.fill (.limit 5), .fill (.skip 18446744073709551615), .fill (.limit 9223372036854775808)]

theorem counts_arrive_limitedTwice :
    ((start (.select ["a"])).run limitedTwice).raw =
        .ok "SELECT a FROM SKIP 18446744073709551615 LIMIT 9223372036854775808" ∧
      StandsIn "LIMIT 9223372036854775808".toList
        "SELECT a FROM SKIP 18446744073709551615 LIMIT 9223372036854775808".toList ∧
      Formatter.limit.format [.string " +007\t"] = .ok (some "LIMIT 7") ∧
      Formatter.skip.format [.int (-1), .uint 1] = .error (.wantsCount .integer) := by
  have hraw : ((start (.select ["a"])).run limitedTwice).raw =
      .ok "SELECT a FROM SKIP 18446744073709551615 LIMIT 9223372036854775808" := by
    decide +kernel
  have hseven : (Value.string " +007\t").Counts 7 := by
    have hdigits : Decimal.DenotesCount ['+', '0', '0', '7'] 7 :=
      .plus (by simp) (by simp)
    exact .string hdigits (by omega)
  have hminus : ∀ n, ¬(Value.int (-1)).Counts n := by
    rintro n (_ | hn)
    have hvalue : (-1 : Int64).toInt = -1 := by decide
    omega
  rcases counts_arrive .limit (.string " +007\t") [] with ⟨hseven_ok, -, hstands⟩
  rcases counts_arrive .skip (.int (-1)) [.uint 1] with ⟨-, hminus_error, -⟩
  refine ⟨hraw, ?_, (hseven_ok _).2 ⟨7, ['7'], hseven, Decimal.canonical_digits 7, rfl⟩,
    (hminus_error _).2 ⟨rfl, hminus⟩⟩
  rcases hstands (start (.select ["a"])) limitedTwice _ _ rfl hraw with ⟨ds, hds, hlimit⟩
  rwa [Decimal.canonical_iff.1 hds] at hlimit

end Statement
end GraphSql
