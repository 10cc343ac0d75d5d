import GraphSql.Proofs.Formatter.Joining
import GraphSql.Proofs.Number.Signed
import GraphSql.Proofs.Value.Spelling

/-!
# Legible — literals that can stand for one value only

A date-time is quoted like a string and an unsigned integer is written like a signed one, but the
literals of all other scalars tell what they are by their first character, and where they end:

* `Legible` — null, booleans, signed integers, strings, record ids, and lists of these;
* `lead?` — the kind of value that a literal with this first character stands for;
* `SelfDelimiting` — in front of what may follow a literal, value and end of the literal are fixed;
* `items_append_inj` — then the same holds of values with separators between them;
* `selfDelimiting_of_legible` — legible values are self-delimiting, so that
* `format_quoted_inj` — no two lists of them are written alike.
-/

namespace GraphSql
namespace Value

open Text

inductive Legible : Value → Prop
  | null : Legible .null
  | bool (b : Bool) : Legible (.bool b)
  | int (n : Int64) : Legible (.int n)
  | string (s : String) : Legible (.string s)
  | recordId (r : RecordId) : Legible (.recordId r)
  | list {items : List Value} : (∀ v ∈ items, Legible v) → Legible (.list items)

theorem Legible.not_holdsPair {v : Value} (h : v.Legible) : ¬v.HoldsPair := by
  induction h with
  | list _ ih =>
      intro hpair
      cases hpair with
      | item hmem hholds => exact ih _ hmem hholds
  | _ =>
      intro hpair
      cases hpair

theorem Legible.exists_literal {v : Value} (h : v.Legible) : ∃ text, v.literal = .ok text := by
  cases hliteral : v.literal with
  | ok text => exact ⟨text, rfl⟩
  | error e => exact absurd (literal_eq_error_iff.1 hliteral).2 h.not_holdsPair

/-! ## First characters -/

def lead? (c : Char) : Option Shape :=
  if c = 'N' then some .null
  else if c = 't' ∨ c = 'f' then some .boolean
  else if c = '-' ∨ c.isDigit = true then some .integer
  else if c = '\'' then some .string
  else if c = '#' then some .recordId
  else if c = '[' then some .list
  else none

theorem lead?_signed {c : Char} (h : c = '-' ∨ c.isDigit = true) : lead? c = some .integer := by
  have hnull : c ≠ 'N' := by
    rintro rfl
    revert h
    decide
  have hbool : ¬(c = 't' ∨ c = 'f') := by
    rintro (rfl | rfl)
    · revert h
      decide
    · revert h
      decide
  rw [lead?, if_neg hnull, if_neg hbool, if_pos h]

theorem exists_lead {v : Value} {text : String} (hv : v.Legible) (h : v.literal = .ok text) :
    ∃ c cs, text.toList = c :: cs ∧ lead? c = some v.shape := by
  cases hv with
  | null =>
      obtain rfl := Except.ok.inj h
      exact ⟨'N', "ULL".toList, by decide, rfl⟩
  | bool b =>
      cases b with
      | false =>
          obtain rfl := Except.ok.inj h
          exact ⟨'f', "alse".toList, by decide, rfl⟩
      | true =>
          obtain rfl := Except.ok.inj h
          exact ⟨'t', "rue".toList, by decide, rfl⟩
  | int n =>
      obtain rfl := Except.ok.inj h
      rcases List.exists_cons_of_ne_nil (Decimal.signed_ne_nil n.toInt) with ⟨c, cs, hsigned⟩
      refine ⟨c, cs, String.toList_ofList.trans hsigned, lead?_signed ?_⟩
      exact Decimal.mem_signed (n := n.toInt) (by simp [hsigned])
  | string s =>
      rw [literal] at h
      obtain rfl := Except.ok.inj h
      exact ⟨'\'', _, toList_quote s, rfl⟩
  | recordId r =>
      obtain rfl := Except.ok.inj h
      exact ⟨'#', _, String.toList_ofList, rfl⟩
  | list _ =>
      rw [literal_list, Result.map_eq_ok_iff] at h
      rcases h with ⟨texts, _, rfl⟩
      exact ⟨'[', _, toList_brackets texts, rfl⟩

/-! ## One value -/

/-- The text is over, or what follows is the next value or the end of the list. -/
def Ends (rest : List Char) : Prop :=
  ∀ c, rest.head? = some c → c = ',' ∨ c = ']'

theorem Ends.not_digit {rest : List Char} (h : Ends rest) :
    ∀ c, rest.head? = some c → c.isDigit = false := by
  intro c hc
  rcases h c hc with rfl | rfl <;> decide

/-- Only the value itself is written as its literal, whatever follows. -/
def SelfDelimiting (v : Value) : Prop :=
  ∀ (w : Value) (text other : String) (rest rest' : List Char), w.Legible →
    v.literal = .ok text → w.literal = .ok other → Ends rest → Ends rest' →
    text.toList ++ rest = other.toList ++ rest' → v = w ∧ rest = rest'

/-! ## Several values -/

/-- The texts behind the first one, each with the separator in front. -/
def tails (separator : List Char) (texts : List String) : List Char :=
  texts.flatMap fun text => separator ++ text.toList

theorem intercalate_cons (separator : List Char) (text : String) (texts : List String) :
    separator.intercalate ((text :: texts).map String.toList) =
      text.toList ++ tails separator texts := by
  induction texts generalizing text with
  | nil => simp [tails]
  | cons next texts ih =>
      have hrest := ih next
      rw [List.map_cons] at hrest
      rw [List.map_cons, List.map_cons, List.intercalate_cons_cons, hrest]
      simp [tails]

section Items

variable {gap : List Char} {items others : List Value} {texts writtens : List String}
  {rest rest' : List Char}

/-- The text is over, or the list is. -/
def EndsList (rest : List Char) : Prop :=
  ∀ c, rest.head? = some c → c = ']'

theorem EndsList.ends_tails (h : EndsList rest) (gap : List Char) (texts : List String) :
    Ends (tails (',' :: gap) texts ++ rest) := by
  intro c hc
  cases texts with
  | nil => exact Or.inr (h c hc)
  | cons text texts =>
      left
      simpa [tails, eq_comm] using hc

theorem EndsList.tails_ne (h : EndsList rest) (text : String) (texts : List String)
    (gap : List Char) : rest ≠ tails (',' :: gap) (text :: texts) ++ rest' := by
  rintro rfl
  have hcomma := h ',' (by simp [tails])
  exact absurd hcomma (by decide)

theorem tails_append_inj (hitems : ∀ v ∈ items, v.SelfDelimiting)
    (hothers : ∀ w ∈ others, w.Legible)
    (htexts : List.Forall₂ (fun v text => v.literal = .ok text) items texts)
    (hwrittens : List.Forall₂ (fun w text => w.literal = .ok text) others writtens)
    (hrest : EndsList rest) (hrest' : EndsList rest')
    (h : tails (',' :: gap) texts ++ rest = tails (',' :: gap) writtens ++ rest') :
    items = others ∧ rest = rest' := by
  induction htexts generalizing others writtens with
  | nil =>
      cases hwrittens with
      | nil => exact ⟨rfl, h⟩
      | cons _ _ => exact absurd h (hrest.tails_ne _ _ gap)
  | @cons v text items texts htext _ ih =>
      cases hwrittens with
      | nil => exact absurd h.symm (hrest'.tails_ne _ _ gap)
      | @cons w other others writtens hother hwrittens =>
          rcases List.forall_mem_cons.1 hitems with ⟨hv, hvs⟩
          rcases List.forall_mem_cons.1 hothers with ⟨hw, hws⟩
          have hfront : text.toList ++ (tails (',' :: gap) texts ++ rest) =
              other.toList ++ (tails (',' :: gap) writtens ++ rest') := by
            simpa [tails] using h
          rcases hv w text other _ _ hw htext hother (hrest.ends_tails gap texts)
            (hrest'.ends_tails gap writtens) hfront with ⟨rfl, htails⟩
          rcases ih hvs hws hwrittens htails with ⟨rfl, hsame⟩
          exact ⟨rfl, hsame⟩

/-- No literal starts like the end of a list, so an empty list is not like one with items. -/
theorem EndsList.literal_ne (h : EndsList rest) {v : Value} {text : String} (hv : v.Legible)
    (htext : v.literal = .ok text) (back : List Char) : rest ≠ text.toList ++ back := by
  rintro rfl
  rcases exists_lead hv htext with ⟨c, cs, hcons, hlead⟩
  obtain rfl : c = ']' := h c (by simp [hcons])
  have hnone : lead? ']' = none := by decide
  simp [hnone] at hlead

theorem items_append_inj (hitems : ∀ v ∈ items, v.Legible ∧ v.SelfDelimiting)
    (hothers : ∀ w ∈ others, w.Legible)
    (htexts : List.Forall₂ (fun v text => v.literal = .ok text) items texts)
    (hwrittens : List.Forall₂ (fun w text => w.literal = .ok text) others writtens)
    (hrest : EndsList rest) (hrest' : EndsList rest')
    (h : (',' :: gap).intercalate (texts.map String.toList) ++ rest =
      (',' :: gap).intercalate (writtens.map String.toList) ++ rest') :
    items = others ∧ rest = rest' := by
  cases htexts with
  | nil =>
      cases hwrittens with
      | nil => exact ⟨rfl, by simpa using h⟩
      | cons hother _ =>
          rw [intercalate_cons, List.append_assoc] at h
          exact absurd h (hrest.literal_ne (hothers _ List.mem_cons_self) hother _)
  | @cons v text items texts htext htexts =>
      cases hwrittens with
      | nil =>
          rw [intercalate_cons, List.append_assoc] at h
          exact absurd h.symm (hrest'.literal_ne (hitems _ List.mem_cons_self).1 htext _)
      | @cons w other others writtens hother hwrittens =>
          -- With one more separator in front of both texts, the first items are like the others.
          have htails : tails (',' :: gap) (text :: texts) ++ rest =
              tails (',' :: gap) (other :: writtens) ++ rest' := by
            rw [intercalate_cons, intercalate_cons] at h
            simpa [tails] using h
          exact tails_append_inj (fun v hv => (hitems v hv).2) hothers (.cons htext htexts)
            (.cons hother hwrittens) hrest hrest' htails

end Items

/-! ## All legible values -/

theorem chars_append_inj {r s : RecordId} {rest rest' : List Char} (hrest : Ends rest)
    (hrest' : Ends rest') (h : r.chars ++ rest = s.chars ++ rest') : r = s ∧ rest = rest' := by
  have hparts : Decimal.signed r.cluster.toInt ++ ':' :: (Decimal.signed r.position.toInt ++ rest) =
      Decimal.signed s.cluster.toInt ++ ':' :: (Decimal.signed s.position.toInt ++ rest') := by
    simpa [RecordId.chars] using h
  rcases Decimal.signed_append_inj (by simp) (by simp) hparts with ⟨hcluster, hbehind⟩
  rcases Decimal.signed_append_inj hrest.not_digit hrest'.not_digit (List.cons.inj hbehind).2 with
    ⟨hposition, hsame⟩
  refine ⟨?_, hsame⟩
  rw [RecordId.mk.injEq]
  exact ⟨Int32.toInt_inj.1 hcluster, Int64.toInt_inj.1 hposition⟩

/-- Two literals that start alike are of values of one kind. -/
theorem shape_eq_of_append {v w : Value} {text other : String} {rest rest' : List Char}
    (hv : v.Legible) (hw : w.Legible) (htext : v.literal = .ok text) (hother : w.literal = .ok other)
    (h : text.toList ++ rest = other.toList ++ rest') : v.shape = w.shape := by
  rcases exists_lead hv htext with ⟨c, cs, hcons, hlead⟩
  rcases exists_lead hw hother with ⟨d, ds, hcons', hlead'⟩
  rw [hcons, hcons'] at h
  rw [(List.cons.inj h).1] at hlead
  exact Option.some.inj (hlead.symm.trans hlead')

/-- The other literal has to be looked at only if it is of a value of the same kind. -/
theorem SelfDelimiting.of_shape {v : Value} (hv : v.Legible)
    (h : ∀ (w : Value) (text other : String) (rest rest' : List Char), w.Legible →
      w.shape = v.shape → v.literal = .ok text → w.literal = .ok other → Ends rest → Ends rest' →
      text.toList ++ rest = other.toList ++ rest' → v = w ∧ rest = rest') : v.SelfDelimiting := by
  intro w text other rest rest' hw htext hother hrest hrest' hsame
  have hshape : w.shape = v.shape := (shape_eq_of_append hv hw htext hother hsame).symm
  exact h w text other rest rest' hw hshape htext hother hrest hrest' hsame

theorem selfDelimiting_null : SelfDelimiting .null := by
  refine .of_shape .null ?_
  intro w text other rest rest' hw hshape htext hother _ _ h
  cases hw with
  | null =>
      cases htext
      cases hother
      exact ⟨rfl, List.append_cancel_left h⟩
  | _ => simp [shape] at hshape

theorem selfDelimiting_bool (b : Bool) : SelfDelimiting (.bool b) := by
  refine .of_shape (.bool b) ?_
  intro w text other rest rest' hw hshape htext hother _ _ h
  cases hw with
  | bool other =>
      -- The two words have different first letters.
      cases b <;> cases other <;> cases htext <;> cases hother <;> simp at h
      · exact ⟨rfl, h⟩
      · exact ⟨rfl, h⟩
  | _ => simp [shape] at hshape

theorem selfDelimiting_int (n : Int64) : SelfDelimiting (.int n) := by
  refine .of_shape (.int n) ?_
  intro w text other rest rest' hw hshape htext hother hrest hrest' h
  cases hw with
  | int m =>
      cases htext
      cases hother
      rw [String.toList_ofList, String.toList_ofList] at h
      rcases Decimal.signed_append_inj hrest.not_digit hrest'.not_digit h with ⟨hn, hbehind⟩
      rw [Int64.toInt_inj.1 hn]
      exact ⟨rfl, hbehind⟩
  | _ => simp [shape] at hshape

theorem selfDelimiting_string (s : String) : SelfDelimiting (.string s) := by
  refine .of_shape (.string s) ?_
  intro w text other rest rest' hw hshape htext hother _ _ h
  cases hw with
  | string t =>
      rw [literal] at htext hother
      cases htext
      cases hother
      rw [toList_quote, toList_quote] at h
      rcases quoteChars_append_inj h with ⟨hs, hbehind⟩
      rw [String.toList_inj.1 hs]
      exact ⟨rfl, hbehind⟩
  | _ => simp [shape] at hshape

theorem selfDelimiting_recordId (r : RecordId) : SelfDelimiting (.recordId r) := by
  refine .of_shape (.recordId r) ?_
  intro w text other rest rest' hw hshape htext hother hrest hrest' h
  cases hw with
  | recordId s =>
      cases htext
      cases hother
      rw [RecordId.text, RecordId.text, String.toList_ofList, String.toList_ofList] at h
      rcases chars_append_inj hrest hrest' h with ⟨rfl, hbehind⟩
      exact ⟨rfl, hbehind⟩
  | _ => simp [shape] at hshape

theorem endsList_bracket (rest : List Char) : EndsList (']' :: rest) := by
  intro c hc
  simpa [eq_comm] using hc

theorem selfDelimiting_list {items : List Value} (hitems : ∀ v ∈ items, v.Legible)
    (ih : ∀ v ∈ items, v.SelfDelimiting) : SelfDelimiting (.list items) := by
  refine .of_shape (.list hitems) ?_
  intro w text other rest rest' hw hshape htext hother _ _ h
  cases hw with
  | @list others hothers =>
      rw [literal_list, Result.map_eq_ok_iff] at htext hother
      rcases htext with ⟨texts, htexts, rfl⟩
      rcases hother with ⟨writtens, hwrittens, rfl⟩
      have hinner : [','].intercalate (texts.map String.toList) ++ ']' :: rest =
          [','].intercalate (writtens.map String.toList) ++ ']' :: rest' := by
        rw [toList_brackets, toList_brackets] at h
        simpa using h
      rcases items_append_inj (fun v hv => ⟨hitems v hv, ih v hv⟩) hothers
        (Result.mapM_eq_ok_iff.1 htexts) (Result.mapM_eq_ok_iff.1 hwrittens)
        (endsList_bracket rest) (endsList_bracket rest') hinner with ⟨rfl, hbehind⟩
      exact ⟨rfl, (List.cons.inj hbehind).2⟩
  | _ => simp [shape] at hshape

theorem selfDelimiting_of_legible {v : Value} (hv : v.Legible) : v.SelfDelimiting := by
  induction hv with
  | null => exact selfDelimiting_null
  | bool b => exact selfDelimiting_bool b
  | int n => exact selfDelimiting_int n
  | string s => exact selfDelimiting_string s
  | recordId r => exact selfDelimiting_recordId r
  | list hitems ih => exact selfDelimiting_list hitems ih

theorem literal_inj {v w : Value} (hv : v.Legible) (hw : w.Legible) (h : v.literal = w.literal) :
    v = w := by
  rcases hv.exists_literal with ⟨text, htext⟩
  have hother : w.literal = .ok text := h.symm.trans htext
  have hend : Ends [] := by simp [Ends]
  exact (selfDelimiting_of_legible hv w text text [] [] hw htext hother hend hend rfl).1

end Value

/-! ## Lists of values -/

namespace Formatter

open Value (Legible EndsList)

variable {vs ws : List Value}

theorem exists_format_quoted (hvs : ∀ v ∈ vs, v.Legible) (hne : vs ≠ []) :
    ∃ texts, List.Forall₂ (fun v text => v.literal = .ok text) vs texts ∧
      quoted.format vs = .ok (some (commaJoin texts)) := by
  rcases Result.exists_mapM_ok_iff.2 fun v hv => (hvs v hv).exists_literal with ⟨texts, htexts⟩
  refine ⟨texts, Result.mapM_eq_ok_iff.1 htexts, ?_⟩
  exact (format_eq_join (f := .quoted) rfl hne).trans (Result.map_eq_ok_iff.2 ⟨texts, htexts, rfl⟩)

/-- Lists of null, booleans, signed integers, strings, record ids and lists of these are written
alike only if they are the same, and so are such values on their own. -/
theorem format_quoted_inj (hvs : ∀ v ∈ vs, v.Legible) (hws : ∀ w ∈ ws, w.Legible)
    (hne : vs ≠ []) :
    (∃ text, quoted.format vs = .ok (some text)) ∧
    (quoted.format vs = quoted.format ws ↔ vs = ws) ∧
    ∀ v ∈ vs, ∀ w ∈ ws, v.literal = w.literal ↔ v = w := by
  rcases exists_format_quoted hvs hne with ⟨texts, htexts, hformat⟩
  refine ⟨⟨_, hformat⟩, ⟨?_, ?_⟩, ?_⟩
  · intro h
    have hne' : ws ≠ [] := by
      rintro rfl
      have hnone : quoted.format [] = .ok none := rfl
      simp [hformat, hnone] at h
    rcases exists_format_quoted hws hne' with ⟨writtens, hwrittens, hformat'⟩
    rw [hformat, hformat'] at h
    have hjoined : commaJoin texts = commaJoin writtens := Option.some.inj (Except.ok.inj h)
    have hchars : [',', ' '].intercalate (texts.map String.toList) ++ [] =
        [',', ' '].intercalate (writtens.map String.toList) ++ [] := by
      simpa [commaJoin, ← String.toList_inj] using hjoined
    have hend : EndsList [] := by simp [EndsList]
    exact (Value.items_append_inj
      (fun v hv => ⟨hvs v hv, Value.selfDelimiting_of_legible (hvs v hv)⟩) hws htexts hwrittens
      hend hend hchars).1
  · rintro rfl
    rfl
  · intro v hv w hw
    refine ⟨Value.literal_inj (hvs v hv) (hws w hw), ?_⟩
    rintro rfl
    rfl

/-- A string that looks like an integer and a record id is not written like those. -/
theorem format_quoted_imitation :
    quoted.format [.list [.string "1,#2:3"], .null] ≠
      quoted.format [.list [.int 1, .recordId ⟨2, 3⟩], .null] := by
  have hvs : ∀ v ∈ [Value.list [.string "1,#2:3"], .null], v.Legible := by
    intro v hv
    simp only [List.mem_cons, List.not_mem_nil, or_false] at hv
    rcases hv with rfl | rfl
    · exact .list (by simpa using Legible.string _)
    · exact .null
  have hws : ∀ w ∈ [Value.list [.int 1, .recordId ⟨2, 3⟩], .null], w.Legible := by
    intro w hw
    simp only [List.mem_cons, List.not_mem_nil, or_false] at hw
    rcases hw with rfl | rfl
    · exact .list (by simpa using ⟨Legible.int 1, Legible.recordId ⟨2, 3⟩⟩)
    · exact .null
  intro h
  have hsame := (format_quoted_inj hvs hws (List.cons_ne_nil _ _)).2.1.1 h
  simp at hsame

end Formatter
end GraphSql
