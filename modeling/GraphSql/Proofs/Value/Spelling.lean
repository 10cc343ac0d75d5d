import GraphSql.Proofs.Text.Spacing
import GraphSql.Proofs.Value.Literal

/-!
# Spelling — blanks in the literals of values

Numbers, record ids and words are spelled without blanks, a date-time with a single space, and a
list puts no blanks between its items.  So the runs of spaces in a literal are those of the strings
in the value:

* `Spelled` — texts of letters, digits and signs only;
* `framed_literal` — a literal neither starts nor ends with a blank;
* `HoldsString`, `twoSpaces_literal_iff` — where the runs of spaces come from;
* `quoteChars_infix_literal` — every string in the value is quoted in the literal.
-/

namespace GraphSql

open Text

/-! ## Spelled texts -/

namespace Text

/-- The characters of numbers, words, record ids, dates and times. -/
def isSpelling (c : Char) : Bool :=
  c.isAlphanum || ['#', ':', '-', '+', '.'].contains c

def Spelled (cs : List Char) : Prop :=
  ∀ c ∈ cs, isSpelling c = true

instance (cs : List Char) : Decidable (Spelled cs) :=
  List.decidableBAll (fun c => isSpelling c = true) cs

theorem Spelled.append {xs ys : List Char} (hx : Spelled xs) (hy : Spelled ys) :
    Spelled (xs ++ ys) := by
  intro c hc
  rcases List.mem_append.1 hc with hc | hc
  · exact hx c hc
  · exact hy c hc

theorem Spelled.cons {c : Char} {cs : List Char} (hc : isSpelling c = true) (h : Spelled cs) :
    Spelled (c :: cs) :=
  List.forall_mem_cons.2 ⟨hc, h⟩

theorem Spelled.sublist {xs ys : List Char} (h : Spelled ys) (hsub : xs.Sublist ys) :
    Spelled xs := by
  intro c hc
  exact h c (hsub.subset hc)

theorem isSpelling_of_isDigit {c : Char} (h : c.isDigit = true) : isSpelling c = true := by
  simp [isSpelling, Char.isAlphanum, h]

theorem isBlank_of_isSpelling {c : Char} (h : isSpelling c = true) : isBlank c = false := by
  rcases Bool.or_eq_true_iff.1 h with halnum | hsign
  · have hrange : (65 ≤ c.toNat ∧ c.toNat ≤ 90) ∨ (97 ≤ c.toNat ∧ c.toNat ≤ 122) ∨
        (48 ≤ c.toNat ∧ c.toNat ≤ 57) := by
      rcases Bool.or_eq_true_iff.1 halnum with halpha | hdigit
      · rcases Bool.or_eq_true_iff.1 halpha with hupper | hlower
        · left
          simpa [UInt32.le_iff_toNat_le] using of_decide_eq_true hupper
        · right; left
          simpa [UInt32.le_iff_toNat_le] using Bool.and_eq_true_iff.1 hlower
      · right; right
        simpa [UInt32.le_iff_toNat_le] using Bool.and_eq_true_iff.1 hdigit
    simp only [isBlank, blankRanges, List.any_cons, List.any_nil, Bool.or_false,
      Bool.or_eq_false_iff, Bool.and_eq_false_iff, decide_eq_false_iff_not]
    omega
  · have hsigns : ['#', ':', '-', '+', '.'].all (fun d => !isBlank d) = true := by decide
    simpa using List.all_eq_true.1 hsigns c (List.contains_iff_mem.1 hsign)

theorem Spelled.not_blank {cs : List Char} (h : Spelled cs) : ∀ c ∈ cs, isBlank c = false := by
  intro c hc
  exact isBlank_of_isSpelling (h c hc)

theorem Spelled.framed {cs : List Char} (h : Spelled cs) (hne : cs ≠ []) : Framed cs where
  first := ⟨cs.head hne, List.head?_eq_some_head hne, h.not_blank _ (List.head_mem hne)⟩
  last := ⟨cs.getLast hne, List.getLast?_eq_some_getLast hne, h.not_blank _ (List.getLast_mem hne)⟩

theorem Spelled.not_twoSpaces {cs : List Char} (h : Spelled cs) : ¬TwoSpaces cs := by
  intro htwo
  have hspace : ' ' ∈ cs := List.IsInfix.subset htwo (by simp)
  exact absurd (h.not_blank ' ' hspace) (by decide)

/-- Two spelled texts with a space between them have no other space. -/
theorem Spelled.not_twoSpaces_spaced {xs ys : List Char} (hx : Spelled xs) (hy : Spelled ys) :
    ¬TwoSpaces (xs ++ ' ' :: ys) := by
  have hleft : ¬(xs.getLast? = some ' ' ∧ (' ' :: ys).head? = some ' ') := by
    rintro ⟨hlast, _⟩
    exact not_blank_ne_space (hx.not_blank ' ' (List.mem_of_getLast? hlast)) rfl
  have hright : ¬(' ' = ' ' ∧ ys.head? = some ' ') := by
    rintro ⟨_, hhead⟩
    exact not_blank_ne_space (hy.not_blank ' ' (List.mem_of_head? hhead)) rfl
  rw [← collapse_eq_self_iff, collapse_append hleft, collapse_cons_kept hright,
    collapse_eq_self_iff.2 hx.not_twoSpaces, collapse_eq_self_iff.2 hy.not_twoSpaces]

theorem Spelled.framed_spaced {xs ys : List Char} (hx : Spelled xs) (hxne : xs ≠ [])
    (hy : Spelled ys) (hyne : ys ≠ []) : Framed (xs ++ ' ' :: ys) where
  first := (hx.framed hxne).head?_append (' ' :: ys)
  last := by simpa using (hy.framed hyne).getLast?_append (xs ++ [' '])

end Text

/-! ## Numbers, record ids and date-times -/

namespace Decimal

theorem isDigit_of_mem_digits {n : Nat} {c : Char} (h : c ∈ digits n) : c.isDigit = true :=
  Nat.isDigit_of_mem_toDigits (by decide) (by decide) h

theorem mem_signed {n : Int} {c : Char} (h : c ∈ signed n) : c = '-' ∨ c.isDigit = true := by
  cases n with
  | ofNat n => exact Or.inr (isDigit_of_mem_digits h)
  | negSucc n =>
      rcases List.mem_cons.1 h with hsign | hdigit
      · exact Or.inl hsign
      · exact Or.inr (isDigit_of_mem_digits hdigit)

theorem spelled_digits (n : Nat) : Spelled (digits n) := by
  intro c hc
  exact isSpelling_of_isDigit (isDigit_of_mem_digits hc)

theorem digits_ne_nil (n : Nat) : digits n ≠ [] :=
  Nat.toDigits_ne_nil

theorem spelled_signed (n : Int) : Spelled (signed n) := by
  intro c hc
  rcases mem_signed hc with rfl | hdigit
  · decide
  · exact isSpelling_of_isDigit hdigit

theorem signed_ne_nil (n : Int) : signed n ≠ [] := by
  cases n with
  | ofNat n => exact digits_ne_nil n
  | negSucc n => exact List.cons_ne_nil _ _

theorem spelled_zeros (n : Nat) : Spelled (List.replicate n '0') := by
  intro c hc
  rw [(List.mem_replicate.1 hc).2]
  decide

theorem spelled_padded (width n : Nat) : Spelled (padded width n) :=
  (spelled_zeros _).append (spelled_digits n)

end Decimal

namespace FloatText

open Decimal

theorem spelled_places (p : Shortest.Point) :
    Spelled (places p).1 ∧ (places p).1 ≠ [] ∧ Spelled (places p).2 := by
  have hdigits := spelled_digits p.digits
  rw [places]
  split
  · refine ⟨hdigits.append (spelled_zeros _), ?_, by simp [Spelled]⟩
    simp [digits_ne_nil]
  · split
    · rename_i hlt
      refine ⟨hdigits.sublist (List.take_sublist _ _), ?_, hdigits.sublist (List.drop_sublist _ _)⟩
      have hlength := List.length_pos_iff.2 (digits_ne_nil p.digits)
      rw [Ne, List.take_eq_nil_iff]
      exact not_or.2 ⟨by omega, digits_ne_nil p.digits⟩
    · have hzero : Spelled ['0'] := by decide
      exact ⟨hzero, by simp, (spelled_zeros _).append hdigits⟩

theorem spelled_positional (p : Shortest.Point) :
    Spelled (positional p) ∧ positional p ≠ [] := by
  rcases spelled_places p with ⟨hwhole, hne, hfraction⟩
  rw [positional]
  split
  · rename_i hplaces
    simp_all
  · rename_i hplaces
    simp only [hplaces] at hwhole hne hfraction
    exact ⟨hwhole.append (hfraction.cons (by decide)), by simp⟩

theorem spelled_unsigned (m : Shortest.Magnitude) : Spelled (unsigned m) ∧ unsigned m ≠ [] := by
  match m with
  | .nan => exact ⟨by simp [Spelled, unsigned]; decide, by simp [unsigned]⟩
  | .infinite => exact ⟨by simp [Spelled, unsigned]; decide, by simp [unsigned]⟩
  | .finite 0 _ => exact ⟨by simp [Spelled, unsigned]; decide, by simp [unsigned]⟩
  | .finite (m + 1) q => exact spelled_positional _

theorem spelled_text (x : Float) : Spelled (text x) ∧ text x ≠ [] := by
  rw [text]
  split
  · exact spelled_unsigned .nan
  · rcases spelled_unsigned (Shortest.magnitude x) with ⟨hspelled, hne⟩
    split
    · exact ⟨hspelled.cons (by decide), by simp⟩
    · exact ⟨hspelled, hne⟩

end FloatText

theorem RecordId.spelled_chars (r : RecordId) : Spelled r.chars := by
  have hcluster := Decimal.spelled_signed r.cluster.toInt
  have hposition := Decimal.spelled_signed r.position.toInt
  exact (hcluster.append (hposition.cons (by decide))).cons (by decide)

namespace DateTime

theorem spelled_yearText (year : Int) : Spelled (yearText year) := by
  rw [yearText]
  split
  · exact Decimal.spelled_padded 4 year.toNat
  · refine (Decimal.spelled_padded 4 year.natAbs).cons ?_
    split <;> decide

theorem spelled_date (d : Date) : Spelled d.text := by
  have hmonth := Decimal.spelled_padded 2 d.month
  have hday := Decimal.spelled_padded 2 d.day
  exact ((spelled_yearText d.year).append (hmonth.cons (by decide))).append
    (hday.cons (by decide))

theorem spelled_time (t : TimeOfDay) : Spelled t.text := by
  have hhour := Decimal.spelled_padded 2 t.hour
  have hminute := Decimal.spelled_padded 2 t.minute
  have hsecond := Decimal.spelled_padded 2 t.writtenSecond
  exact (hhour.append (hminute.cons (by decide))).append (hsecond.cons (by decide))

/-- The one space of a stamp stands between date and time, which have none. -/
theorem not_twoSpaces_stamp (t : DateTime) : ¬TwoSpaces t.stamp :=
  (spelled_date t.date).not_twoSpaces_spaced (spelled_time t.time)

end DateTime

/-! ## Literals -/

namespace Value

/-- The string is the value, or one of the strings of a list at any depth. -/
inductive HoldsString (s : String) : Value → Prop
  | string : HoldsString s (.string s)
  | item {v : Value} {items : List Value} : v ∈ items → HoldsString s v → HoldsString s (.list items)

/-- Scalars other than strings and date-times are spelled without blanks and quotes. -/
theorem spelled_plain {v : Value} {text : String} (hstring : v.shape ≠ .string)
    (hdate : v.shape ≠ .dateTime) (h : v.plain = .ok text) :
    Spelled text.toList ∧ text.toList ≠ [] := by
  cases v with
  | string s => exact absurd rfl hstring
  | dateTime t => exact absurd rfl hdate
  | list items => simp [plain] at h
  | pair field value => simp [plain] at h
  | null =>
      obtain rfl := Except.ok.inj h
      exact ⟨by decide, by simp⟩
  | bool b =>
      cases b with
      | true =>
          obtain rfl := Except.ok.inj h
          exact ⟨by decide, by simp⟩
      | false =>
          obtain rfl := Except.ok.inj h
          exact ⟨by decide, by simp⟩
  | int n =>
      obtain rfl := Except.ok.inj h
      rw [String.toList_ofList]
      exact ⟨Decimal.spelled_signed _, Decimal.signed_ne_nil _⟩
  | uint n =>
      obtain rfl := Except.ok.inj h
      rw [String.toList_ofList]
      exact ⟨Decimal.spelled_digits _, Decimal.digits_ne_nil _⟩
  | float x =>
      obtain rfl := Except.ok.inj h
      rw [String.toList_ofList]
      exact FloatText.spelled_text x
  | recordId r =>
      obtain rfl := Except.ok.inj h
      rw [RecordId.text, String.toList_ofList]
      exact ⟨r.spelled_chars, List.cons_ne_nil _ _⟩

theorem toList_brackets (texts : List String) :
    ("[" ++ ",".intercalate texts ++ "]").toList =
      '[' :: ([','].intercalate (texts.map String.toList) ++ [']']) := by
  simp

theorem toList_quote (s : String) : (quote s).toList = quoteChars s.toList := by
  rw [quote, String.toList_ofList]

theorem framed_literal {v : Value} {text : String} (h : v.literal = .ok text) :
    Framed text.toList := by
  cases v with
  | string s =>
      rw [literal] at h
      obtain rfl := Except.ok.inj h
      rw [toList_quote]
      exact framed_quoteChars _
  | dateTime t =>
      rw [literal] at h
      obtain rfl := Except.ok.inj h
      rw [toList_quote]
      exact framed_quoteChars _
  | list items =>
      rw [literal_list, Result.map_eq_ok_iff] at h
      rcases h with ⟨texts, _, rfl⟩
      rw [toList_brackets]
      exact ⟨⟨'[', rfl, by decide⟩, ⟨']', by simp [List.getLast?_cons], by decide⟩⟩
  | pair field value => simp [literal] at h
  | _ =>
      rw [literal] at h
      rcases spelled_plain (by simp [shape]) (by simp [shape]) h with ⟨hspelled, hne⟩
      exact hspelled.framed hne

/-- The runs of spaces in a literal are those of the strings that the value holds. -/
theorem twoSpaces_literal_iff {v : Value} {text : String} (h : v.literal = .ok text) :
    TwoSpaces text.toList ↔ ∃ s, v.HoldsString s ∧ TwoSpaces s.toList := by
  induction v using Value.induct generalizing text with
  | pair field value _ => simp [literal] at h
  | scalar v hlist hpair =>
      have hone : (∃ s, v.HoldsString s ∧ TwoSpaces s.toList) ↔
          ∃ s, v = .string s ∧ TwoSpaces s.toList := by
        constructor
        · rintro ⟨s, hholds, htwo⟩
          cases hholds with
          | string => exact ⟨s, rfl, htwo⟩
          | item _ _ => exact absurd rfl hlist
        · rintro ⟨s, rfl, htwo⟩
          exact ⟨s, .string, htwo⟩
      rw [hone]
      cases v with
      | list items => exact absurd rfl hlist
      | pair field value => exact absurd rfl hpair
      | string s =>
          rw [literal] at h
          obtain rfl := Except.ok.inj h
          rw [toList_quote, twoSpaces_quoteChars_iff]
          simp
      | dateTime t =>
          rw [literal] at h
          obtain rfl := Except.ok.inj h
          rw [toList_quote, twoSpaces_quoteChars_iff, String.toList_ofList]
          simp [t.not_twoSpaces_stamp]
      | _ =>
          rw [literal] at h
          have hspelled := (spelled_plain (by simp [shape]) (by simp [shape]) h).1
          simp [hspelled.not_twoSpaces]
  | list items ih =>
      rw [literal_list, Result.map_eq_ok_iff] at h
      rcases h with ⟨texts, htexts, rfl⟩
      -- Brackets and commas are not spaces, so a run of spaces is inside one item.
      have hborder : TwoSpaces ("[" ++ ",".intercalate texts ++ "]").toList ↔
          ∃ text ∈ texts, TwoSpaces text.toList := by
        rw [toList_brackets, twoSpaces_cons_iff, twoSpaces_append_cons_iff (by decide),
          twoSpaces_intercalate_iff (by decide)]
        simp [TwoSpaces]
      rw [hborder]
      constructor
      · rintro ⟨text, hmem, htwo⟩
        rcases Result.exists_mem_of_mem_mapM htexts hmem with ⟨v, hv, htext⟩
        rcases (ih v hv htext).1 htwo with ⟨s, hholds, hs⟩
        exact ⟨s, .item hv hholds, hs⟩
      · rintro ⟨s, hholds, hs⟩
        cases hholds with
        | item hv hholds =>
            rcases Result.exists_mem_of_mapM htexts hv with ⟨text, hmem, htext⟩
            exact ⟨text, hmem, (ih _ hv htext).2 ⟨s, hholds, hs⟩⟩

/-- Every string that the value holds is quoted in the literal. -/
theorem quoteChars_infix_literal {s : String} {v : Value} {text : String} (hs : v.HoldsString s)
    (h : v.literal = .ok text) : quoteChars s.toList <:+: text.toList := by
  -- On the way to the string: the literal of each list on it has that of its item inside.
  induction hs generalizing text with
  | string =>
      rw [literal] at h
      obtain rfl := Except.ok.inj h
      simp only [toList_quote, List.infix_refl]
  | item hv _ ih =>
      rw [literal_list, Result.map_eq_ok_iff] at h
      rcases h with ⟨texts, htexts, rfl⟩
      rcases Result.exists_mem_of_mapM htexts hv with ⟨inner, hmem, hinner⟩
      have hjoined : inner.toList <:+: [','].intercalate (texts.map String.toList) :=
        infix_intercalate [','] (List.mem_map_of_mem hmem)
      rw [toList_brackets]
      exact List.infix_cons (List.infix_append_of_infix_left (List.IsInfix.trans (ih hinner) hjoined))

end Value
end GraphSql
