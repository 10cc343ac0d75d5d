import GraphSql.Json.Tree
import GraphSql.Proofs.Json.Escapes
import GraphSql.Proofs.Json.Integers

/-!
# Compact — a tree that was written as compact text is read back

* `Written` — the trees that writing makes: integers, encoded strings and keys, and no unreadable
  parts;
* `scan?_chars` — such a tree is found whole in front of any text that ends it, with two steps for
  each of its characters;
* `parse?_text` — so a whole text is read back;
* `nesting`, `clip_eq_self` — a tree within the limit is not clipped.
-/

namespace GraphSql
namespace Json
namespace Tree

open Numeral (Ends)

/-! ## Written trees -/

mutual

def Written : Tree → Prop
  | .null => True
  | .bool _ => True
  | .number n => ∃ i : Int, n = Numeral.ofInt i
  | .string written => ∃ cs, written = Escaped.encode cs
  | .array items => ItemsWritten items
  | .object members => MembersWritten members
  | .tooDeep => False

def ItemsWritten : List Tree → Prop
  | [] => True
  | t :: ts => Written t ∧ ItemsWritten ts

def MembersWritten : List (List Char × Tree) → Prop
  | [] => True
  | (key, t) :: ms => (∃ cs, key = Escaped.encode cs) ∧ Written t ∧ MembersWritten ms

end

theorem itemsWritten_iff {ts : List Tree} : ItemsWritten ts ↔ ∀ t ∈ ts, Written t := by
  induction ts with
  | nil => simp [ItemsWritten]
  | cons t ts ih => simp [ItemsWritten, ih]

theorem membersWritten_iff {ms : List (List Char × Tree)} :
    MembersWritten ms ↔ ∀ m ∈ ms, (∃ cs, m.1 = Escaped.encode cs) ∧ Written m.2 := by
  induction ms with
  | nil => simp [MembersWritten]
  | cons m ms ih => simp [MembersWritten, ih, and_assoc]

/-! ## The first character -/

theorem skip_cons {c : Char} (hc : isSpace c = false) (cs : List Char) :
    skip (c :: cs) = c :: cs :=
  List.dropWhile_cons_of_neg (by simp [hc])

theorem isSpace_of_isDigit {c : Char} (h : c.isDigit = true) : isSpace c = false := by
  rw [Bool.eq_false_iff]
  intro hspace
  simp only [isSpace, Bool.or_eq_true, decide_eq_true_eq] at hspace
  rcases hspace with ((rfl | rfl) | rfl) | rfl <;> exact absurd h (by decide)

/-- A number starts with its sign or with a digit. -/
theorem exists_chars_ofInt (i : Int) :
    ∃ c cs, (Numeral.ofInt i).chars = c :: cs ∧ (c = '-' ∨ c.isDigit = true) := by
  rw [Numeral.chars_ofInt]
  by_cases hi : i < 0
  · exact ⟨'-', Decimal.digits i.natAbs, by simp [hi], Or.inl rfl⟩
  · rcases Decimal.exists_digits_cons i.natAbs with ⟨d, ds, hdigits, hd⟩
    exact ⟨d, ds, by simp [hi, hdigits], Or.inr hd⟩

theorem exists_chars {t : Tree} (ht : Written t) :
    ∃ c cs, t.chars = c :: cs ∧ isSpace c = false ∧ c ≠ ']' := by
  cases t with
  | null => exact ⟨'n', _, rfl, by decide, by decide⟩
  | bool b =>
      cases b with
      | false => exact ⟨'f', _, rfl, by decide, by decide⟩
      | true => exact ⟨'t', _, rfl, by decide, by decide⟩
  | number n =>
      rcases ht with ⟨i, rfl⟩
      rcases exists_chars_ofInt i with ⟨c, cs, hcs, hc⟩
      refine ⟨c, cs, hcs, ?_⟩
      rcases hc with rfl | hdigit
      · decide
      · refine ⟨isSpace_of_isDigit hdigit, ?_⟩
        rintro rfl
        exact absurd hdigit (by decide)
  | string written => exact ⟨'"', _, rfl, by decide, by decide⟩
  | array items => exact ⟨'[', _, rfl, by decide, by decide⟩
  | object members => exact ⟨'{', _, rfl, by decide, by decide⟩
  | tooDeep => exact ht.elim

/-! ## One tree -/

theorem scan?_number (i : Int) (steps : Nat) {rest : List Char} (hrest : Ends rest) :
    scan? (steps + 1) ((Numeral.ofInt i).chars ++ rest) =
      some (.number (Numeral.ofInt i), rest) := by
  have hscan := Numeral.scan?_ofInt i hrest
  rcases exists_chars_ofInt i with ⟨c, cs, hcs, hc⟩
  rw [hcs, List.cons_append] at hscan ⊢
  have hspace : isSpace c = false := by
    rcases hc with rfl | hdigit
    · decide
    · exact isSpace_of_isDigit hdigit
  -- None of the other trees starts with a sign or a digit.
  have hother : ∀ d, d = 'n' ∨ d = 't' ∨ d = 'f' ∨ d = '"' ∨ d = '[' ∨ d = '{' → c ≠ d := by
    rintro d hd rfl
    rcases hc with rfl | hdigit
    · exact absurd hd (by decide)
    · rcases hd with rfl | rfl | rfl | rfl | rfl | rfl <;> exact absurd hdigit (by decide)
  rw [scan?, skip_cons hspace]
  split
  all_goals first
    | exact absurd (List.cons.inj ‹_›).1 (hother _ (by decide))
    | skip
  rw [hscan]
  rfl

theorem scan?_string (cs : List Char) (steps : Nat) (rest : List Char) :
    scan? (steps + 1) (quoted (Escaped.encode cs) ++ rest) =
      some (.string (Escaped.encode cs), rest) := by
  have hquoted : quoted (Escaped.encode cs) ++ rest = '"' :: (Escaped.encode cs ++ '"' :: rest) := by
    simp [quoted]
  rw [hquoted, scan?, skip_cons (by decide)]
  simp [Escaped.scan?_encode]

theorem scan?_array {cs : List Char} (hcs : ∀ rest, skip cs ≠ ']' :: rest) (steps : Nat) :
    scan? (steps + 1) ('[' :: cs) =
      (scanItems? steps cs).map fun found => (.array found.1, found.2) := by
  rw [scan?, skip_cons (by decide)]
  simp

theorem scan?_object {cs : List Char} (hcs : ∀ rest, skip cs ≠ '}' :: rest) (steps : Nat) :
    scan? (steps + 1) ('{' :: cs) =
      (scanMembers? steps cs).map fun found => (.object found.1, found.2) := by
  rw [scan?, skip_cons (by decide)]
  simp

/-! ## Trees in trees -/

theorem itemsChars_cons (t : Tree) (ts : List Tree) (hts : ts ≠ []) :
    itemsChars (t :: ts) = t.chars ++ ',' :: itemsChars ts := by
  cases ts with
  | nil => exact absurd rfl hts
  | cons t' ts => rfl

theorem membersChars_cons (key : List Char) (t : Tree) (ms : List (List Char × Tree))
    (hms : ms ≠ []) :
    membersChars ((key, t) :: ms) = quoted key ++ ':' :: (t.chars ++ ',' :: membersChars ms) := by
  cases ms with
  | nil => exact absurd rfl hms
  | cons m ms => rfl

/-- The items do not start with the bracket that closes them. -/
theorem skip_itemsChars {t : Tree} (ht : Written t) (ts : List Tree) (back rest : List Char) :
    skip (itemsChars (t :: ts) ++ back) ≠ ']' :: rest := by
  obtain ⟨more, hmore⟩ : ∃ more, itemsChars (t :: ts) = t.chars ++ more := by
    cases ts with
    | nil => exact ⟨[], by simp [itemsChars]⟩
    | cons t' ts => exact ⟨',' :: itemsChars (t' :: ts), rfl⟩
  rcases exists_chars ht with ⟨c, cs, hcs, hspace, hclose⟩
  rw [hmore, hcs, List.cons_append, List.cons_append, skip_cons hspace]
  exact fun heq => hclose (List.cons.inj heq).1

theorem exists_membersChars (m : List Char × Tree) (ms : List (List Char × Tree)) :
    ∃ more, membersChars (m :: ms) = quoted m.1 ++ more := by
  cases ms with
  | nil => exact ⟨':' :: m.2.chars, rfl⟩
  | cons m' ms => exact ⟨':' :: (m.2.chars ++ ',' :: membersChars (m' :: ms)), rfl⟩

theorem skip_membersChars (m : List Char × Tree) (ms : List (List Char × Tree))
    (back rest : List Char) : skip (membersChars (m :: ms) ++ back) ≠ '}' :: rest := by
  rcases exists_membersChars m ms with ⟨more, hmore⟩
  rw [hmore, quoted, List.cons_append, List.cons_append, skip_cons (by decide)]
  exact fun heq => absurd (List.cons.inj heq).1 (by decide)

theorem length_chars_pos {t : Tree} (ht : Written t) : 0 < t.chars.length := by
  rcases exists_chars ht with ⟨c, cs, hcs, _⟩
  simp [hcs]

mutual

theorem scan?_chars : ∀ (t : Tree), Written t → ∀ (steps : Nat) (rest : List Char),
    Ends rest → 2 * t.chars.length ≤ steps → scan? steps (t.chars ++ rest) = some (t, rest)
  | t, ht, 0, rest, hrest, hsteps => by
      have hpos := length_chars_pos ht
      omega
  | .null, ht, steps + 1, rest, hrest, hsteps => by
      simp [chars, scan?, skip_cons (show isSpace 'n' = false by decide)]
  | .bool true, ht, steps + 1, rest, hrest, hsteps => by
      simp [chars, scan?, skip_cons (show isSpace 't' = false by decide)]
  | .bool false, ht, steps + 1, rest, hrest, hsteps => by
      simp [chars, scan?, skip_cons (show isSpace 'f' = false by decide)]
  | .number n, ht, steps + 1, rest, hrest, hsteps => by
      rcases ht with ⟨i, rfl⟩
      exact scan?_number i steps hrest
  | .string written, ht, steps + 1, rest, hrest, hsteps => by
      rcases ht with ⟨cs, rfl⟩
      exact scan?_string cs steps rest
  | .array [], ht, steps + 1, rest, hrest, hsteps => by
      simp [chars, itemsChars, scan?, skip_cons (show isSpace '[' = false by decide),
        skip_cons (show isSpace ']' = false by decide)]
  | .array (t :: ts), ht, steps + 1, rest, hrest, hsteps => by
      have hlength : (Tree.array (t :: ts)).chars.length = (itemsChars (t :: ts)).length + 2 := by
        simp [chars]
      have hitems := scanItems?_itemsChars (t :: ts) (by simp) ht steps rest (by omega)
      have hchars : (Tree.array (t :: ts)).chars ++ rest =
          '[' :: (itemsChars (t :: ts) ++ ']' :: rest) := by
        simp [chars]
      rw [hchars, scan?_array (skip_itemsChars ht.1 ts _), hitems]
      rfl
  | .object [], ht, steps + 1, rest, hrest, hsteps => by
      simp [chars, membersChars, scan?, skip_cons (show isSpace '{' = false by decide),
        skip_cons (show isSpace '}' = false by decide)]
  | .object (m :: ms), ht, steps + 1, rest, hrest, hsteps => by
      have hlength : (Tree.object (m :: ms)).chars.length =
          (membersChars (m :: ms)).length + 2 := by
        simp [chars]
      have hmembers := scanMembers?_membersChars (m :: ms) (by simp) ht steps rest (by omega)
      have hchars : (Tree.object (m :: ms)).chars ++ rest =
          '{' :: (membersChars (m :: ms) ++ '}' :: rest) := by
        simp [chars]
      rw [hchars, scan?_object (skip_membersChars m ms _), hmembers]
      rfl
  | .tooDeep, ht, steps + 1, rest, hrest, hsteps => ht.elim

/-- Behind the last item is the closing bracket, behind any other one a comma. -/
theorem scanItems?_itemsChars : ∀ (ts : List Tree), ts ≠ [] → ItemsWritten ts →
    ∀ (steps : Nat) (rest : List Char), 2 * (itemsChars ts).length + 1 ≤ steps →
      scanItems? steps (itemsChars ts ++ ']' :: rest) = some (ts, rest)
  | [], hne, _, _, _, _ => absurd rfl hne
  | t :: ts, _, hts, 0, rest, hsteps => by omega
  | [t], _, ⟨ht, _⟩, steps + 1, rest, hsteps => by
      have hitem := scan?_chars t ht steps (']' :: rest) (Ends.cons (by simp) rest)
        (by simp only [itemsChars] at hsteps; omega)
      simp [itemsChars, scanItems?, hitem, skip_cons (show isSpace ']' = false by decide)]
  | t :: t' :: ts, _, ⟨ht, hts⟩, steps + 1, rest, hsteps => by
      have hchars := itemsChars_cons t (t' :: ts) (by simp)
      have hlength : (itemsChars (t :: t' :: ts)).length =
          t.chars.length + ((itemsChars (t' :: ts)).length + 1) := by
        rw [hchars, List.length_append, List.length_cons]
      have hitem := scan?_chars t ht steps (',' :: (itemsChars (t' :: ts) ++ ']' :: rest))
        (Ends.cons (by simp) _) (by omega)
      have hmore := scanItems?_itemsChars (t' :: ts) (by simp) hts steps rest (by omega)
      rw [hchars, List.append_assoc, List.cons_append, scanItems?, hitem]
      simp [skip_cons (show isSpace ',' = false by decide), hmore]

theorem scanMembers?_membersChars : ∀ (ms : List (List Char × Tree)), ms ≠ [] →
    MembersWritten ms → ∀ (steps : Nat) (rest : List Char),
      2 * (membersChars ms).length + 1 ≤ steps →
        scanMembers? steps (membersChars ms ++ '}' :: rest) = some (ms, rest)
  | [], hne, _, _, _, _ => absurd rfl hne
  | m :: ms, _, hms, 0, rest, hsteps => by omega
  | [(key, t)], _, ⟨⟨cs, hkey⟩, ht, _⟩, steps + 1, rest, hsteps => by
      subst hkey
      have hlength : (membersChars [(Escaped.encode cs, t)]).length =
          (quoted (Escaped.encode cs)).length + (t.chars.length + 1) := by
        simp [membersChars]
      have hheld := scan?_chars t ht steps ('}' :: rest) (Ends.cons (by simp) rest) (by omega)
      simp [membersChars, quoted, scanMembers?, skip_cons (show isSpace '"' = false by decide),
        skip_cons (show isSpace ':' = false by decide), Escaped.scan?_encode, hheld,
        skip_cons (show isSpace '}' = false by decide)]
  | (key, t) :: m :: ms, _, ⟨⟨cs, hkey⟩, ht, hms⟩, steps + 1, rest, hsteps => by
      subst hkey
      have hchars := membersChars_cons (Escaped.encode cs) t (m :: ms) (by simp)
      have hlength : (membersChars ((Escaped.encode cs, t) :: m :: ms)).length =
          (quoted (Escaped.encode cs)).length +
            (t.chars.length + ((membersChars (m :: ms)).length + 1) + 1) := by
        simp [hchars]
      have hheld := scan?_chars t ht steps (',' :: (membersChars (m :: ms) ++ '}' :: rest))
        (Ends.cons (by simp) _) (by omega)
      have hmore := scanMembers?_membersChars (m :: ms) (by simp) hms steps rest (by omega)
      simp [hchars, quoted, scanMembers?, skip_cons (show isSpace '"' = false by decide),
        skip_cons (show isSpace ':' = false by decide), Escaped.scan?_encode, hheld,
        skip_cons (show isSpace ',' = false by decide), hmore]

end

theorem parse?_text {t : Tree} (ht : Written t) : parse? t.text = some t := by
  have hscan := scan?_chars t ht (2 * t.chars.length + 1) [] Ends.nil (by omega)
  rw [List.append_nil] at hscan
  rw [parse?, text, String.toList_ofList, hscan]
  rfl

/-! ## Nesting -/

mutual

/-- How many brackets are open at once, at most. -/
def nesting : Tree → Nat
  | .array items => itemsNesting items + 1
  | .object members => membersNesting members + 1
  | _ => 0

def itemsNesting : List Tree → Nat
  | [] => 0
  | t :: ts => max (nesting t) (itemsNesting ts)

def membersNesting : List (List Char × Tree) → Nat
  | [] => 0
  | (_, t) :: ms => max (nesting t) (membersNesting ms)

end

mutual

theorem clip_eq_self : ∀ (t : Tree) (levels : Nat), nesting t ≤ levels → clip levels t = t
  | .array items, 0, h => by simp [nesting] at h
  | .array items, levels + 1, h => by
      have hitems : itemsNesting items ≤ levels := by simpa [nesting] using h
      rw [clip, clipItems_eq_self items levels hitems]
  | .object members, 0, h => by simp [nesting] at h
  | .object members, levels + 1, h => by
      have hmembers : membersNesting members ≤ levels := by simpa [nesting] using h
      rw [clip, clipMembers_eq_self members levels hmembers]
  | .null, _, _ => by simp [clip]
  | .bool _, _, _ => by simp [clip]
  | .number _, _, _ => by simp [clip]
  | .string _, _, _ => by simp [clip]
  | .tooDeep, _, _ => by simp [clip]

theorem clipItems_eq_self : ∀ (ts : List Tree) (levels : Nat),
    itemsNesting ts ≤ levels → clipItems levels ts = ts
  | [], _, _ => rfl
  | t :: ts, levels, h => by
      rcases Nat.max_le.1 h with ⟨hfirst, hrest⟩
      rw [clipItems, clip_eq_self t levels hfirst, clipItems_eq_self ts levels hrest]

theorem clipMembers_eq_self : ∀ (ms : List (List Char × Tree)) (levels : Nat),
    membersNesting ms ≤ levels → clipMembers levels ms = ms
  | [], _, _ => rfl
  | (key, t) :: ms, levels, h => by
      rcases Nat.max_le.1 h with ⟨hfirst, hrest⟩
      rw [clipMembers, clip_eq_self t levels hfirst, clipMembers_eq_self ms levels hrest]

end

end Tree
end Json
end GraphSql
