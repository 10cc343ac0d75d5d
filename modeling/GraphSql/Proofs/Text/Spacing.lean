import GraphSql.Text.Quoted
import GraphSql.Text.Blank
import Mathlib.Tactic.ByContra

/-!
# Spacing — what normalising a text does to a part of it

Normalising drops blanks at the two ends and shortens runs of spaces, wherever they stand.  A part
of the text that neither starts nor ends with a blank is therefore shortened as if it stood alone:

* `TwoSpaces` — two spaces in a row, which a normalised text never has;
* `collapse_append` — a run of spaces is inside one of two parts, or at their border;
* `normalise_dropLastBlank` — a blank at the end makes no difference;
* `Framed` — a part that neither starts nor ends with a blank;
* `collapse_infix_normalise`, `infix_normalise_iff` — what becomes of such a part;
* `collapse_quoteChars` — a quoted literal stays one, of the shortened text.
-/

namespace GraphSql
namespace Text

/-! ## Runs of spaces -/

def TwoSpaces (cs : List Char) : Prop :=
  [' ', ' '] <:+: cs

theorem twoSpaces_cons_iff {c : Char} {cs : List Char} :
    TwoSpaces (c :: cs) ↔ (c = ' ' ∧ cs.head? = some ' ') ∨ TwoSpaces cs := by
  have hfront : [' ', ' '] <+: c :: cs ↔ c = ' ' ∧ cs.head? = some ' ' := by
    rw [List.cons_prefix_cons]
    cases cs with
    | nil => simp
    | cons d ds => simp [eq_comm]
  rw [TwoSpaces, List.infix_cons_iff, hfront]
  rfl

theorem head?_collapse (cs : List Char) : (collapse cs).head? = cs.head? := by
  induction cs with
  | nil => rfl
  | cons c cs ih =>
      rw [collapse]
      split
      · rename_i h
        rw [ih, h.2, h.1]
        rfl
      · rfl

theorem not_twoSpaces_collapse (cs : List Char) : ¬TwoSpaces (collapse cs) := by
  induction cs with
  | nil => simp [collapse, TwoSpaces]
  | cons c cs ih =>
      rw [collapse]
      split
      · exact ih
      · rename_i h
        rw [twoSpaces_cons_iff, head?_collapse]
        exact not_or.2 ⟨h, ih⟩

/-- A text stays as it is exactly when it has no two spaces in a row. -/
theorem collapse_eq_self_iff {cs : List Char} : collapse cs = cs ↔ ¬TwoSpaces cs := by
  constructor
  · intro h
    rw [← h]
    exact not_twoSpaces_collapse cs
  · intro h
    induction cs with
    | nil => rfl
    | cons c cs ih =>
        rw [twoSpaces_cons_iff, not_or] at h
        rw [collapse, if_neg h.1, ih h.2]

theorem collapse_cons_kept {c : Char} {cs : List Char} (h : ¬(c = ' ' ∧ cs.head? = some ' ')) :
    collapse (c :: cs) = c :: collapse cs :=
  if_neg h

theorem collapse_append {xs ys : List Char}
    (h : ¬(xs.getLast? = some ' ' ∧ ys.head? = some ' ')) :
    collapse (xs ++ ys) = collapse xs ++ collapse ys := by
  induction xs with
  | nil => rfl
  | cons c cs ih =>
      cases cs with
      | nil =>
          have hborder : ¬(c = ' ' ∧ ys.head? = some ' ') := by simpa using h
          simp [collapse, hborder]
      | cons d ds =>
          have hrest := ih (by simpa [List.getLast?_cons_cons] using h)
          -- Only the last character of `xs` sees the border, and it is not the one at the front.
          by_cases hc : c = ' ' ∧ d = ' '
          · simpa [collapse, hc] using hrest
          · have hleft : ¬(c = ' ' ∧ (d :: ds).head? = some ' ') := by simpa using hc
            have hboth : ¬(c = ' ' ∧ (d :: ds ++ ys).head? = some ' ') := by simpa using hc
            rw [List.cons_append, collapse_cons_kept hboth, hrest, collapse_cons_kept hleft]
            rfl

/-- A character that is not a space keeps two runs of spaces apart. -/
theorem twoSpaces_append_cons_iff {xs ys : List Char} {c : Char} (hc : c ≠ ' ') :
    TwoSpaces (xs ++ c :: ys) ↔ TwoSpaces xs ∨ TwoSpaces ys := by
  induction xs with
  | nil =>
      rw [List.nil_append, twoSpaces_cons_iff]
      simp [hc, TwoSpaces]
  | cons d ds ih =>
      rw [List.cons_append, twoSpaces_cons_iff, ih, twoSpaces_cons_iff]
      cases ds with
      | nil => simp [hc, TwoSpaces]
      | cons e es => simp [or_assoc]

theorem twoSpaces_intercalate_iff {c : Char} (hc : c ≠ ' ') (parts : List (List Char)) :
    TwoSpaces ([c].intercalate parts) ↔ ∃ part ∈ parts, TwoSpaces part := by
  induction parts with
  | nil => simp [TwoSpaces]
  | cons part parts ih =>
      cases parts with
      | nil => simp
      | cons other parts =>
          have hcons : [c].intercalate (part :: other :: parts) =
              part ++ c :: [c].intercalate (other :: parts) := by
            simp [List.intercalate_cons_cons]
          rw [hcons, twoSpaces_append_cons_iff hc, ih]
          simp

theorem infix_intercalate (separator : List Char) {part : List Char} {parts : List (List Char)}
    (h : part ∈ parts) : part <:+: separator.intercalate parts := by
  induction parts with
  | nil => simp at h
  | cons first parts ih =>
      cases parts with
      | nil =>
          obtain rfl : part = first := by simpa using h
          simp
      | cons other parts =>
          rw [List.intercalate_cons_cons]
          rcases List.mem_cons.1 h with rfl | h
          · rw [List.append_assoc]
            exact List.infix_append_left
          · exact List.infix_append_of_infix_right (ih h)

/-! ## Trimming around a part -/

/-- The text is not empty, and neither its first nor its last character is blank. -/
structure Framed (cs : List Char) : Prop where
  first : ∃ c, cs.head? = some c ∧ isBlank c = false
  last : ∃ c, cs.getLast? = some c ∧ isBlank c = false

theorem not_blank_ne_space {c : Char} (h : isBlank c = false) : c ≠ ' ' := by
  rintro rfl
  exact absurd h (by decide)

theorem trimStart_cons_blank {c : Char} {cs : List Char} (h : isBlank c = true) :
    trimStart (c :: cs) = trimStart cs :=
  List.dropWhile_cons_of_pos h

theorem trimStart_cons_kept {c : Char} {cs : List Char} (h : ¬isBlank c = true) :
    trimStart (c :: cs) = c :: cs :=
  List.dropWhile_cons_of_neg h

theorem trimEnd_cons (c : Char) (cs : List Char) :
    trimEnd (c :: cs) =
      if trimEnd cs = [] ∧ isBlank c = true then [] else c :: trimEnd cs := by
  rw [trimEnd, List.reverse_cons, trimStart, List.dropWhile_append]
  by_cases hrest : (cs.reverse.dropWhile isBlank).isEmpty = true
  · have hempty : trimEnd cs = [] := by
      rw [trimEnd, trimStart, List.isEmpty_iff.1 hrest, List.reverse_nil]
    by_cases hc : isBlank c = true <;> simp [hrest, hc, hempty]
  · have hheld : trimEnd cs ≠ [] := by
      intro hnil
      exact hrest (List.isEmpty_iff.2 (List.reverse_eq_nil_iff.1 hnil))
    rw [if_neg hrest, if_neg fun hboth => hheld hboth.1, List.reverse_append]
    rfl

theorem trimEnd_cons_blank {c : Char} {cs : List Char} (h : trimEnd cs = [] ∧ isBlank c = true) :
    trimEnd (c :: cs) = [] := by
  rw [trimEnd_cons, if_pos h]

theorem trimEnd_cons_kept {c : Char} {cs : List Char}
    (h : ¬(trimEnd cs = [] ∧ isBlank c = true)) : trimEnd (c :: cs) = c :: trimEnd cs := by
  rw [trimEnd_cons, if_neg h]

theorem trimStart_append {xs ys : List Char} (h : ∃ c, ys.head? = some c ∧ isBlank c = false) :
    trimStart (xs ++ ys) = trimStart xs ++ ys := by
  rcases h with ⟨c, hhead, hc⟩
  rcases List.head?_eq_some_iff.1 hhead with ⟨cs, rfl⟩
  have hys : (c :: cs).dropWhile isBlank = c :: cs := by simp [hc]
  rw [trimStart, List.dropWhile_append]
  split
  · rename_i hnil
    have hxs : xs.dropWhile isBlank = [] := by simpa using hnil
    rw [trimStart, hxs, hys]
    rfl
  · rfl

theorem trimEnd_append {xs ys : List Char} (h : ∃ c, xs.getLast? = some c ∧ isBlank c = false) :
    trimEnd (xs ++ ys) = xs ++ trimEnd ys := by
  have hrev : ∃ c, xs.reverse.head? = some c ∧ isBlank c = false := by
    simpa [List.head?_reverse] using h
  calc
    trimEnd (xs ++ ys) = (trimStart (ys.reverse ++ xs.reverse)).reverse := by
      rw [trimEnd, List.reverse_append]
    _ = (trimStart ys.reverse ++ xs.reverse).reverse := by
      rw [trimStart_append hrev]
    _ = xs ++ trimEnd ys := by
      rw [List.reverse_append, List.reverse_reverse, trimEnd]

theorem Framed.getLast?_append {cs : List Char} (h : Framed cs) (xs : List Char) :
    ∃ c, (xs ++ cs).getLast? = some c ∧ isBlank c = false := by
  rcases h.last with ⟨c, hlast, hc⟩
  exact ⟨c, by simp [hlast], hc⟩

theorem Framed.head?_append {cs : List Char} (h : Framed cs) (ys : List Char) :
    ∃ c, (cs ++ ys).head? = some c ∧ isBlank c = false := by
  rcases h.first with ⟨c, hhead, hc⟩
  exact ⟨c, by simp [hhead], hc⟩

theorem trim_framed {cs : List Char} (h : Framed cs) (xs ys : List Char) :
    trim (xs ++ (cs ++ ys)) = trimStart xs ++ (cs ++ trimEnd ys) := by
  calc
    trim (xs ++ (cs ++ ys)) = trimEnd (trimStart xs ++ (cs ++ ys)) := by
      rw [trim, trimStart_append (h.head?_append ys)]
    _ = trimEnd ((trimStart xs ++ cs) ++ ys) := by
      rw [List.append_assoc]
    _ = (trimStart xs ++ cs) ++ trimEnd ys :=
      trimEnd_append (h.getLast?_append (trimStart xs))
    _ = trimStart xs ++ (cs ++ trimEnd ys) :=
      List.append_assoc ..

theorem collapse_framed {cs : List Char} (h : Framed cs) (xs ys : List Char) :
    collapse (xs ++ (cs ++ ys)) = collapse xs ++ (collapse cs ++ collapse ys) := by
  rcases h.head?_append ys with ⟨c, hhead, hc⟩
  rcases h.last with ⟨d, hlast, hd⟩
  -- A framed part has no space at either border, so no run of spaces crosses one.
  have hleft : ¬(xs.getLast? = some ' ' ∧ (cs ++ ys).head? = some ' ') := by
    rw [hhead]
    exact fun hspace => not_blank_ne_space hc (Option.some.inj hspace.2)
  have hright : ¬(cs.getLast? = some ' ' ∧ ys.head? = some ' ') := by
    rw [hlast]
    exact fun hspace => not_blank_ne_space hd (Option.some.inj hspace.1)
  calc
    collapse (xs ++ (cs ++ ys)) = collapse xs ++ collapse (cs ++ ys) := collapse_append hleft
    _ = collapse xs ++ (collapse cs ++ collapse ys) := by rw [collapse_append hright]

/-- A blank at the end is dropped anyway. -/
theorem normalise_append_blank {cs : List Char} {c : Char} (hc : isBlank c = true) :
    normalise (cs ++ [c]) = normalise cs := by
  have hblank : [c].dropWhile isBlank = [] := by simp [hc]
  have htrim : trim (cs ++ [c]) = trim cs := by
    rw [trim, trimStart, List.dropWhile_append, hblank]
    split
    · rename_i hnil
      rw [trim, trimStart, List.isEmpty_iff.1 hnil]
    · simp [trim, trimEnd, trimStart, List.dropWhile_cons_of_pos hc]
  rw [normalise, htrim, normalise]

theorem normalise_dropLastBlank (cs : List Char) : normalise (dropLastBlank cs) = normalise cs := by
  rcases List.eq_nil_or_concat cs with rfl | ⟨ds, c, rfl⟩
  · rfl
  · cases hc : isBlank c with
    | true => simp [dropLastBlank, dropBlank, hc, normalise_append_blank hc]
    | false => simp [dropLastBlank, dropBlank, hc]

/-- A framed part is shortened on its own, and what stands around it does not matter. -/
theorem collapse_infix_normalise {cs text : List Char} (h : Framed cs) (hin : cs <:+: text) :
    collapse cs <:+: normalise text := by
  rcases hin with ⟨xs, ys, rfl⟩
  rw [normalise, List.append_assoc, trim_framed h, collapse_framed h]
  exact ⟨_, _, List.append_assoc ..⟩

/-- A framed part reaches the normalised text as it is exactly when it has no two spaces in a row. -/
theorem infix_normalise_iff {cs text : List Char} (h : Framed cs) (hin : cs <:+: text) :
    cs <:+: normalise text ↔ ¬TwoSpaces cs := by
  constructor
  · intro hnorm htwo
    -- A normalised text has no two spaces in a row, and a part of it has none either.
    exact not_twoSpaces_collapse (trim text) (List.IsInfix.trans htwo hnorm)
  · intro htwo
    rw [← collapse_eq_self_iff.2 htwo]
    exact collapse_infix_normalise h hin

/-! ## Quoted literals -/

theorem head?_escape_append_quote (cs rest : List Char) :
    (escape cs ++ '\'' :: rest).head? = some ' ' ↔ cs.head? = some ' ' := by
  cases cs with
  | nil => simp [escape]
  | cons c cs =>
      rw [escape_cons]
      by_cases h : c = '\\' ∨ c = '\''
      · rcases h with rfl | rfl <;> simp
      · simp [h]

theorem collapse_escape_append (cs rest : List Char) :
    collapse (escape cs ++ '\'' :: rest) = escape (collapse cs) ++ collapse ('\'' :: rest) := by
  induction cs with
  | nil => rfl
  | cons c cs ih =>
      rw [escape_cons]
      by_cases h : c = '\\' ∨ c = '\''
      · -- An escaped character is not a space, so both it and its backslash stay.
        have hc : c ≠ ' ' := by
          rintro rfl
          simp at h
        have hkept : collapse (c :: cs) = c :: collapse cs :=
          collapse_cons_kept fun hspace => hc hspace.1
        rw [hkept, escape_cons, if_pos h]
        simp [collapse, hc, ih]
      · rw [if_neg h]
        by_cases hspace : c = ' ' ∧ cs.head? = some ' '
        -- A space is not escaped, so it is followed by a space in the one text as in the other.
        · have hcollapse : collapse (c :: cs) = collapse cs := if_pos hspace
          rw [hcollapse, ← ih]
          exact if_pos ⟨hspace.1, (head?_escape_append_quote cs rest).2 hspace.2⟩
        · have hkept : ¬(c = ' ' ∧ (escape cs ++ '\'' :: rest).head? = some ' ') := by
            rwa [head?_escape_append_quote]
          rw [collapse_cons_kept hspace, escape_cons, if_neg h]
          simp only [List.cons_append, List.nil_append]
          rw [collapse_cons_kept hkept, ih]

/-- Shortening the runs of spaces of a quoted literal leaves the literal of the shortened text. -/
theorem collapse_quoteChars (cs : List Char) : collapse (quoteChars cs) = quoteChars (collapse cs) := by
  calc
    collapse (quoteChars cs) = '\'' :: collapse (escape cs ++ ['\'']) :=
      collapse_cons_kept (by simp)
    _ = '\'' :: (escape (collapse cs) ++ collapse ['\'']) := by
      rw [collapse_escape_append]
    _ = quoteChars (collapse cs) := rfl

theorem framed_quoteChars (cs : List Char) : Framed (quoteChars cs) where
  first := ⟨'\'', rfl, by decide⟩
  last := ⟨'\'', by simp [quoteChars, List.getLast?_cons], by decide⟩

theorem quoteChars_inj {cs ds : List Char} (h : quoteChars cs = quoteChars ds) : cs = ds := by
  have hbody : escape cs = escape ds := by simpa [quoteChars] using h
  have hread := congrArg unescape hbody
  have hcs := unescape_escape_append cs []
  have hds := unescape_escape_append ds []
  simp only [List.append_nil, unescape] at hcs hds
  rwa [hcs, hds] at hread

theorem quoteChars_append_inj {cs ds : List Char} {rest rest' : List Char}
    (h : quoteChars cs ++ rest = quoteChars ds ++ rest') : cs = ds ∧ rest = rest' := by
  have hbody : escape cs ++ '\'' :: rest = escape ds ++ '\'' :: rest' := by
    simpa [quoteChars] using h
  -- The body of a literal ends at its own closing quote.
  have hread : some (escape cs, rest) = some (escape ds, rest') := by
    rw [← body?_escape cs rest, ← body?_escape ds rest', hbody]
  rcases Prod.mk.inj (Option.some.inj hread) with ⟨hescape, hrest⟩
  exact ⟨quoteChars_inj (by rw [quoteChars, quoteChars, hescape]), hrest⟩

theorem twoSpaces_quoteChars_iff {cs : List Char} : TwoSpaces (quoteChars cs) ↔ TwoSpaces cs := by
  rw [← not_iff_not, ← collapse_eq_self_iff, ← collapse_eq_self_iff, collapse_quoteChars]
  constructor
  · exact quoteChars_inj
  · intro h
    rw [h]

end Text
end GraphSql
