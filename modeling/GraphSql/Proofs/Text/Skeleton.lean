import GraphSql.Proofs.Filter.Scanning
import GraphSql.Proofs.Text.Spacing
import Mathlib.Data.List.Forall2

/-!
# Skeleton — a text with its single-quoted literals emptied

Two texts that differ in the bodies of properly written literals only are cut into the same pieces
by a reader that knows nothing of how they were written:

* `skeleton` — the pieces of the text, with `''` for each single-quoted literal;
* `Aligned` — the same characters, none of them a quote, and literals of any texts in the same
  places;
* `Aligned.append`, `Aligned.normalise` — joining and normalising keep texts aligned;
* `skeleton_eq_of_aligned` — aligned texts have the same skeleton.
-/

namespace GraphSql

open Text

namespace Condition

/-! ## Skeletons -/

def Piece.outline : Piece → List Char
  | .quoted '\'' _ => ['\'', '\'']
  | p => p.chars

def skeleton (cs : List Char) : List Char :=
  (pieces cs).flatMap Piece.outline

theorem skeleton_quoteChars_append (cs rest : List Char) :
    skeleton (quoteChars cs ++ rest) = ['\'', '\''] ++ skeleton rest := by
  -- The reader stops at the quote that the writer put behind the escaped text.
  have hpieces : pieces (quoteChars cs ++ rest) = .quoted '\'' (escape cs) :: pieces rest := by
    simpa [quoteChars] using pieces_quoted (by decide) (body?_escape cs rest)
  rw [skeleton, hpieces, List.flatMap_cons]
  rfl

/-- Plain characters at the front are kept, however the run that they belong to is cut. -/
theorem skeleton_takeWhile (cs : List Char) :
    skeleton cs = cs.takeWhile isPlain ++ skeleton (cs.dropWhile isPlain) := by
  cases cs with
  | nil => rfl
  | cons c cs =>
      by_cases hc : isPlain c = true
      · have hpieces := pieces_plain hc cs
        rw [skeleton, hpieces, List.flatMap_cons, List.takeWhile_cons_of_pos hc,
          List.dropWhile_cons_of_pos hc]
        rfl
      · simp [hc]

theorem skeleton_cons {c : Char} (hc : isQuote c = false) (cs : List Char) :
    skeleton (c :: cs) = c :: skeleton cs := by
  by_cases hmarker : c = '?'
  · rw [hmarker, skeleton, pieces_marker]
    rfl
  · have hplain : isPlain c = true := by simp [isPlain, hmarker, hc]
    calc
      skeleton (c :: cs) = c :: cs.takeWhile isPlain ++ skeleton (cs.dropWhile isPlain) := by
        rw [skeleton_takeWhile (c :: cs), List.takeWhile_cons_of_pos hplain,
          List.dropWhile_cons_of_pos hplain]
      _ = c :: skeleton cs := by
        rw [List.cons_append, ← skeleton_takeWhile cs]

/-! ## Texts without quotes -/

def Unquoted (cs : List Char) : Prop :=
  ∀ c ∈ cs, isQuote c = false

instance (cs : List Char) : Decidable (Unquoted cs) :=
  List.decidableBAll (fun c => isQuote c = false) cs

theorem Unquoted.append {xs ys : List Char} (hx : Unquoted xs) (hy : Unquoted ys) :
    Unquoted (xs ++ ys) := by
  intro c hc
  rcases List.mem_append.1 hc with hc | hc
  · exact hx c hc
  · exact hy c hc

theorem Unquoted.subset {xs ys : List Char} (h : Unquoted ys) (hsub : xs ⊆ ys) : Unquoted xs := by
  intro c hc
  exact h c (hsub hc)

theorem Unquoted.intercalate {separator : List Char} (hsep : Unquoted separator)
    {parts : List (List Char)} :
    (∀ part ∈ parts, Unquoted part) → Unquoted (separator.intercalate parts) := by
  intro h
  induction parts with
  | nil => simp [Unquoted]
  | cons part parts ih =>
      rcases List.forall_mem_cons.1 h with ⟨hpart, hparts⟩
      cases parts with
      | nil => simpa using hpart
      | cons other parts =>
          rw [List.intercalate_cons_cons]
          exact (hpart.append hsep).append (ih hparts)

/-! ## Aligned texts -/

inductive Aligned : List Char → List Char → Prop
  | nil : Aligned [] []
  | same {c : Char} {cs ds : List Char} :
      isQuote c = false → Aligned cs ds → Aligned (c :: cs) (c :: ds)
  | literal (text other : List Char) {cs ds : List Char} :
      Aligned cs ds → Aligned (quoteChars text ++ cs) (quoteChars other ++ ds)

/-- The reader finds the end of each literal, so it never sees what is inside. -/
theorem skeleton_eq_of_aligned {cs ds : List Char} (h : Aligned cs ds) :
    skeleton cs = skeleton ds := by
  induction h with
  | nil => rfl
  | same hc _ ih => rw [skeleton_cons hc, skeleton_cons hc, ih]
  | literal text other _ ih => rw [skeleton_quoteChars_append, skeleton_quoteChars_append, ih]

example : skeleton "a = 'it\\'s' AND b = \"c\"".toList = "a = '' AND b = \"c\"".toList := by
  decide +kernel

namespace Aligned

variable {as bs cs ds : List Char}

theorem of_unquoted (h : Unquoted cs) : Aligned cs cs := by
  induction cs with
  | nil => exact .nil
  | cons c cs ih =>
      rcases List.forall_mem_cons.1 h with ⟨hc, hcs⟩
      exact .same hc (ih hcs)

theorem quoted (text other : List Char) : Aligned (quoteChars text) (quoteChars other) := by
  simpa using Aligned.literal text other .nil

theorem append (h : Aligned as bs) (h' : Aligned cs ds) : Aligned (as ++ cs) (bs ++ ds) := by
  induction h with
  | nil => exact h'
  | same hc _ ih => exact .same hc ih
  | literal text other _ ih =>
      rw [List.append_assoc, List.append_assoc]
      exact .literal text other ih

theorem intercalate {separator : List Char} (hsep : Unquoted separator)
    {parts others : List (List Char)} (h : List.Forall₂ Aligned parts others) :
    Aligned (separator.intercalate parts) (separator.intercalate others) := by
  induction h with
  | nil => exact .nil
  | cons hfirst hrest ih =>
      cases hrest with
      | nil => simpa using hfirst
      | cons _ _ =>
          rw [List.intercalate_cons_cons, List.intercalate_cons_cons]
          exact (hfirst.append (of_unquoted hsep)).append ih

theorem head?_eq (h : Aligned cs ds) : cs.head? = ds.head? := by
  cases h <;> rfl

theorem eq_nil_iff (h : Aligned cs ds) : cs = [] ↔ ds = [] := by
  rw [← List.head?_eq_none_iff, ← List.head?_eq_none_iff, h.head?_eq]

/-! ### Normalising -/

theorem collapse (h : Aligned cs ds) : Aligned (Text.collapse cs) (Text.collapse ds) := by
  induction h with
  | nil => exact .nil
  | @same c cs ds hc h ih =>
      -- Aligned texts start with the same character, so a space is dropped in both or in none.
      by_cases hspace : c = ' ' ∧ cs.head? = some ' '
      · have hother : c = ' ' ∧ ds.head? = some ' ' := by rwa [← h.head?_eq]
        rw [Text.collapse, Text.collapse, if_pos hspace, if_pos hother]
        exact ih
      · have hother : ¬(c = ' ' ∧ ds.head? = some ' ') := by rwa [← h.head?_eq]
        rw [collapse_cons_kept hspace, collapse_cons_kept hother]
        exact .same hc ih
  | @literal text other cs ds _ ih =>
      have hleft := collapse_framed (framed_quoteChars text) [] cs
      have hright := collapse_framed (framed_quoteChars other) [] ds
      simp only [List.nil_append, Text.collapse, collapse_quoteChars] at hleft hright
      rw [hleft, hright]
      exact .literal _ _ ih

theorem trimStart (h : Aligned cs ds) : Aligned (Text.trimStart cs) (Text.trimStart ds) := by
  induction h with
  | nil => exact .nil
  | @same c cs ds hc h ih =>
      by_cases hblank : isBlank c = true
      · rw [trimStart_cons_blank hblank, trimStart_cons_blank hblank]
        exact ih
      · rw [trimStart_cons_kept hblank, trimStart_cons_kept hblank]
        exact .same hc h
  | literal text other h _ =>
      -- A quote is not blank, so nothing is dropped in front of a literal.
      exact .literal text other h

theorem trimEnd (h : Aligned cs ds) : Aligned (Text.trimEnd cs) (Text.trimEnd ds) := by
  induction h with
  | nil => exact .nil
  | @same c cs ds hc _ ih =>
      -- A blank goes when nothing is left behind it, which is so in both texts or in none.
      by_cases hblank : Text.trimEnd cs = [] ∧ isBlank c = true
      · have hother : Text.trimEnd ds = [] ∧ isBlank c = true := by rwa [← ih.eq_nil_iff]
        rw [trimEnd_cons_blank hblank, trimEnd_cons_blank hother]
        exact .nil
      · have hother : ¬(Text.trimEnd ds = [] ∧ isBlank c = true) := by rwa [← ih.eq_nil_iff]
        rw [trimEnd_cons_kept hblank, trimEnd_cons_kept hother]
        exact .same hc ih
  | literal text other _ ih =>
      rw [trimEnd_append (framed_quoteChars text).last, trimEnd_append (framed_quoteChars other).last]
      exact .literal text other ih

theorem normalise (h : Aligned cs ds) : Aligned (Text.normalise cs) (Text.normalise ds) :=
  h.trimStart.trimEnd.collapse

end Aligned
end Condition
end GraphSql
