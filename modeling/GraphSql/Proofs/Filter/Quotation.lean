import GraphSql.Proofs.Filter.Markers
import GraphSql.Proofs.Text.Spacing
import GraphSql.Proofs.Value.Spelling

/-!
# Quotation — the scanner reads what the writer quoted

`Text.quote` goes through a text character by character and writes a backslash where one is needed;
`Condition.Piece.literalOf?` reads a literal by ordered choice between escapes and runs of other
characters.  They are made for each other:

* `literalOf?_eq_body?` — the reader by choice is the reader that goes from character to character;
* `literalOf?_append`, `chars_of_literalOf?` — what stands behind a literal is left alone, and the
  literal is the text in front of it;
* `literalOf?_take_iff` — a text that starts with a literal has it from the closing quote on, and
  from no earlier place;
* `scanned_quote` — a quoted text, in front of any other, is read as itself and denotes the text
  that was quoted.
-/

namespace GraphSql
namespace Condition

open Text

variable {q : Char} {cs rest : List Char}

namespace Piece

/-! ## Both readers -/

theorem literalOf?_eq_body? (hq : isQuote q = true) (cs : List Char) :
    literalOf? q (q :: cs) = (body? q cs).map fun found => (.quoted q found.1, found.2) := by
  cases h : body? q cs with
  | none => exact literalOf?_of_not_body? hq h
  | some found => exact literalOf?_of_body? hq h

/-- A literal starts with its quote and has the body that is read behind it. -/
theorem literalOf?_eq_some_iff (hq : isQuote q = true) {p : Piece} :
    literalOf? q cs = some (p, rest) ↔
      ∃ text body, cs = q :: text ∧ body? q text = some (body, rest) ∧ p = .quoted q body := by
  constructor
  · intro h
    cases cs with
    | nil => simp [literalOf?] at h
    | cons c text =>
        by_cases hc : c = q
        · subst hc
          rw [literalOf?_eq_body? hq, Option.map_eq_some_iff] at h
          rcases h with ⟨⟨body, after⟩, hbody, hfound⟩
          rcases Prod.mk.inj hfound with ⟨rfl, rfl⟩
          exact ⟨text, body, rfl, hbody, rfl⟩
        · simp [literalOf?_of_ne hc] at h
  · rintro ⟨text, body, rfl, hbody, rfl⟩
    exact literalOf?_of_body? hq hbody

/-! ## What a literal takes -/

theorem literalOf?_append (hq : isQuote q = true) {p : Piece}
    (h : literalOf? q cs = some (p, rest)) (other : List Char) :
    literalOf? q (cs ++ other) = some (p, rest ++ other) := by
  rcases (literalOf?_eq_some_iff hq).1 h with ⟨text, body, rfl, hbody, rfl⟩
  exact literalOf?_of_body? hq (body?_append hbody other)

theorem chars_of_literalOf? (hq : isQuote q = true) {p : Piece}
    (h : literalOf? q cs = some (p, rest)) : cs = p.chars ++ rest := by
  rcases (literalOf?_eq_some_iff hq).1 h with ⟨text, body, rfl, hbody, rfl⟩
  simp [chars, eq_of_body? hbody]

/-- The first characters of a text have its literal exactly when they reach its closing quote. -/
theorem literalOf?_take_iff (hq : isQuote q = true) {p : Piece}
    (h : literalOf? q cs = some (p, rest)) (n : Nat) :
    (literalOf? q (cs.take n)).isSome = true ↔ p.chars.length ≤ n := by
  have hsplit : cs = p.chars ++ rest := chars_of_literalOf? hq h
  constructor
  · intro hsome
    rcases Option.isSome_iff_exists.1 hsome with ⟨⟨found, after⟩, hfound⟩
    have hlonger := literalOf?_append hq hfound (cs.drop n)
    rw [List.take_append_drop, h] at hlonger
    -- The literal read from the first characters is the literal of the whole text.
    rcases Prod.mk.inj (Option.some.inj hlonger) with ⟨rfl, -⟩
    have hlength := congrArg List.length (chars_of_literalOf? hq hfound)
    simp only [List.length_take, List.length_append] at hlength
    omega
  · intro hn
    rcases (literalOf?_eq_some_iff hq).1 h with ⟨text, body, rfl, hbody, rfl⟩
    have hclosed : body? q (body ++ q :: rest.take (n - (quoted q body).chars.length)) =
        some (body, rest.take (n - (quoted q body).chars.length)) := body?_of_body? hbody _
    have htake : (q :: text).take n =
        q :: (body ++ q :: rest.take (n - (quoted q body).chars.length)) := by
      rw [hsplit, List.take_append, List.take_of_length_le hn]
      simp [chars]
    rw [htake, literalOf?_of_body? hq hclosed]
    rfl

end Piece

/-! ## Quoted texts -/

/-- The quotes dropped and the escapes undone, a quoted text is the text that was quoted. -/
theorem unescape_inner_quote (s : String) :
    unescape (quote s).toList.tail.dropLast = s.toList := by
  have hread : unescape (escape s.toList) = s.toList := by
    simpa [unescape] using unescape_escape_append s.toList []
  simpa [Value.toList_quote, quoteChars] using hread

theorem literalOf?_quote (s : String) (rest : List Char) :
    Piece.literalOf? '\'' ((quote s).toList ++ rest) =
      some (.quoted '\'' (escape s.toList), rest) := by
  have hbody := body?_escape s.toList rest
  simpa [Value.toList_quote, quoteChars] using Piece.literalOf?_of_body? (by decide) hbody

theorem pieces_quote (s : String) (rest : List Char) :
    pieces ((quote s).toList ++ rest) = .quoted '\'' (escape s.toList) :: pieces rest := by
  have hbody := body?_escape s.toList rest
  simpa [Value.toList_quote, quoteChars] using pieces_quoted (by decide) hbody

theorem quote_append_inj {s t : String} {rest rest' : List Char}
    (h : (quote s).toList ++ rest = (quote t).toList ++ rest') : s = t ∧ rest = rest' := by
  rw [Value.toList_quote, Value.toList_quote] at h
  rcases quoteChars_append_inj h with ⟨htext, hrest⟩
  exact ⟨String.toList_inj.1 htext, hrest⟩

theorem quote_injective : Function.Injective quote := by
  intro s t h
  have hjoined : (quote s).toList ++ [] = (quote t).toList ++ [] := by rw [h]
  exact (quote_append_inj hjoined).1

/-- Whatever a text contains and whatever follows its quoted form, the scanner takes the quoted form
and nothing else; no shorter beginning has a literal, and the body stands for the text.  So two
quoted texts with something behind each are the same only if both parts are. -/
theorem scanned_quote (s t : String) (rest rest' : List Char) :
    Piece.literalOf? '\'' ((quote s).toList ++ rest) =
        some (.quoted '\'' (escape s.toList), rest) ∧
      (Piece.quoted '\'' (escape s.toList)).chars = (quote s).toList ∧
      pieces ((quote s).toList ++ rest) = .quoted '\'' (escape s.toList) :: pieces rest ∧
      (∀ n, (Piece.literalOf? '\'' (((quote s).toList ++ rest).take n)).isSome = true ↔
        (quote s).toList.length ≤ n) ∧
      unescape (quote s).toList.tail.dropLast = s.toList ∧
      ((quote s).toList ++ rest = (quote t).toList ++ rest' ↔ s = t ∧ rest = rest') ∧
      Function.Injective quote := by
  have hchars : (Piece.quoted '\'' (escape s.toList)).chars = (quote s).toList := by
    rw [Value.toList_quote]
    rfl
  refine ⟨literalOf?_quote s rest, hchars, pieces_quote s rest, ?_, unescape_inner_quote s, ?_,
    quote_injective⟩
  · intro n
    have hends := Piece.literalOf?_take_iff (by decide) (literalOf?_quote s rest) n
    rwa [hchars] at hends
  · constructor
    · exact quote_append_inj
    · rintro ⟨rfl, rfl⟩
      rfl

example : Piece.literalOf? '\'' "'it\\'s'' AND".toList =
    some (.quoted '\'' "it\\'s".toList, "' AND".toList) := by
  decide +kernel

end Condition
end GraphSql
