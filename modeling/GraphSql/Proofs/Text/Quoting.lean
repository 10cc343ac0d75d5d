import GraphSql.Text.Quoted

/-!
# Quoting — what a quoted literal denotes

The reader goes through the body of a literal character by character, and what stands behind the
closing quote does not matter to it:

* `body?_close`, `body?_escaped`, `body?_cons` — one step of the reader;
* `body?_of_body?` — a body that was read once is read again in front of any other text;
* `denoted?` — the text that a whole literal stands for, its quotes dropped and its escapes undone;
* `denoted?_quoteChars` — an escaped literal denotes the text that was escaped;
* `denoted?_verbatim_iff` — a text that was put between quotes without escapes is denoted exactly
  when there was nothing to escape.
-/

namespace GraphSql
namespace Text

variable {q c d : Char} {cs body rest : List Char}

/-! ## Steps of the reader -/

theorem body?_close (q : Char) (cs : List Char) : body? q (q :: cs) = some ([], cs) := by
  cases cs <;> simp [body?]

theorem body?_escaped (hq : '\\' ≠ q) (d : Char) (cs : List Char) :
    body? q ('\\' :: d :: cs) = (body? q cs).map fun found => ('\\' :: d :: found.1, found.2) := by
  simp [body?, hq]

theorem body?_cons (hq : c ≠ q) (hslash : c ≠ '\\') (cs : List Char) :
    body? q (c :: cs) = (body? q cs).map fun found => (c :: found.1, found.2) := by
  cases cs <;> simp [body?, hq, hslash]

/-- The body ends at its own closing quote, whatever follows. -/
theorem body?_of_body? (h : body? q cs = some (body, rest)) (other : List Char) :
    body? q (body ++ q :: other) = some (body, other) := by
  fun_induction body? q cs generalizing body rest with
  | case1 => simp at h
  | case2 =>
      have hbody : body = [] := by simp_all
      simpa [hbody] using body?_close q other
  | case3 => simp at h
  | case4 =>
      have hbody : body = [] := by simp_all
      simpa [hbody] using body?_close q other
  | case5 d cs hq ih =>
      rcases Option.map_eq_some_iff.1 h with ⟨found, hfound, heq⟩
      cases heq
      have hrest := ih hfound
      simpa [hrest] using body?_escaped hq d (found.1 ++ q :: other)
  | case6 c d cs hq hslash ih =>
      rcases Option.map_eq_some_iff.1 h with ⟨found, hfound, heq⟩
      cases heq
      have hrest := ih hfound
      simpa [hrest] using body?_cons hq hslash (found.1 ++ q :: other)

theorem body?_append (h : body? q cs = some (body, rest)) (other : List Char) :
    body? q (cs ++ other) = some (body, rest ++ other) := by
  have hsplit : cs ++ other = body ++ q :: (rest ++ other) := by
    simp [eq_of_body? h]
  simpa [hsplit] using body?_of_body? h (rest ++ other)

/-! ## Undoing escapes -/

theorem unescape_cons (hslash : c ≠ '\\') (cs : List Char) :
    unescape (c :: cs) = c :: unescape cs := by
  cases cs <;> simp [unescape, hslash]

theorem length_unescape_le (cs : List Char) : (unescape cs).length ≤ cs.length := by
  fun_induction unescape cs with
  | case1 => exact Nat.le_refl _
  | case2 => exact Nat.le_refl _
  | case3 d cs ih =>
      have hshorter : (unescape cs).length + 1 ≤ cs.length + 2 := by omega
      simpa using hshorter
  | case4 c d cs _ ih => simpa using ih

theorem unescape_eq_self (h : '\\' ∉ cs) : unescape cs = cs := by
  induction cs with
  | nil => rfl
  | cons c cs ih =>
      have hparts : '\\' ≠ c ∧ '\\' ∉ cs := by simpa using h
      have hrest := ih hparts.2
      simpa [hrest] using unescape_cons (Ne.symm hparts.1) cs

/-- A body that has no escapes to undo has neither backslashes nor quotes. -/
theorem not_mem_of_unescape_eq_self (h : body? q cs = some (body, rest))
    (hself : unescape body = body) : q ∉ body ∧ '\\' ∉ body := by
  fun_induction body? q cs generalizing body rest with
  | case1 => simp at h
  | case2 => simp_all
  | case3 => simp at h
  | case4 => simp_all
  | case5 d cs hq ih =>
      rcases Option.map_eq_some_iff.1 h with ⟨found, hfound, heq⟩
      cases heq
      -- Undoing the escape at the front makes the body shorter.
      have hlength := congrArg List.length hself
      have hle := length_unescape_le found.1
      simp [unescape] at hlength
      omega
  | case6 c d cs hq hslash ih =>
      rcases Option.map_eq_some_iff.1 h with ⟨found, hfound, heq⟩
      cases heq
      have hrest : unescape found.1 = found.1 := by
        simpa [unescape_cons hslash] using hself
      have hfree := ih hfound hrest
      exact ⟨by simp [hfree.1, Ne.symm hq], by simp [hfree.2, Ne.symm hslash]⟩

/-! ## Whole literals -/

/-- The text that `cs` stands for, when it is one literal between two `q` and nothing else. -/
def denoted? (q : Char) : List Char → Option (List Char)
  | [] => none
  | c :: cs =>
      if c = q then
        match body? q cs with
        | some (body, []) => some (unescape body)
        | _ => none
      else
        none

theorem denoted?_eq_some_iff {found : List Char} :
    denoted? q (q :: cs) = some found ↔ ∃ body, body? q cs = some (body, []) ∧
      unescape body = found := by
  rw [denoted?, if_pos rfl]
  constructor
  · intro h
    split at h
    · rename_i body hbody
      exact ⟨body, hbody, Option.some.inj h⟩
    · simp at h
  · rintro ⟨body, hbody, rfl⟩
    simp [hbody]

theorem denoted?_quoteChars (cs : List Char) : denoted? '\'' (quoteChars cs) = some cs := by
  have hbody : body? '\'' (escape cs ++ ['\'']) = some (escape cs, []) := body?_escape cs []
  have hread : unescape (escape cs) = cs := by
    simpa [unescape] using unescape_escape_append cs []
  exact denoted?_eq_some_iff.2 ⟨escape cs, hbody, hread⟩

theorem body?_verbatim (hq : q ∉ cs) (hslash : '\\' ∉ cs) (rest : List Char) :
    body? q (cs ++ q :: rest) = some (cs, rest) := by
  induction cs with
  | nil => exact body?_close q rest
  | cons c cs ih =>
      have hquotes : q ≠ c ∧ q ∉ cs := by simpa using hq
      have hslashes : '\\' ≠ c ∧ '\\' ∉ cs := by simpa using hslash
      have hrest := ih hquotes.2 hslashes.2
      simpa [hrest] using body?_cons (Ne.symm hquotes.1) (Ne.symm hslashes.1) (cs ++ q :: rest)

/-- Quotes alone do for a text that has neither the quote nor a backslash, and for no other. -/
theorem denoted?_verbatim_iff (q : Char) (cs : List Char) :
    denoted? q (q :: (cs ++ [q])) = some cs ↔ q ∉ cs ∧ '\\' ∉ cs := by
  constructor
  · intro h
    rcases denoted?_eq_some_iff.1 h with ⟨body, hbody, hread⟩
    have hsame : cs = body := List.append_cancel_right (eq_of_body? hbody)
    cases hsame
    exact not_mem_of_unescape_eq_self hbody hread
  · rintro ⟨hq, hslash⟩
    exact denoted?_eq_some_iff.2 ⟨cs, body?_verbatim hq hslash [], unescape_eq_self hslash⟩

example : denoted? '"' "\"a\"b\"".toList = none := by decide

example : denoted? '"' "\"a\\\\b\"".toList = some "a\\b".toList := by decide

end Text
end GraphSql
