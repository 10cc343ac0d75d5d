/-!
# Quoted — literals between quotes, with backslash escapes

A quoted literal is a quote character, a body and the same quote character again; in the body a
backslash takes the next character with it, whatever that is.  This module has both directions:

* `escape`, `quote` — write a text as a single-quoted literal;
* `unescape` — drop the escaping backslashes of a body;
* `body?` — read the body up to the closing quote, and say what is left.

Main statements: `unescape_escape_append` and `body?_escape`.  Whatever a text contains, its escaped
form is read back as that text, and ends where the writer ended it.
-/

namespace GraphSql
namespace Text

/-! ## Writing -/

/-- The backslash and the single quote are written behind a backslash. -/
def escape (cs : List Char) : List Char :=
  cs.flatMap fun c => if c = '\\' ∨ c = '\'' then ['\\', c] else [c]

def quoteChars (cs : List Char) : List Char :=
  '\'' :: (escape cs ++ ['\''])

def quote (s : String) : String :=
  String.ofList (quoteChars s.toList)

/-! ## Reading -/

/-- A backslash stands for the character after it; one that ends the text stands for itself. -/
def unescape : List Char → List Char
  | [] => []
  | [c] => [c]
  | c :: d :: cs => if c = '\\' then d :: unescape cs else c :: unescape (d :: cs)

/-- The body before the closing `q` and the text after it; `none` when the literal never closes. -/
def body? (q : Char) : List Char → Option (List Char × List Char)
  | [] => none
  | [c] => if c = q then some ([], []) else none
  | c :: d :: cs =>
      if c = q then some ([], d :: cs)
      else if c = '\\' then (body? q cs).map fun found => (c :: d :: found.1, found.2)
      else (body? q (d :: cs)).map fun found => (c :: found.1, found.2)

/-- A body, its closing quote and the rest are all there was. -/
theorem eq_of_body? {q : Char} {cs body rest : List Char} (h : body? q cs = some (body, rest)) :
    cs = body ++ q :: rest := by
  fun_induction body? q cs generalizing body rest with
  | case1 => simp at h
  | case2 => simp_all
  | case3 => simp at h
  | case4 => simp_all
  | case5 d cs _ ih =>
      obtain ⟨found, hfound, heq⟩ := Option.map_eq_some_iff.1 h
      obtain ⟨rfl, rfl⟩ := Prod.mk.inj heq
      simp [ih hfound]
  | case6 c d cs _ _ ih =>
      obtain ⟨found, hfound, heq⟩ := Option.map_eq_some_iff.1 h
      obtain ⟨rfl, rfl⟩ := Prod.mk.inj heq
      simp [ih hfound]

theorem length_lt_of_body? {q : Char} {cs body rest : List Char}
    (h : body? q cs = some (body, rest)) : rest.length < cs.length := by
  rw [eq_of_body? h]
  simp
  omega

/-! ## Reading undoes writing -/

theorem escape_cons (c : Char) (cs : List Char) :
    escape (c :: cs) = (if c = '\\' ∨ c = '\'' then ['\\', c] else [c]) ++ escape cs :=
  List.flatMap_cons

theorem unescape_escape_append (cs rest : List Char) :
    unescape (escape cs ++ rest) = cs ++ unescape rest := by
  induction cs with
  | nil => rfl
  | cons c cs ih =>
      rw [escape_cons]
      by_cases h : c = '\\' ∨ c = '\''
      · simp [h, unescape, ih]
      · obtain ⟨hslash, hquote⟩ := not_or.1 h
        simp only [h, if_false, List.cons_append, List.nil_append]
        cases hrest : escape cs ++ rest with
        | nil => simp_all [unescape]
        | cons d ds =>
            rw [unescape, if_neg hslash, ← hrest, ih]

theorem body?_escape (cs rest : List Char) :
    body? '\'' (escape cs ++ '\'' :: rest) = some (escape cs, rest) := by
  induction cs with
  | nil => cases rest <;> simp [escape, body?]
  | cons c cs ih =>
      rw [escape_cons]
      by_cases h : c = '\\' ∨ c = '\''
      · simp [h, body?, ih]
      · obtain ⟨hslash, hquote⟩ := not_or.1 h
        simp only [h, if_false, List.cons_append, List.nil_append]
        cases hrest : escape cs ++ '\'' :: rest with
        | nil => simp at hrest
        | cons d ds =>
            rw [body?, if_neg hquote, if_neg hslash, ← hrest, ih]
            rfl

end Text
end GraphSql
