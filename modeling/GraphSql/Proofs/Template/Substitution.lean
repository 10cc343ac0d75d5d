import GraphSql.Proofs.Template.Filling
import GraphSql.Proofs.Text.Spacing

/-!
# Substitution — a filled template and the plain substitution of its answers

The plain substitution puts the answer for each placeholder in its place, and nothing for a
placeholder without one.  Filling a template drops blanks from it and does nothing else:

* `ink` — the characters of a text that are not blank;
* `ink_normalise` — normalising keeps them, in order;
* `normalise_eq_nil_or_framed` — what is left has no blank at either end;
* `substitute` — the plain substitution;
* `ink_fill` — what the template drops behind an absent placeholder is blank;
* `render_substitute` — the text of a template against the plain substitution.
-/

namespace GraphSql
namespace Text

variable {c : Char} {cs : List Char}

/-! ## Characters that are not blank -/

def ink (cs : List Char) : List Char :=
  cs.filter fun c => !isBlank c

theorem ink_append (xs ys : List Char) : ink (xs ++ ys) = ink xs ++ ink ys :=
  List.filter_append xs ys

theorem ink_cons_blank (hc : isBlank c = true) (cs : List Char) : ink (c :: cs) = ink cs := by
  simp [ink, hc]

theorem ink_cons_kept (hc : isBlank c = false) (cs : List Char) : ink (c :: cs) = c :: ink cs := by
  simp [ink, hc]

theorem ink_dropBlank (cs : List Char) : ink (dropBlank cs) = ink cs := by
  cases cs with
  | nil => rfl
  | cons c cs =>
      cases hc : isBlank c with
      | true => simpa [dropBlank, hc] using (ink_cons_blank hc cs).symm
      | false => simp [dropBlank, hc]

theorem ink_trimStart (cs : List Char) : ink (trimStart cs) = ink cs := by
  induction cs with
  | nil => rfl
  | cons c cs ih =>
      cases hc : isBlank c with
      | true =>
          calc
            ink (trimStart (c :: cs)) = ink (trimStart cs) := by rw [trimStart_cons_blank hc]
            _ = ink cs := ih
            _ = ink (c :: cs) := (ink_cons_blank hc cs).symm
      | false => rw [trimStart_cons_kept (by simp [hc])]

theorem ink_reverse (cs : List Char) : ink cs.reverse = (ink cs).reverse :=
  List.filter_reverse

theorem ink_trimEnd (cs : List Char) : ink (trimEnd cs) = ink cs := by
  have hback : ink (trimStart cs.reverse) = (ink cs).reverse := by
    simpa [ink_reverse] using ink_trimStart cs.reverse
  simp [trimEnd, ink_reverse, hback]

theorem ink_collapse (cs : List Char) : ink (collapse cs) = ink cs := by
  have hspace : isBlank ' ' = true := by decide
  induction cs with
  | nil => rfl
  | cons c cs ih =>
      by_cases hdrop : c = ' ' ∧ cs.head? = some ' '
      · have hcollapse : collapse (c :: cs) = collapse cs := if_pos hdrop
        rw [hcollapse, ih, hdrop.1, ink_cons_blank hspace]
      · rw [collapse_cons_kept hdrop]
        cases hc : isBlank c with
        | true => rw [ink_cons_blank hc, ink_cons_blank hc, ih]
        | false => rw [ink_cons_kept hc, ink_cons_kept hc, ih]

theorem ink_normalise (cs : List Char) : ink (normalise cs) = ink cs := by
  calc
    ink (normalise cs) = ink (trimEnd (trimStart cs)) := ink_collapse (trim cs)
    _ = ink (trimStart cs) := ink_trimEnd (trimStart cs)
    _ = ink cs := ink_trimStart cs

/-! ## The ends of a normalised text -/

theorem head?_trimStart (hc : (trimStart cs).head? = some c) : isBlank c = false := by
  have hhead := List.head?_dropWhile_not isBlank cs
  have htrim : (cs.dropWhile isBlank).head? = some c := hc
  simpa [htrim] using hhead

theorem getLast?_trimEnd (hc : (trimEnd cs).getLast? = some c) : isBlank c = false := by
  have hhead : (trimStart cs.reverse).head? = some c := by
    simpa [trimEnd] using hc
  exact head?_trimStart hhead

theorem head?_trimEnd (hc : (trimEnd cs).head? = some c) : cs.head? = some c := by
  cases cs with
  | nil => simp [trimEnd, trimStart] at hc
  | cons d ds =>
      rw [trimEnd_cons] at hc
      split at hc
      · simp at hc
      · simpa using hc

theorem getLast?_collapse (cs : List Char) : (collapse cs).getLast? = cs.getLast? := by
  induction cs with
  | nil => rfl
  | cons c cs ih =>
      by_cases hdrop : c = ' ' ∧ cs.head? = some ' '
      · have hcollapse : collapse (c :: cs) = collapse cs := if_pos hdrop
        -- The space that is dropped is not the last character.
        rcases List.head?_eq_some_iff.1 hdrop.2 with ⟨ds, rfl⟩
        rw [hcollapse, ih, List.getLast?_cons_cons]
      · rw [collapse_cons_kept hdrop]
        simp [List.getLast?_cons, ih]

/-- A normalised text is empty, or it starts and ends with characters that are not blank. -/
theorem normalise_eq_nil_or_framed (cs : List Char) : normalise cs = [] ∨ Framed (normalise cs) := by
  by_cases hnil : normalise cs = []
  · exact Or.inl hnil
  · have hfirst : ∀ c, (normalise cs).head? = some c → isBlank c = false := by
      intro c hc
      have htrim : (trimEnd (trimStart cs)).head? = some c := by
        simpa [normalise, trim, head?_collapse] using hc
      exact head?_trimStart (head?_trimEnd htrim)
    have hlast : ∀ c, (normalise cs).getLast? = some c → isBlank c = false := by
      intro c hc
      have htrim : (trimEnd (trimStart cs)).getLast? = some c := by
        simpa [normalise, trim, getLast?_collapse] using hc
      exact getLast?_trimEnd htrim
    have hhead := List.head?_eq_some_head hnil
    have hend := List.getLast?_eq_some_getLast hnil
    exact Or.inr ⟨⟨_, hhead, hfirst _ hhead⟩, ⟨_, hend, hlast _ hend⟩⟩

end Text

/-! ## Plain substitution -/

open Text

/-- What stands for a segment when every placeholder has its answer put in its place. -/
def Segment.substituted (answer : Nat → String → Option String) : Segment → List Char
  | .literal text => text.toList
  | .placeholder name slot => ((answer slot name).getD "").toList

namespace Template

def substitute (answer : Nat → String → Option String) (segments : List Segment) : List Char :=
  segments.flatMap (Segment.substituted answer)

variable {ε : Type} {answer : Nat → String → Option String}

theorem ink_fill (answer : Nat → String → Option String) (gap : Bool) (segments : List Segment) :
    ∃ out, fill (fun slot name => (.ok (answer slot name) : Except ε (Option String))) gap
        segments = .ok out ∧ ink out = ink (substitute answer segments) := by
  induction segments generalizing gap with
  | nil => exact ⟨[], rfl, rfl⟩
  | cons segment rest ih =>
      cases segment with
      | literal text =>
          rcases ih false with ⟨more, hmore, hink⟩
          refine ⟨_, by rw [fill_literal, hmore]; rfl, ?_⟩
          -- With a gap in front the literal gives up a blank at most.
          have hfront : ink (if gap then dropBlank text.toList else text.toList) =
              ink text.toList := by
            cases gap with
            | true => exact ink_dropBlank text.toList
            | false => rfl
          simp [ink_append, hfront, hink, substitute, Segment.substituted]
      | placeholder name slot =>
          cases hanswer : answer slot name with
          | none =>
              rcases ih true with ⟨more, hmore, hink⟩
              refine ⟨more, ?_, ?_⟩
              · rw [fill_absent rest (congrArg Except.ok hanswer), hmore]
              · simpa [substitute, Segment.substituted, hanswer] using hink
          | some text =>
              rcases ih false with ⟨more, hmore, hink⟩
              refine ⟨_, by rw [fill_present rest (congrArg Except.ok hanswer), hmore]; rfl, ?_⟩
              simp [ink_append, hink, substitute, Segment.substituted, hanswer]

/-- Whatever the answers are, there is a text.  It differs from the plain substitution in blanks
only, has none at either end, and has no two spaces in a row. -/
theorem render_substitute (source : String) (answer : Nat → String → Option String) :
    ∃ text : String,
      (compile source).render
          (fun slot name => (.ok (answer slot name) : Except ε (Option String))) = .ok text ∧
        ink text.toList = ink (substitute answer (compile source).segments) ∧
        (text.toList = [] ∨ Framed text.toList) ∧ ¬TwoSpaces text.toList := by
  rcases ink_fill (ε := ε) answer false (compile source).segments with ⟨out, hout, hink⟩
  refine ⟨String.ofList (normalise out), ?_, ?_, ?_, ?_⟩
  · rw [render_eq_fill, hout]
    rfl
  · simpa [ink_normalise] using hink
  · simpa using normalise_eq_nil_or_framed out
  · simpa [normalise] using not_twoSpaces_collapse (trim out)

end Template
end GraphSql
