import GraphSql.Proofs.Result
import GraphSql.Proofs.Text.Spacing
import GraphSql.Template

/-!
# Filling — what the answers for the placeholders become

`Template.fill` puts the answer for each placeholder into the text and leaves the literals around
it.  It gives the text of the segments that are left, so that it goes along with them; the text that
`Template.write` has so far is in front of it:

* `render_eq_fill` — the rendered text is the filled one, normalised;
* `exists_answer_of_fill` — if there is a text, every placeholder has an answer, and the answer is
  part of the text;
* `LeftmostFault`, `fill_eq_error_iff` — otherwise the error is that of the leftmost placeholder
  without one;
* `fill_congr` — the answers for the placeholders are all that matters;
* `exists_fill_related` — two look-ups with related answers fill the template with related texts,
  for any relation that allows joining.
-/

namespace GraphSql
namespace Template

variable {ε : Type} {lookup : Nat → String → Except ε (Option String)}

def fill (lookup : Nat → String → Except ε (Option String)) (gap : Bool) :
    List Segment → Except ε (List Char)
  | [] => .ok []
  | .literal text :: rest => do
      let more ← fill lookup false rest
      return (if gap then Text.dropBlank text.toList else text.toList) ++ more
  | .placeholder name slot :: rest => do
      match ← lookup slot name with
      | some text =>
          let more ← fill lookup false rest
          return text.toList ++ more
      | none => fill lookup true rest

/-! ## Equations -/

theorem fill_literal (gap : Bool) (text : String) (rest : List Segment) :
    fill lookup gap (.literal text :: rest) =
      (fill lookup false rest).map fun more =>
        (if gap then Text.dropBlank text.toList else text.toList) ++ more := by
  rw [fill]
  cases fill lookup false rest <;> rfl

theorem fill_present {gap : Bool} {name text : String} {slot : Nat} (rest : List Segment)
    (h : lookup slot name = .ok (some text)) :
    fill lookup gap (.placeholder name slot :: rest) =
      (fill lookup false rest).map fun more => text.toList ++ more := by
  rw [fill, h]
  simp only [bind, Except.bind]
  cases fill lookup false rest <;> rfl

theorem fill_absent {gap : Bool} {name : String} {slot : Nat} (rest : List Segment)
    (h : lookup slot name = .ok none) :
    fill lookup gap (.placeholder name slot :: rest) = fill lookup true rest := by
  rw [fill, h]
  rfl

theorem fill_fault {gap : Bool} {name : String} {slot : Nat} {e : ε} (rest : List Segment)
    (h : lookup slot name = .error e) :
    fill lookup gap (.placeholder name slot :: rest) = .error e := by
  rw [fill, h]
  rfl

/-! ## The rendered text -/

/-- A blank that the text gives up for a placeholder at the end is one that trimming drops. -/
theorem map_normalise_write (lookup : Nat → String → Except ε (Option String)) (out : List Char)
    (gap : Bool) (segments : List Segment) :
    (write lookup out gap segments).map Text.normalise =
      (fill lookup gap segments).map fun more => Text.normalise (out ++ more) := by
  induction segments generalizing out gap with
  | nil => simp [write, fill, Except.map]
  | cons segment rest ih =>
      cases segment with
      | literal text =>
          rw [write, ih, fill_literal]
          cases fill lookup false rest <;> simp [Except.map]
      | placeholder name slot =>
          cases hlookup : lookup slot name with
          | error e =>
              rw [fill_fault rest hlookup, write, hlookup]
              rfl
          | ok answer =>
              rw [write, hlookup]
              cases answer with
              | some text =>
                  rw [fill_present rest hlookup]
                  simp only [bind, Except.bind, ih]
                  cases fill lookup false rest <;> simp [Except.map]
              | none =>
                  rw [fill_absent rest hlookup]
                  cases rest with
                  | nil => simp [bind, Except.bind, fill, Except.map, Text.normalise_dropLastBlank]
                  | cons next rest => simpa [bind, Except.bind] using ih out true

theorem render_eq_fill (t : Template) (lookup : Nat → String → Except ε (Option String)) :
    t.render lookup =
      (fill lookup false t.segments).map fun cs => String.ofList (Text.normalise cs) := by
  calc
    t.render lookup = ((write lookup [] false t.segments).map Text.normalise).map String.ofList := by
      rw [render]
      cases write lookup [] false t.segments <;> rfl
    _ = ((fill lookup false t.segments).map Text.normalise).map String.ofList := by
      simp [map_normalise_write]
    _ = (fill lookup false t.segments).map fun cs => String.ofList (Text.normalise cs) := by
      cases fill lookup false t.segments <;> rfl

/-! ## One run -/

theorem exists_answer_of_fill {gap : Bool} {segments : List Segment} {out : List Char}
    {name : String} {slot : Nat} :
    fill lookup gap segments = .ok out → .placeholder name slot ∈ segments →
      ∃ answer, lookup slot name = .ok answer ∧
        ∀ text, answer = some text → text.toList <:+: out := by
  intro h hmem
  induction segments generalizing gap out with
  | nil => simp at hmem
  | cons segment rest ih =>
      cases segment with
      | literal text =>
          rw [fill_literal, Result.map_eq_ok_iff] at h
          rcases h with ⟨more, hmore, rfl⟩
          have hrest : .placeholder name slot ∈ rest := by simpa using hmem
          rcases ih hmore hrest with ⟨answer, hanswer, hin⟩
          refine ⟨answer, hanswer, ?_⟩
          intro text htext
          exact List.infix_append_of_infix_right (hin text htext)
      | placeholder other number =>
          cases hother : lookup number other with
          | error e =>
              rw [fill_fault rest hother] at h
              simp at h
          | ok found =>
              cases found with
              -- An absent answer only changes what the next literal loses.
              | none =>
                  rw [fill_absent rest hother] at h
                  rcases List.mem_cons.1 hmem with heq | hrest
                  -- The placeholder is this one, and it contributes nothing.
                  · cases heq
                    exact ⟨none, hother, by simp⟩
                  · exact ih h hrest
              | some text =>
                  rw [fill_present rest hother, Result.map_eq_ok_iff] at h
                  rcases h with ⟨more, hmore, rfl⟩
                  rcases List.mem_cons.1 hmem with heq | hrest
                  · cases heq
                    refine ⟨some text, hother, ?_⟩
                    intro _ htext
                    cases htext
                    exact List.infix_append_left
                  · rcases ih hmore hrest with ⟨answer, hanswer, hin⟩
                    refine ⟨answer, hanswer, ?_⟩
                    intro text htext
                    exact List.infix_append_of_infix_right (hin text htext)

/-! ## Faults -/

/-- Of the placeholders whose look-ups fail, the leftmost one fails with this error. -/
def LeftmostFault (lookup : Nat → String → Except ε (Option String)) (e : ε)
    (segments : List Segment) : Prop :=
  ∃ front name slot back, segments = front ++ .placeholder name slot :: back ∧
    (∀ other number, .placeholder other number ∈ front →
      ∃ answer, lookup number other = .ok answer) ∧ lookup slot name = .error e

/-- A segment in front of the fault only has to have an answer. -/
theorem leftmostFault_cons_iff {e : ε} {segment : Segment} {rest : List Segment}
    (hanswer : ∀ name slot, segment = .placeholder name slot →
      ∃ answer, lookup slot name = .ok answer) :
    LeftmostFault lookup e (segment :: rest) ↔ LeftmostFault lookup e rest := by
  constructor
  · rintro ⟨front, name, slot, back, hsplit, hfront, herror⟩
    cases front with
    | nil =>
        rcases List.cons.inj hsplit with ⟨rfl, rfl⟩
        rcases hanswer name slot rfl with ⟨answer, hok⟩
        simp [hok] at herror
    | cons first front =>
        rcases List.cons.inj hsplit with ⟨rfl, rfl⟩
        exact ⟨front, name, slot, back, rfl,
          fun other number hmem => hfront other number (List.mem_cons_of_mem _ hmem), herror⟩
  · rintro ⟨front, name, slot, back, rfl, hfront, herror⟩
    refine ⟨segment :: front, name, slot, back, rfl, ?_, herror⟩
    intro other number hmem
    rcases List.mem_cons.1 hmem with heq | hmem
    · exact hanswer other number heq.symm
    · exact hfront other number hmem

theorem leftmostFault_fault_iff {e e' : ε} {name : String} {slot : Nat} (rest : List Segment)
    (hfault : lookup slot name = .error e') :
    LeftmostFault lookup e (.placeholder name slot :: rest) ↔ e' = e := by
  constructor
  · rintro ⟨front, other, number, back, hsplit, hfront, herror⟩
    cases front with
    | nil =>
        rcases List.cons.inj hsplit with ⟨heq, rfl⟩
        cases heq
        exact Except.error.inj (hfault.symm.trans herror)
    | cons segment front =>
        rcases List.cons.inj hsplit with ⟨rfl, rfl⟩
        rcases hfront name slot List.mem_cons_self with ⟨answer, hok⟩
        simp [hfault] at hok
  · rintro rfl
    exact ⟨[], name, slot, rest, rfl, by simp, hfault⟩

/-- A look-up that answers and fails where another one does has the same fault. -/
theorem LeftmostFault.of_lookup {other : Nat → String → Except ε (Option String)} {e : ε}
    {segments : List Segment} (h : LeftmostFault lookup e segments)
    (hok : ∀ name slot, .placeholder name slot ∈ segments →
      ∀ answer, lookup slot name = .ok answer → ∃ answer, other slot name = .ok answer)
    (herror : ∀ name slot, .placeholder name slot ∈ segments →
      lookup slot name = .error e → other slot name = .error e) :
    LeftmostFault other e segments := by
  rcases h with ⟨front, name, slot, back, rfl, hfront, hfault⟩
  refine ⟨front, name, slot, back, rfl, ?_, herror name slot (by simp) hfault⟩
  intro other number hmem
  rcases hfront other number hmem with ⟨answer, hanswer⟩
  exact hok other number (List.mem_append_left _ hmem) answer hanswer

/-- Filling fails with the leftmost fault, and only then. -/
theorem fill_eq_error_iff {gap : Bool} {segments : List Segment} {e : ε} :
    fill lookup gap segments = .error e ↔ LeftmostFault lookup e segments := by
  induction segments generalizing gap with
  | nil => simp [fill, LeftmostFault]
  | cons segment rest ih =>
      cases segment with
      | literal text =>
          rw [fill_literal, Result.map_eq_error_iff, ih, leftmostFault_cons_iff (by simp)]
      | placeholder name slot =>
          cases hlookup : lookup slot name with
          | error e' => simp [fill_fault rest hlookup, leftmostFault_fault_iff rest hlookup]
          | ok answer =>
              have hanswer : ∀ other number,
                  Segment.placeholder name slot = .placeholder other number →
                    ∃ answer, lookup number other = .ok answer := by
                intro other number heq
                cases heq
                exact ⟨answer, hlookup⟩
              rw [leftmostFault_cons_iff hanswer]
              cases answer with
              | none => rw [fill_absent rest hlookup, ih]
              | some text => rw [fill_present rest hlookup, Result.map_eq_error_iff, ih]

/-! ## Two runs -/

/-- Only the answers for the placeholders of the template matter. -/
theorem fill_congr {other : Nat → String → Except ε (Option String)} {segments : List Segment}
    (h : ∀ name slot, .placeholder name slot ∈ segments → lookup slot name = other slot name)
    (gap : Bool) : fill lookup gap segments = fill other gap segments := by
  induction segments generalizing gap with
  | nil => rfl
  | cons segment rest ih =>
      have hrest := ih fun name slot hmem => h name slot (List.mem_cons_of_mem _ hmem)
      cases segment with
      | literal text => rw [fill_literal, fill_literal, hrest]
      | placeholder name slot =>
          have hfirst := h name slot List.mem_cons_self
          rw [fill, fill, hfirst, hrest, hrest]

/-- Two answers are related when both are absent, or both are present with related texts. -/
inductive AnswersRelated (R : List Char → List Char → Prop) :
    Except ε (Option String) → Except ε (Option String) → Prop
  | absent : AnswersRelated R (.ok none) (.ok none)
  | present {text other : String} :
      R text.toList other.toList → AnswersRelated R (.ok (some text)) (.ok (some other))

theorem exists_fill_related {other : Nat → String → Except ε (Option String)}
    {R : List Char → List Char → Prop} (hnil : R [] [])
    (happend : ∀ {a b c d : List Char}, R a b → R c d → R (a ++ c) (b ++ d))
    {segments : List Segment}
    (hliteral : ∀ text, .literal text ∈ segments →
      R text.toList text.toList ∧ R (Text.dropBlank text.toList) (Text.dropBlank text.toList))
    (hlookup : ∀ name slot, .placeholder name slot ∈ segments →
      AnswersRelated R (lookup slot name) (other slot name)) (gap : Bool) :
    ∃ out out', fill lookup gap segments = .ok out ∧ fill other gap segments = .ok out' ∧
      R out out' := by
  induction segments generalizing gap with
  | nil => exact ⟨[], [], rfl, rfl, hnil⟩
  | cons segment rest ih =>
      have hrest : ∀ gap, ∃ out out', fill lookup gap rest = .ok out ∧
          fill other gap rest = .ok out' ∧ R out out' := by
        intro gap
        refine ih ?_ ?_ gap
        · intro text hmem
          exact hliteral text (List.mem_cons_of_mem _ hmem)
        · intro name slot hmem
          exact hlookup name slot (List.mem_cons_of_mem _ hmem)
      cases segment with
      | literal text =>
          rcases hrest false with ⟨more, more', hmore, hmore', hR⟩
          -- The literal loses its blank in both texts or in none, since the gap is the same.
          have hfront : R (if gap then Text.dropBlank text.toList else text.toList)
              (if gap then Text.dropBlank text.toList else text.toList) := by
            have hboth := hliteral text List.mem_cons_self
            split
            · exact hboth.2
            · exact hboth.1
          refine ⟨_, _, ?_, ?_, happend hfront hR⟩
          · rw [fill_literal, hmore]
            rfl
          · rw [fill_literal, hmore']
            rfl
      | placeholder name slot =>
          have hanswers := hlookup name slot List.mem_cons_self
          generalize hfirst : lookup slot name = first at hanswers
          generalize hsecond : other slot name = second at hanswers
          cases hanswers with
          | absent =>
              rw [fill_absent rest hfirst, fill_absent rest hsecond]
              exact hrest true
          | present htexts =>
              rcases hrest false with ⟨more, more', hmore, hmore', hR⟩
              refine ⟨_, _, ?_, ?_, happend htexts hR⟩
              · rw [fill_present rest hfirst, hmore]
                rfl
              · rw [fill_present rest hsecond, hmore']
                rfl

end Template
end GraphSql
