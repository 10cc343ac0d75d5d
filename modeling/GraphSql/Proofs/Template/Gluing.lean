import GraphSql.Proofs.Template.Gaps
import GraphSql.Proofs.Template.Segmentation
import Mathlib.Data.List.Nodup

/-!
# Gluing — when a filled template loses what keeps two neighbours apart

An absent placeholder takes the blank behind it along, and what is in front of it does not matter.
Where that blank is all there is between two characters, they are glued together:

* `marks` — the plain substitution, with the blanks that absent placeholders take;
* `fill_eq_kept` — filling a template keeps the other characters;
* `parted_render_iff` — two neighbours stay apart exactly when a blank between them is kept;
* `exists_of_taken` — where a taken blank stands in the template;
* `glues` — the templates in which it can stand alone;
* `parted_render` — in all other templates, and in no other, neighbours stay apart whatever is
  absent.
-/

namespace GraphSql

open Text

/-! ## Taken blanks -/

/-- A character of the plain substitution, and whether the filled template keeps it. -/
structure Mark where
  char : Char
  kept : Bool

namespace Mark

def keep (c : Char) : Mark :=
  ⟨c, true⟩

def blank (m : Mark) : Bool :=
  isBlank m.char

theorem kept_of_mem_map_keep {m : Mark} {cs : List Char} (h : m ∈ cs.map keep) : m.kept = true := by
  rcases List.mem_map.1 h with ⟨c, _, rfl⟩
  rfl

theorem map_char_keep (cs : List Char) : (cs.map keep).map char = cs := by
  simp [Function.comp_def, keep]

theorem filter_kept_keep (cs : List Char) : (cs.map keep).filter kept = cs.map keep :=
  List.filter_eq_self.2 fun _ => kept_of_mem_map_keep

end Mark

namespace Template

variable {ε : Type} {answer : Nat → String → Option String} {gap : Bool}

/-- Behind an absent placeholder the first character is taken if it is blank. -/
def markLiteral (gap : Bool) : List Char → List Mark
  | [] => []
  | c :: cs => ⟨c, !(gap && isBlank c)⟩ :: cs.map Mark.keep

/-- The plain substitution of the answers; `gap` tells that an absent placeholder is in front. -/
def marks (answer : Nat → String → Option String) (gap : Bool) : List Segment → List Mark
  | [] => []
  | .literal text :: rest => markLiteral gap text.toList ++ marks answer false rest
  | .placeholder name slot :: rest =>
      match answer slot name with
      | some text => text.toList.map Mark.keep ++ marks answer false rest
      | none => marks answer true rest

theorem marks_present {name text : String} {slot : Nat} (h : answer slot name = some text)
    (rest : List Segment) : marks answer gap (.placeholder name slot :: rest) =
      text.toList.map Mark.keep ++ marks answer false rest := by
  rw [marks, h]

theorem marks_absent {name : String} {slot : Nat} (h : answer slot name = none)
    (rest : List Segment) :
    marks answer gap (.placeholder name slot :: rest) = marks answer true rest := by
  rw [marks, h]

theorem map_char_marks (answer : Nat → String → Option String) (gap : Bool)
    (segments : List Segment) :
    (marks answer gap segments).map Mark.char = substitute answer segments := by
  induction segments generalizing gap with
  | nil => rfl
  | cons segment rest ih =>
      cases segment with
      | literal text =>
          have hliteral : (markLiteral gap text.toList).map Mark.char = text.toList := by
            cases text.toList with
            | nil => rfl
            | cons c cs => simp [markLiteral, Function.comp_def, Mark.keep]
          rw [marks, List.map_append, hliteral, ih]
          rfl
      | placeholder name slot =>
          cases hanswer : answer slot name with
          | none =>
              rw [marks_absent hanswer, ih]
              simp [substitute, Segment.substituted, hanswer]
          | some text =>
              rw [marks_present hanswer, List.map_append, Mark.map_char_keep, ih]
              simp [substitute, Segment.substituted, hanswer]

/-- Filling a template with the answers keeps all characters but the taken ones. -/
theorem fill_eq_kept (answer : Nat → String → Option String) (gap : Bool)
    (segments : List Segment) :
    fill (fun slot name => (.ok (answer slot name) : Except ε (Option String))) gap segments =
      .ok (((marks answer gap segments).filter Mark.kept).map Mark.char) := by
  induction segments generalizing gap with
  | nil => rfl
  | cons segment rest ih =>
      cases segment with
      | literal text =>
          have hliteral : ((markLiteral gap text.toList).filter Mark.kept).map Mark.char =
              if gap then dropBlank text.toList else text.toList := by
            cases text.toList with
            | nil => cases gap <;> rfl
            | cons c cs =>
                have hrest := Mark.map_char_keep cs
                cases gap <;> cases hc : isBlank c <;>
                  simp [markLiteral, dropBlank, hc, Mark.filter_kept_keep, hrest]
          rw [fill_literal, ih, marks, List.filter_append, List.map_append, hliteral]
          rfl
      | placeholder name slot =>
          cases hanswer : answer slot name with
          | none => rw [fill_absent rest (congrArg Except.ok hanswer), ih, marks_absent hanswer]
          | some text =>
              rw [fill_present rest (congrArg Except.ok hanswer), ih, marks_present hanswer,
                List.filter_append, List.map_append, Mark.filter_kept_keep, Mark.map_char_keep]
              rfl

theorem kept_of_not_blank {segments : List Segment} {m : Mark} :
    m ∈ marks answer gap segments → m.blank = false → m.kept = true := by
  intro hmem hm
  induction segments generalizing gap with
  | nil => simp [marks] at hmem
  | cons segment rest ih =>
      cases segment with
      | literal text =>
          rcases List.mem_append.1 hmem with hliteral | hrest
          · cases htext : text.toList with
            | nil => simp [htext, markLiteral] at hliteral
            | cons c cs =>
                rw [htext, markLiteral] at hliteral
                rcases List.mem_cons.1 hliteral with rfl | hkeep
                · have hc : isBlank c = false := hm
                  simp [hc]
                · exact Mark.kept_of_mem_map_keep hkeep
          · exact ih hrest
      | placeholder name slot =>
          cases hanswer : answer slot name with
          | none =>
              rw [marks_absent hanswer] at hmem
              exact ih hmem
          | some text =>
              rw [marks_present hanswer] at hmem
              rcases List.mem_append.1 hmem with hkeep | hrest
              · exact Mark.kept_of_mem_map_keep hkeep
              · exact ih hrest

/-- Two neighbours of the plain substitution are apart in the text of the template exactly when one
of the blanks between them is kept. -/
theorem parted_render_iff {t : Template} {text : String} {i : Nat} {between : List Mark}
    (h : t.render (fun slot name => (.ok (answer slot name) : Except ε (Option String))) = .ok text)
    (hbetween : Between Mark.blank i between (marks answer false t.segments)) :
    Parted i text.toList ↔ ∃ m ∈ between, m.kept = true := by
  have hkept : Between Mark.blank i (between.filter Mark.kept)
      ((marks answer false t.segments).filter Mark.kept) :=
    hbetween.filter fun _ => kept_of_not_blank
  have hchars : Between isBlank i ((between.filter Mark.kept).map Mark.char)
      (((marks answer false t.segments).filter Mark.kept).map Mark.char) := Between.map hkept
  rw [render_eq_fill, fill_eq_kept] at h
  rw [← Except.ok.inj h, String.toList_ofList, hchars.parted_normalise_iff]
  simp [List.filter_eq_nil_iff]

/-! ## Where blanks are taken -/

/-- The mark is on the first character of a literal, the first segment, and the rest is behind. -/
def Leads (answer : Nat → String → Option String) (m : Mark) (back : List Mark)
    (segments : List Segment) : Prop :=
  ∃ text cs rest, segments = .literal text :: rest ∧ text.toList = m.char :: cs ∧
    back = cs.map Mark.keep ++ marks answer false rest

theorem exists_of_append {α : Type} {xs ys front back : List α} {m : α} (hm : m ∉ xs)
    (h : xs ++ ys = front ++ m :: back) :
    ∃ more, front = xs ++ more ∧ ys = more ++ m :: back := by
  rcases List.append_eq_append_iff.1 h with ⟨more, hfront, hys⟩ | ⟨inner, rfl, hback⟩
  · exact ⟨more, hfront, hys⟩
  · cases inner with
    | nil => exact ⟨[], by simp, by simpa using hback.symm⟩
    | cons x inner =>
        rcases List.cons.inj hback with ⟨rfl, _⟩
        simp at hm

/-- A taken blank leads a literal behind a placeholder, or behind the gap that was there before. -/
theorem exists_of_taken {segments : List Segment} {front back : List Mark} {m : Mark}
    (h : marks answer gap segments = front ++ m :: back) (hm : m.kept = false) :
    (gap = true ∧ front = [] ∧ Leads answer m back segments) ∨
      ∃ before name slot rest, segments = before ++ .placeholder name slot :: rest ∧
        front = marks answer gap before ∧ Leads answer m back rest := by
  have hkeep : ∀ cs : List Char, m ∉ cs.map Mark.keep := by
    intro cs hmem
    simp [Mark.kept_of_mem_map_keep hmem] at hm
  induction segments generalizing gap front with
  | nil => simp [marks] at h
  | cons segment rest ih =>
      -- Without a gap in front, the blank leads a literal behind a later placeholder.
      have hlater : ∀ {more : List Mark}, marks answer false rest = more ++ m :: back →
          ∃ before name slot after, rest = before ++ .placeholder name slot :: after ∧
            more = marks answer false before ∧ Leads answer m back after := by
        intro more hmore
        rcases ih hmore with ⟨hgap, _, _⟩ | hlater
        · simp at hgap
        · exact hlater
      cases segment with
      | literal text =>
          rw [marks] at h
          cases htext : text.toList with
          | nil =>
              rw [htext] at h
              rcases hlater h with ⟨before, name, slot, after, rfl, rfl, hleads⟩
              refine Or.inr ⟨.literal text :: before, name, slot, after, rfl, ?_, hleads⟩
              rw [marks, htext]
              rfl
          | cons c cs =>
              rw [htext, markLiteral, List.cons_append] at h
              cases front with
              | nil =>
                  rcases List.cons.inj h with ⟨rfl, rfl⟩
                  have hgap : gap = true := by
                    cases gap with
                    | true => rfl
                    | false => simp at hm
                  exact Or.inl ⟨hgap, rfl, text, cs, rest, rfl, htext, rfl⟩
              | cons x front =>
                  rcases List.cons.inj h with ⟨rfl, hbehind⟩
                  rcases exists_of_append (hkeep cs) hbehind with ⟨more, rfl, hmore⟩
                  rcases hlater hmore with ⟨before, name, slot, after, rfl, rfl, hleads⟩
                  refine Or.inr ⟨.literal text :: before, name, slot, after, rfl, ?_, hleads⟩
                  rw [marks, htext]
                  rfl
      | placeholder name slot =>
          cases hanswer : answer slot name with
          | none =>
              rw [marks_absent hanswer] at h
              rcases ih h with ⟨_, rfl, hleads⟩ | ⟨before, other, number, after, rfl, rfl, hleads⟩
              · exact Or.inr ⟨[], name, slot, rest, rfl, rfl, hleads⟩
              · refine Or.inr
                  ⟨.placeholder name slot :: before, other, number, after, rfl, ?_, hleads⟩
                rw [marks_absent hanswer]
          | some text =>
              rw [marks_present hanswer] at h
              rcases exists_of_append (hkeep text.toList) h with ⟨more, rfl, hmore⟩
              rcases hlater hmore with ⟨before, other, number, after, rfl, rfl, hleads⟩
              refine Or.inr
                ⟨.placeholder name slot :: before, other, number, after, rfl, ?_, hleads⟩
              rw [marks_present hanswer]

theorem marks_append_absent {name : String} {slot : Nat} (h : answer slot name = none)
    (gap : Bool) (before rest : List Segment) :
    marks answer gap (before ++ .placeholder name slot :: rest) =
      marks answer gap before ++ marks answer true rest := by
  induction before generalizing gap with
  | nil => exact marks_absent h rest
  | cons segment before ih =>
      cases segment with
      | literal text => simp [marks, ih]
      | placeholder other number =>
          cases hanswer : answer number other with
          | none => simp [marks_absent hanswer, ih]
          | some text => simp [marks_present hanswer, ih]

end Template

/-! ## Templates that glue -/

/-- The segment is a placeholder, or ends in a character that is not blank. -/
def Segment.endsInInk : Segment → Bool
  | .literal text => text.toList.getLast?.any fun c => !isBlank c
  | .placeholder _ _ => true

namespace Template

/-- The text is a blank with segments behind it, or starts with a blank and no second one. -/
def loneBlank : List Char → List Segment → Bool
  | [], _ => false
  | [c], back => isBlank c && !back.isEmpty
  | c :: d :: _, _ => isBlank c && !isBlank d

/-- The first of the segments is a placeholder, the text behind it starts with a single blank, and
no blank has to be in front. -/
def gluesBehind (last : Segment) : List Segment → Bool
  | .placeholder _ _ :: .literal text :: back => last.endsInInk && loneBlank text.toList back
  | _ => false

/-- A blank behind a placeholder can be all there is between two characters. -/
def glues : List Segment → Bool
  | [] => false
  | segment :: rest => gluesBehind segment rest || glues rest

theorem glues_iff {segments : List Segment} :
    glues segments = true ↔ ∃ front last name slot text back,
      segments = front ++ last :: .placeholder name slot :: .literal text :: back ∧
        last.endsInInk = true ∧ loneBlank text.toList back = true := by
  induction segments with
  | nil => simp [glues]
  | cons segment rest ih =>
      rw [glues, Bool.or_eq_true, ih]
      constructor
      · rintro (hhere | ⟨front, last, name, slot, text, back, rfl, hlast, htext⟩)
        · rw [gluesBehind.eq_def] at hhere
          split at hhere
          · rename_i name slot text back
            rcases Bool.and_eq_true_iff.1 hhere with ⟨hlast, htext⟩
            exact ⟨[], segment, name, slot, text, back, rfl, hlast, htext⟩
          · simp at hhere
        · exact ⟨segment :: front, last, name, slot, text, back, rfl, hlast, htext⟩
      · rintro ⟨front, last, name, slot, text, back, hsplit, hlast, htext⟩
        cases front with
        | nil =>
            rcases List.cons.inj hsplit with ⟨rfl, rfl⟩
            exact Or.inl (Bool.and_eq_true_iff.2 ⟨hlast, htext⟩)
        | cons first front =>
            rcases List.cons.inj hsplit with ⟨rfl, rfl⟩
            exact Or.inr ⟨front, last, name, slot, text, back, rfl, hlast, htext⟩

example : glues (compile "CREATE PROPERTY :Class.:Property :Type :Linked").segments = true := by
  decide +kernel

theorem endsInInk_iff {text : String} : (Segment.literal text).endsInInk = true ↔
    ∃ c, text.toList.getLast? = some c ∧ isBlank c = false := by
  simp [Segment.endsInInk, Option.any_eq_true]

/-- If all blanks between two characters are taken, the first of them stands where it can stand
alone. -/
theorem glues_of_taken {source : String} {i : Nat} {between : List Mark}
    (h : Between Mark.blank i between (marks answer false (compile source).segments))
    (hne : between ≠ []) (htaken : ∀ m ∈ between, m.kept = false) :
    glues (compile source).segments = true := by
  have hsegments := segmentation_compile source
  rcases h with ⟨front, c, d, back, hmarks, _, hc, hd, hbetween⟩
  rcases List.exists_cons_of_ne_nil hne with ⟨m, more, rfl⟩
  have hmarks' : marks answer false (compile source).segments =
      (front ++ [c]) ++ m :: (more ++ d :: back) := by simpa using hmarks
  rcases exists_of_taken hmarks' (htaken m List.mem_cons_self) with
    ⟨hgap, _, _⟩ | ⟨before, name, slot, rest, hsplit, hbefore, text, cs, after, rfl, htext, hback⟩
  · simp at hgap
  -- What is in front of the placeholder ends in the left one of the two characters.
  rcases List.eq_nil_or_concat before with rfl | ⟨first, last, rfl⟩
  · simp [marks] at hbefore
  refine glues_iff.2 ⟨first, last, name, slot, text, after, by simpa using hsplit, ?_, ?_⟩
  · cases last with
    | placeholder other number => rfl
    | literal other =>
        have hmem : Segment.literal other ∈ (compile source).segments := by simp [hsplit]
        have hother : other.toList ≠ [] := by
          simpa using (hsegments.wellFormed _ hmem).1
        have hchars := congrArg (List.map Mark.char) hbefore
        rw [map_char_marks] at hchars
        have hlast : other.toList.getLast? = some c.char := by
          have hends := congrArg List.getLast? hchars
          simpa [substitute, Segment.substituted, List.getLast?_append, hother] using hends.symm
        exact endsInInk_iff.2 ⟨c.char, hlast, hc⟩
  · have hm : isBlank m.char = true := hbetween m List.mem_cons_self
    rw [htext]
    cases cs with
    | nil =>
        cases after with
        | nil => simp [marks] at hback
        | cons segment after => simp [loneBlank, hm]
    | cons e cs =>
        -- The character behind the blank is kept, so it is not between the two any more.
        cases more with
        | nil =>
            rcases List.cons.inj hback with ⟨rfl, _⟩
            have he : isBlank e = false := hd
            simp [loneBlank, hm, he]
        | cons x more =>
            rcases List.cons.inj hback with ⟨rfl, _⟩
            have hkept := htaken (Mark.keep e) (by simp)
            simp [Mark.keep] at hkept

/-- The slot of a placeholder is its own. -/
theorem slot?_ne {first slot : Nat} {name : String} {segment : Segment} {front back : List Segment}
    (hslots : SlotsFrom first (front ++ .placeholder name slot :: back))
    (hmem : segment ∈ front ++ back) : segment.slot? ≠ some slot := by
  have hnodup : ((front ++ .placeholder name slot :: back).filterMap Segment.slot?).Nodup := by
    rw [hslots]
    exact List.nodup_range' 1
  rw [List.filterMap_append, List.filterMap_cons, Segment.slot?] at hnodup
  have hothers : slot ∉ (front ++ back).filterMap Segment.slot? := by
    rw [List.filterMap_append]
    exact (List.nodup_cons.1 (List.nodup_middle.1 hnodup)).1
  intro hslot
  exact hothers (List.mem_filterMap.2 ⟨segment, hmem, hslot⟩)

/-! ### Answers that glue -/

/-- One placeholder is absent, and every other has a character that is not blank. -/
def allBut (slot : Nat) : Nat → String → Option String :=
  fun number _ => if number = slot then none else some "x"

theorem allBut_of_ne {slot number : Nat} {name : String}
    (h : (Segment.placeholder name number).slot? ≠ some slot) :
    allBut slot number name = some "x" :=
  if_neg fun heq => h (congrArg some heq)

theorem exists_last_mark {front : List Segment} {last : Segment} {slot : Nat}
    (hends : last.endsInInk = true) (hslot : last.slot? ≠ some slot) :
    ∃ ms e, marks (allBut slot) gap (front ++ [last]) = ms ++ [e] ∧ e.blank = false := by
  have hlast : ∃ c, (last.substituted (allBut slot)).getLast? = some c ∧ isBlank c = false := by
    cases last with
    | literal text => exact endsInInk_iff.1 hends
    | placeholder name number =>
        refine ⟨'x', ?_, by decide⟩
        simp [Segment.substituted, allBut_of_ne hslot]
  rcases hlast with ⟨c, hlast, hc⟩
  have hchars : ((marks (allBut slot) gap (front ++ [last])).map Mark.char).getLast? = some c := by
    rw [map_char_marks]
    simp [substitute, List.getLast?_append, hlast]
  rw [List.getLast?_map] at hchars
  rcases Option.map_eq_some_iff.1 hchars with ⟨e, he, rfl⟩
  rcases List.getLast?_eq_some_iff.1 he with ⟨ms, hms⟩
  exact ⟨ms, e, hms, hc⟩

theorem exists_first_marks {text : String} {back : List Segment} {slot : Nat}
    (hblank : loneBlank text.toList back = true)
    (hchain : (.literal text :: back).IsChain Segment.MayPrecede)
    (hslot : ∀ segment ∈ back, segment.slot? ≠ some slot) :
    ∃ b d ms, marks (allBut slot) true (.literal text :: back) = b :: d :: ms ∧
      b.blank = true ∧ b.kept = false ∧ d.blank = false := by
  rw [marks]
  cases htext : text.toList with
  | nil => simp [htext, loneBlank] at hblank
  | cons c cs =>
      rw [htext] at hblank
      cases cs with
      | nil =>
          cases back with
          | nil => simp [loneBlank] at hblank
          | cons segment back =>
              have hc : isBlank c = true := by simpa [loneBlank] using hblank
              cases segment with
              -- Behind a literal there is a placeholder, and this one is present.
              | literal other => exact ((List.isChain_cons.1 hchain).1 _ rfl).elim
              | placeholder name number =>
                  refine ⟨⟨c, false⟩, Mark.keep 'x', marks (allBut slot) false back, ?_, hc, rfl,
                    by decide⟩
                  rw [marks_present (allBut_of_ne (hslot _ List.mem_cons_self))]
                  simp [markLiteral, hc]
      | cons d ds =>
          have hboth : isBlank c = true ∧ isBlank d = false := by simpa [loneBlank] using hblank
          refine ⟨⟨c, false⟩, Mark.keep d, ds.map Mark.keep ++ marks (allBut slot) false back, ?_,
            hboth.1, rfl, hboth.2⟩
          simp [markLiteral, hboth.1]

theorem exists_taken_of_glues {source : String} (h : glues (compile source).segments = true) :
    ∃ answer i m, m.kept = false ∧
      Between Mark.blank i [m] (marks answer false (compile source).segments) := by
  have hsegments := segmentation_compile source
  rcases glues_iff.1 h with ⟨front, last, name, slot, text, back, hsplit, hlast, hblank⟩
  have hsplit' : (compile source).segments =
      (front ++ [last]) ++ .placeholder name slot :: .literal text :: back := by simpa using hsplit
  have hothers : ∀ segment ∈ (front ++ [last]) ++ .literal text :: back,
      segment.slot? ≠ some slot := by
    intro segment hmem
    have hslots := hsegments.slots
    rw [hsplit'] at hslots
    exact slot?_ne hslots hmem
  have hchain : (.literal text :: back).IsChain Segment.MayPrecede := by
    have hall := hsegments.adjacent
    rw [hsplit'] at hall
    exact (List.isChain_cons.1 (List.isChain_append.1 hall).2.1).2
  have hleft : ∃ ms e, marks (allBut slot) false (front ++ [last]) = ms ++ [e] ∧ e.blank = false :=
    exists_last_mark hlast (hothers last (by simp))
  rcases hleft with ⟨ms, e, hms, he⟩
  rcases exists_first_marks hblank hchain fun segment hmem => hothers segment (by simp [hmem]) with
    ⟨b, d, rest, hrest, hb, hkept, hd⟩
  refine ⟨allBut slot, _, b, hkept, ms, e, d, rest, ?_, rfl, he, hd, by simpa using hb⟩
  rw [hsplit', marks_append_absent (if_pos rfl), hms, hrest]
  simp

/-! ## Neighbours in the text -/

/-- Whatever is absent, two neighbours of the plain substitution are apart in the text exactly when
a blank between them is kept.  No choice of answers brings two of them together exactly when there
is no place in the template where a taken blank can stand alone. -/
theorem parted_render (source : String) :
    (∀ answer : Nat → String → Option String, ∃ text : String,
      (compile source).render
          (fun slot name => (.ok (answer slot name) : Except ε (Option String))) = .ok text ∧
        (marks answer false (compile source).segments).map Mark.char =
          substitute answer (compile source).segments ∧
        ∀ i between, Between Mark.blank i between (marks answer false (compile source).segments) →
          (Parted i text.toList ↔ ∃ m ∈ between, m.kept = true)) ∧
    ((∀ (answer : Nat → String → Option String) (text : String) (i : Nat),
      (compile source).render
          (fun slot name => (.ok (answer slot name) : Except ε (Option String))) = .ok text →
        Parted i (substitute answer (compile source).segments) → Parted i text.toList) ↔
      glues (compile source).segments = false) := by
  have hrender : ∀ answer : Nat → String → Option String, ∃ text : String,
      (compile source).render
          (fun slot name => (.ok (answer slot name) : Except ε (Option String))) = .ok text := by
    intro answer
    rw [render_eq_fill, fill_eq_kept]
    exact ⟨_, rfl⟩
  refine ⟨?_, ?_, ?_⟩
  · intro answer
    rcases hrender answer with ⟨text, htext⟩
    exact ⟨text, htext, map_char_marks answer false _, fun i between => parted_render_iff htext⟩
  · intro hkeeps
    by_contra hglues
    rcases exists_taken_of_glues (eq_true_of_ne_false hglues) with
      ⟨answer, i, m, htaken, hbetween⟩
    rcases hrender answer with ⟨text, htext⟩
    have hplain : Parted i (substitute answer (compile source).segments) := by
      rw [← map_char_marks answer false]
      exact ⟨_, Between.map hbetween, by simp⟩
    rcases (parted_render_iff htext hbetween).1 (hkeeps answer text i htext hplain) with
      ⟨kept, hmem, hkept⟩
    rw [List.mem_singleton.1 hmem, htaken] at hkept
    exact absurd hkept (by decide)
  · intro hglues answer text i htext hplain
    rcases hplain with ⟨blanks, hblanks, hne⟩
    rw [← map_char_marks answer false] at hblanks
    rcases hblanks.exists_of_map with ⟨between, rfl, hbetween⟩
    refine (parted_render_iff htext hbetween).2 ?_
    by_contra hnone
    have htaken : ∀ m ∈ between, m.kept = false := by
      intro m hm
      exact eq_false_of_ne_true fun hkept => hnone ⟨m, hm, hkept⟩
    have hlost := glues_of_taken hbetween (by simpa using hne) htaken
    simp [hglues] at hlost

/-- Of three parts the middle one is absent. -/
def middleAbsent : Nat → String → Option String
  | 0, _ => some "x"
  | 1, _ => none
  | _, _ => some "y"

theorem parted_x_y {blanks : List Char} (hne : blanks ≠ []) (h : ∀ b ∈ blanks, isBlank b = true) :
    Parted 0 ('x' :: (blanks ++ ['y'])) :=
  ⟨blanks, ⟨[], 'x', 'y', [], rfl, rfl, by decide, by decide, h⟩, hne⟩

theorem parted_render_spaced :
    glues (compile ":A :B :C").segments = false ∧
      (compile ":A :B :C").render
          (fun slot name => (.ok (middleAbsent slot name) : Except Empty (Option String))) =
        .ok "x y" ∧
      Parted 0 (substitute middleAbsent (compile ":A :B :C").segments) ∧
      Parted 0 "x y".toList := by
  have hglues : glues (compile ":A :B :C").segments = false := by decide +kernel
  have hrender : (compile ":A :B :C").render
      (fun slot name => (.ok (middleAbsent slot name) : Except Empty (Option String))) =
        .ok "x y" := by
    decide +kernel
  have hplain : Parted 0 (substitute middleAbsent (compile ":A :B :C").segments) := by
    have hchars : substitute middleAbsent (compile ":A :B :C").segments =
        'x' :: ([' ', ' '] ++ ['y']) := by
      decide +kernel
    rw [hchars]
    exact parted_x_y (by simp) (by simp [show isBlank ' ' = true by decide])
  exact ⟨hglues, hrender, hplain,
    (parted_render ":A :B :C").2.2 hglues middleAbsent "x y" 0 hrender hplain⟩

/-- An absent placeholder can glue what is in front of it to what is behind it. -/
theorem not_parted_render :
    ¬∀ (source : String) (answer : Nat → String → Option String) (text : String) (i : Nat),
      (compile source).render
          (fun slot name => (.ok (answer slot name) : Except Empty (Option String))) = .ok text →
        Parted i (substitute answer (compile source).segments) → Parted i text.toList := by
  intro h
  have hrender : (compile ":A:B :C").render
      (fun slot name => (.ok (middleAbsent slot name) : Except Empty (Option String))) =
        .ok "xy" := by
    decide +kernel
  have hplain : Parted 0 (substitute middleAbsent (compile ":A:B :C").segments) := by
    have hchars : substitute middleAbsent (compile ":A:B :C").segments =
        'x' :: ([' '] ++ ['y']) := by
      decide +kernel
    rw [hchars]
    exact parted_x_y (by simp) (by simp [show isBlank ' ' = true by decide])
  have hglued : Between isBlank 0 [] "xy".toList :=
    ⟨[], 'x', 'y', [], rfl, rfl, by decide, by decide, by simp⟩
  exact hglued.parted_iff.1 (h ":A:B :C" middleAbsent "xy" 0 hrender hplain) rfl

end Template
end GraphSql
