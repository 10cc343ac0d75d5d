import GraphSql.Proofs.Template.Filling
import GraphSql.Proofs.Template.Segmentation
import GraphSql.Statement.Kind

/-!
# Spaced — schemas of words with one space between two of them

In most schemas a placeholder stands alone between two spaces.  Such a schema is a list of words,
each of them text or one placeholder, and optional parts leave no trace in it:

* `Word`, `Word.WellFormed`, `spaced` — the words, and the source that they make;
* `wordsOf`, `spaced_wordsOf` — the words of a source, and the source again;
* `shown` — the texts that are left when every placeholder has its answer;
* `layout` — the segments of the schema, found word by word;
* `fill_layout` — filling them joins the texts that are left, with a blank at the end at most;
* `render_spaced` — the rendered text is their join, normalised.
-/

namespace GraphSql
namespace Template

open Text

/-! ## Words -/

inductive Word
  | fixed (text : String)
  | hole (name : String)
  deriving DecidableEq, Repr

namespace Word

def chars : Word → List Char
  | .fixed text => text.toList
  | .hole name => ':' :: name.toList

/-- A fixed word has no blanks and no placeholder inside, and a hole is exactly one placeholder. -/
def WellFormed : Word → Prop
  | .fixed text => text ≠ "" ∧ (∀ c ∈ text.toList, isBlank c = false) ∧ Piece.Free text.toList
  | .hole name => name ≠ "" ∧ ∀ c ∈ name.toList, isWord c = true

-- The characters of the word are tried, and not all characters.
instance : DecidablePred Word.WellFormed
  | .fixed text =>
      have : Decidable (∀ c ∈ text.toList, isBlank c = false) := List.decidableBAll _ _
      inferInstanceAs (Decidable (text ≠ "" ∧ _ ∧ Piece.Free text.toList))
  | .hole name =>
      have : Decidable (∀ c ∈ name.toList, isWord c = true) := List.decidableBAll _ _
      inferInstanceAs (Decidable (name ≠ "" ∧ _))

def ofChars : List Char → Word
  | ':' :: name => .hole (String.ofList name)
  | text => .fixed (String.ofList text)

/-- The segments of the word in front of those behind it. -/
def prepend (slot : Nat) (behind : List Segment) : Word → List Segment
  | .fixed text => text.toList.foldr consText behind
  | .hole name => .placeholder name slot :: behind

def nextSlot (slot : Nat) : Word → Nat
  | .fixed _ => slot
  | .hole _ => slot + 1

/-- What is left of the word. -/
def shown? (answer : Nat → String → Option String) (slot : Nat) : Word → Option String
  | .fixed text => some text
  | .hole name => answer slot name

end Word

/-- The source that the words make. -/
def spaced (words : List Word) : String :=
  String.ofList ([' '].intercalate (words.map Word.chars))

/-- The words between the spaces of a source. -/
def wordsOf (source : String) : List Word :=
  (source.toList.splitOn ' ').map Word.ofChars

def shown (answer : Nat → String → Option String) (slot : Nat) : List Word → List (List Char)
  | [] => []
  | w :: words =>
      ((w.shown? answer slot).map String.toList).toList ++ shown answer (w.nextSlot slot) words

def layout (slot : Nat) : List Word → List Segment
  | [] => []
  | [w] => w.prepend slot []
  | w :: v :: words => w.prepend slot (consText ' ' (layout (w.nextSlot slot) (v :: words)))

theorem Word.chars_ofChars (cs : List Char) : (Word.ofChars cs).chars = cs := by
  unfold Word.ofChars
  split <;> simp [Word.chars]

theorem spaced_wordsOf (source : String) : spaced (wordsOf source) = source := by
  have hchars : (wordsOf source).map Word.chars = source.toList.splitOn ' ' := by
    simp [wordsOf, Function.comp_def, Word.chars_ofChars]
  rw [spaced, hchars, List.intercalate_splitOn, String.ofList_toList]

/-! ## The segments of the schema -/

theorem cut_text {text cs : List Char} {segments : List Segment} (hfree : Piece.Free text)
    (hcs : ∀ c, cs.head? = some c → isWord c = false) (h : Cut cs segments) :
    Cut (text ++ cs) (text.foldr consText segments) := by
  induction text with
  | nil => exact h
  | cons c text ih =>
      refine (ih (hfree.of_suffix (List.suffix_cons c text))).cons_text ?_
      rintro rfl
      exact Piece.head?_append_ne_word hfree.after_colon hcs

theorem slotsFrom_text {first : Nat} {segments : List Segment} (h : SlotsFrom first segments)
    (text : List Char) : SlotsFrom first (text.foldr consText segments) := by
  induction text with
  | nil => exact h
  | cons c text ih => exact Cut.slotsFrom_consText ih c

/-- What stands behind a word does not extend it. -/
theorem Word.cut_prepend {w : Word} {cs : List Char} {segments : List Segment} (hw : w.WellFormed)
    (hcs : ∀ c, cs.head? = some c → isWord c = false) (h : Cut cs segments) (slot : Nat) :
    Cut (w.chars ++ cs) (w.prepend slot segments) := by
  cases w with
  | fixed text => exact cut_text hw.2.2 hcs h
  | hole name =>
      have hname : name.toList ≠ [] := by simpa using hw.1
      simpa [Word.chars, Word.prepend] using h.cons_placeholder hname hw.2 hcs slot

theorem Word.slotsFrom_prepend (w : Word) {slot : Nat} {segments : List Segment}
    (h : SlotsFrom (w.nextSlot slot) segments) : SlotsFrom slot (w.prepend slot segments) := by
  cases w with
  | fixed text => exact slotsFrom_text h text.toList
  | hole name => exact Cut.slotsFrom_placeholder h

theorem cut_layout {words : List Word} (hwords : ∀ w ∈ words, w.WellFormed) (slot : Nat) :
    Cut ([' '].intercalate (words.map Word.chars)) (layout slot words) ∧
      SlotsFrom slot (layout slot words) := by
  induction words generalizing slot with
  | nil => exact ⟨⟨rfl, by simp [layout], .nil⟩, rfl⟩
  | cons w words ih =>
      have hw : w.WellFormed := hwords w List.mem_cons_self
      have hrest := ih (fun v hv => hwords v (List.mem_cons_of_mem _ hv)) (w.nextSlot slot)
      cases words with
      | nil =>
          refine ⟨?_, w.slotsFrom_prepend hrest.2⟩
          have hcut := Word.cut_prepend hw (by simp) hrest.1 slot
          simpa [layout] using hcut
      | cons v words =>
          -- The space is no word character, and it starts no placeholder.
          have hspace := hrest.1.cons_text (c := ' ') (by simp)
          refine ⟨?_, w.slotsFrom_prepend (Cut.slotsFrom_consText hrest.2 ' ')⟩
          have hcut := Word.cut_prepend hw (by simp [show isWord ' ' = false by decide]) hspace slot
          simpa [layout, List.intercalate_cons_cons] using hcut

theorem segments_spaced {words : List Word} (hwords : ∀ w ∈ words, w.WellFormed) :
    (compile (spaced words)).segments = layout 0 words := by
  rcases cut_layout hwords 0 with ⟨hcut, hslots⟩
  refine (segments_of_segmentation ⟨?_, hslots⟩).2
  simpa [spaced] using hcut

/-! ## The filled schema -/

variable {ε : Type} {lookup : Nat → String → Except ε (Option String)}

theorem fill_consText (gap : Bool) (c : Char) (segments : List Segment) :
    fill lookup gap (consText c segments) =
      (fill lookup false segments).map fun more =>
        (if gap && isBlank c then [] else [c]) ++ more := by
  have hdrop : ∀ cs : List Char, (if gap then dropBlank (c :: cs) else c :: cs) =
      (if gap && isBlank c then [] else [c]) ++ cs := by
    intro cs
    cases gap <;> cases hc : isBlank c <;> simp [dropBlank, hc]
  cases segments with
  | nil => simp [consText, fill_literal, hdrop]
  | cons segment others =>
      cases segment with
      | literal text =>
          rw [consText, fill_literal, fill_literal]
          cases fill lookup false others <;> simp [Except.map, hdrop]
      | placeholder name slot =>
          have hcons : consText c (.placeholder name slot :: others) =
              .literal (String.ofList [c]) :: .placeholder name slot :: others := rfl
          rw [hcons, fill_literal]
          simp [hdrop]

/-- A gap in front of a text without blanks takes nothing from it. -/
theorem fill_text {text : List Char} (hne : text ≠ []) (hblank : ∀ c ∈ text, isBlank c = false)
    (gap : Bool) (segments : List Segment) :
    fill lookup gap (text.foldr consText segments) =
      (fill lookup false segments).map fun more => text ++ more := by
  induction text generalizing gap with
  | nil => exact absurd rfl hne
  | cons c text ih =>
      have hc : isBlank c = false := hblank c List.mem_cons_self
      rw [List.foldr_cons, fill_consText]
      cases text with
      | nil => simp [hc]
      | cons d text =>
          rw [ih (by simp) (fun e he => hblank e (List.mem_cons_of_mem _ he)) false]
          cases fill lookup false segments <;> simp [Except.map, hc]

variable {answer : Nat → String → Option String}

/-- A word that is shown goes in front of what is behind it; one that is not leaves a gap. -/
theorem Word.fill_prepend (hlookup : ∀ slot name, lookup slot name = .ok (answer slot name))
    {w : Word} (hw : w.WellFormed) (slot : Nat) (segments : List Segment) :
    fill lookup false (w.prepend slot segments) =
      match w.shown? answer slot with
      | some text => (fill lookup false segments).map fun more => text.toList ++ more
      | none => fill lookup true segments := by
  cases w with
  | fixed text => exact fill_text (by simpa using hw.1) hw.2.1 false segments
  | hole name =>
      have hfill := hlookup slot name
      cases hanswer : answer slot name with
      | some text =>
          rw [hanswer] at hfill
          simpa [Word.shown?, Word.prepend, hanswer] using fill_present segments hfill
      | none =>
          rw [hanswer] at hfill
          simpa [Word.shown?, Word.prepend, hanswer] using fill_absent segments hfill

/-- The space in front of absent words at the end is all that is left over. -/
theorem fill_layout (hlookup : ∀ slot name, lookup slot name = .ok (answer slot name))
    {words : List Word} (hwords : ∀ w ∈ words, w.WellFormed) (slot : Nat) :
    ∃ blanks, fill lookup false (layout slot words) =
        .ok ([' '].intercalate (shown answer slot words) ++ blanks) ∧
      (blanks = [] ∨ blanks = [' '] ∧ shown answer slot words ≠ []) := by
  induction words generalizing slot with
  | nil => exact ⟨[], rfl, Or.inl rfl⟩
  | cons w words ih =>
      have hw : w.WellFormed := hwords w List.mem_cons_self
      rcases ih (fun v hv => hwords v (List.mem_cons_of_mem _ hv)) (w.nextSlot slot) with
        ⟨blanks, hrest, hblanks⟩
      cases words with
      | nil =>
          refine ⟨[], ?_, Or.inl rfl⟩
          rw [layout, Word.fill_prepend hlookup hw, shown]
          cases w.shown? answer slot with
          | some text => simp [fill, shown, Except.map]
          | none => simp [fill, shown]
      | cons v words =>
          rw [layout, Word.fill_prepend hlookup hw, shown]
          cases w.shown? answer slot with
          | some text =>
              rw [fill_consText, hrest]
              rcases hshown : shown answer (w.nextSlot slot) (v :: words) with _ | ⟨next, more⟩
              · -- Nothing is left behind this word, so its space is the one left over.
                have hnone : blanks = [] := by simpa [hshown] using hblanks
                exact ⟨[' '], by simp [Except.map, hnone], Or.inr ⟨rfl, by simp⟩⟩
              · refine ⟨blanks, by simp [Except.map, List.intercalate_cons_cons], ?_⟩
                simpa [hshown] using hblanks
          | none =>
              -- The gap takes the space behind the word, so the next word starts where it did.
              have hgap : (true && isBlank ' ') = true := by decide
              refine ⟨blanks, ?_, hblanks⟩
              simp [fill_consText, hrest, hgap, Except.map]

/-! ## The rendered text -/

/-- Words that are absent leave no trace, wherever they stand, and the schemas of ten statements
are made of words. -/
theorem render_spaced :
    (∀ words : List Word, (∀ w ∈ words, w.WellFormed) → ∀ answer : Nat → String → Option String,
      (compile (spaced words)).render
          (fun slot name => (.ok (answer slot name) : Except ε (Option String))) =
        .ok (String.ofList (normalise ([' '].intercalate (shown answer 0 words))))) ∧
    ∀ k ∈ [Kind.select, .update, .updateAdd, .updateRemove, .updatePut, .delete, .deleteEdge,
        .deleteVertex, .grant, .revoke],
      ∃ words, (∀ w ∈ words, Word.WellFormed w) ∧ k.schema = spaced words := by
  refine ⟨fun words hwords answer => ?_, fun k hk => ⟨wordsOf k.schema, ?_, ?_⟩⟩
  · rcases fill_layout (ε := ε) (fun _ _ => rfl) hwords 0 with ⟨blanks, hfill, hblanks⟩
    rw [render_eq_fill, segments_spaced hwords, hfill]
    rcases hblanks with rfl | ⟨rfl, _⟩
    · simp [Except.map]
    · simp [Except.map, normalise_append_blank (show isBlank ' ' = true by decide)]
  · revert k
    decide +kernel
  · exact (spaced_wordsOf k.schema).symm

def edgeWords : List Word :=
  [.hole "A", .hole "B", .fixed "and:", .hole "C", .hole "D", .hole "E"]

/-- The first and the last two are absent, and the others are empty or have blanks at their ends. -/
def edgeAnswer : Nat → String → Option String
  | 1, _ => some " b  c\t"
  | 2, _ => some ""
  | _, _ => none

theorem render_spaced_edges :
    (∀ w ∈ edgeWords, w.WellFormed) ∧ spaced edgeWords = ":A :B and: :C :D :E" ∧
      (compile (spaced edgeWords)).render
          (fun slot name => (.ok (edgeAnswer slot name) : Except Empty (Option String))) =
        .ok "b c\t and:" := by
  have hwords : ∀ w ∈ edgeWords, w.WellFormed := by decide +kernel
  have htext : String.ofList (normalise ([' '].intercalate (shown edgeAnswer 0 edgeWords))) =
      "b c\t and:" := by
    decide +kernel
  refine ⟨hwords, by decide +kernel, ?_⟩
  rw [← htext]
  exact render_spaced.1 edgeWords hwords edgeAnswer

end Template
end GraphSql
