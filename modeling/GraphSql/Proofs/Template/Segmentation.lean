import GraphSql.Template
import Mathlib.Data.List.Chain

/-!
# Segmentation — a schema is cut in exactly one way

The conditions on a list of segments that say nothing about how it was found, and the proof that
`Template.compile` answers with the only list that meets them:

* `Segment.WellFormed`, `Segment.MayPrecede` — what one segment, and two neighbours, have to meet;
* `Cut`, `Segmentation` — segments that join up to the schema, with slots in order;
* `consText` — a character in front of segments;
* `exists_cut` — every text has such segments;
* `Cut.reads` — the reader finds them and leaves nothing.
-/

namespace GraphSql

open Text

/-! ## Conditions on segments -/

namespace Segment

/-- A name is a run of word characters, and no placeholder starts inside a literal. -/
def WellFormed : Segment → Prop
  | .literal text => text ≠ "" ∧ ∀ c, Template.isWord c = true → ¬[':', c] <:+: text.toList
  | .placeholder name _ => name ≠ "" ∧ ∀ c ∈ name.toList, Template.isWord c = true

/-- Two literals would be one, and a name would take the word characters after it. -/
def MayPrecede : Segment → Segment → Prop
  | .literal _, .literal _ => False
  | .placeholder _ _, .literal text =>
      ∀ c, text.toList.head? = some c → Template.isWord c = false
  | _, .placeholder _ _ => True

theorem MayPrecede.of_literal {text other : String} {segment : Segment}
    (h : (Segment.literal text).MayPrecede segment) :
    (Segment.literal other).MayPrecede segment := by
  cases segment with
  | literal _ => exact h.elim
  | placeholder _ _ => trivial

/-- The segment without its slot. -/
def piece : Segment → Template.Piece
  | .literal text => .literal text.toList
  | .placeholder name _ => .placeholder name.toList

end Segment

/-- Segments that join up to a text. -/
structure Cut (cs : List Char) (segments : List Segment) : Prop where
  joined : (segments.flatMap fun segment => segment.source.toList) = cs
  wellFormed : ∀ segment ∈ segments, segment.WellFormed
  adjacent : segments.IsChain Segment.MayPrecede

/-- The slots of the placeholders count up from the first one. -/
def SlotsFrom (first : Nat) (segments : List Segment) : Prop :=
  segments.filterMap Segment.slot? =
    List.range' first (segments.filterMap Segment.slot?).length

/-- A character in front of segments joins the literal there, or becomes one. -/
def consText (c : Char) : List Segment → List Segment
  | .literal text :: rest => .literal (String.ofList (c :: text.toList)) :: rest
  | segments => .literal (String.ofList [c]) :: segments

structure Segmentation (source : String) (segments : List Segment) : Prop
    extends Cut source.toList segments where
  slots : SlotsFrom 0 segments

/-! ## What one round of the reader takes -/

namespace Template
namespace Piece

theorem chunk?_colon {cs : List Char} (h : ∀ c, cs.head? = some c → isWord c = false) :
    chunk? (':' :: cs) = some ([':'], cs) := by
  have hany : cs.head?.any isWord = false := by
    simpa [Option.any_eq_false] using h
  simp [chunk?, Reader.either, Reader.run, colon?, hany]

theorem chunk?_run {taken rest : List Char} (hne : taken ≠ []) (htaken : ∀ c ∈ taken, c ≠ ':')
    (hrest : ∀ c, rest.head? = some c → c = ':') : chunk? (taken ++ rest) = some (taken, rest) := by
  have hrun : Reader.run (fun c => c ≠ ':') (taken ++ rest) = some (taken, rest) :=
    Reader.run_append hne (by simpa using htaken) fun c hc => by simp [hrest c hc]
  rw [chunk?, Reader.either, hrun]

/-- A literal ends with the text or before a placeholder. -/
def LiteralEnds (rest : List Char) : Prop :=
  rest = [] ∨ ∃ c cs, rest = ':' :: c :: cs ∧ isWord c = true

theorem LiteralEnds.head?_eq {rest : List Char} {c : Char} (h : LiteralEnds rest)
    (hc : rest.head? = some c) : c = ':' := by
  rcases h with rfl | ⟨d, cs, rfl, _⟩
  · simp at hc
  · exact (Option.some.inj hc).symm

theorem LiteralEnds.chunk?_eq_none {rest : List Char} (h : LiteralEnds rest) :
    chunk? rest = none := by
  rcases h with rfl | ⟨c, cs, rfl, hc⟩
  · rfl
  · simp [chunk?, Reader.either, Reader.run, colon?, hc]

theorem head?_append_ne_word {text rest : List Char}
    (hfree : ∀ c, text.head? = some c → isWord c = false)
    (hrest : ∀ c, rest.head? = some c → isWord c = false) :
    ∀ c, (text ++ rest).head? = some c → isWord c = false := by
  intro c hc
  cases text with
  | nil => exact hrest c hc
  | cons d ds => exact hfree c hc

theorem LiteralEnds.head?_ne_word {rest : List Char} (h : LiteralEnds rest) :
    ∀ c, rest.head? = some c → isWord c = false := by
  intro c hc
  rw [h.head?_eq hc]
  decide

/-- No placeholder starts inside the text. -/
def Free (text : List Char) : Prop :=
  ∀ c, isWord c = true → ¬[':', c] <:+: text

theorem Free.of_suffix {text rest : List Char} (h : Free text) (hsuffix : rest <:+ text) :
    Free rest := by
  intro c hc hin
  exact h c hc (hin.trans hsuffix.isInfix)

theorem Free.after_colon {text : List Char} (h : Free (':' :: text)) :
    ∀ c, text.head? = some c → isWord c = false := by
  intro c hc
  rcases List.head?_eq_some_iff.1 hc with ⟨ds, rfl⟩
  by_contra hword
  exact h c (by simpa using hword) ⟨[], ds, rfl⟩

theorem free_cons_iff {c : Char} {text : List Char} :
    Free (c :: text) ↔ ¬(c = ':' ∧ text.head?.any isWord = true) ∧ Free text := by
  constructor
  · intro h
    refine ⟨?_, h.of_suffix (List.suffix_cons c text)⟩
    rintro ⟨rfl, hword⟩
    rcases (Option.any_eq_true _ _).1 hword with ⟨d, hd, hword⟩
    simp [h.after_colon d hd] at hword
  · rintro ⟨hfirst, hrest⟩ d hd hin
    rcases List.infix_cons_iff.1 hin with hfront | hin
    · rcases List.cons_prefix_cons.1 hfront with ⟨rfl, ds, hds⟩
      exact hfirst ⟨rfl, by simp [← hds, hd]⟩
    · exact hrest d hd hin

instance decidableFree : (text : List Char) → Decidable (Free text)
  | [] => isTrue fun c _ hin => by simp at hin
  | _ :: text =>
      have := decidableFree text
      decidable_of_iff _ free_cons_iff.symm

/-- The chunks of a literal are runs without colons, and single colons. -/
theorem exists_reads_chunk? (text : List Char) {rest : List Char} (hfree : Free text)
    (hends : LiteralEnds rest) :
    ∃ chunks, Reader.Reads chunk? (text ++ rest) chunks rest ∧ chunks.flatten = text := by
  -- By length and not by constructor: a chunk takes a whole run of characters at once.
  induction hn : text.length using Nat.strong_induction_on generalizing text with
  | _ n ih =>
      subst hn
      cases text with
      | nil => exact ⟨[], .done hends.chunk?_eq_none, rfl⟩
      | cons c cs =>
          by_cases hc : c = ':'
          · subst hc
            -- A colon in a literal, or the last one before its end, starts no placeholder.
            have hword : ∀ c, (cs ++ rest).head? = some c → isWord c = false :=
              head?_append_ne_word hfree.after_colon hends.head?_ne_word
            obtain ⟨chunks, hreads, hflat⟩ :=
              ih cs.length (by simp) cs (hfree.of_suffix (List.suffix_cons _ _)) rfl
            refine ⟨[':'] :: chunks, .step (chunk?_colon hword) (by simp) hreads, ?_⟩
            simp [hflat]
          · -- The run goes up to a colon or to the end of the literal; there the induction goes on.
            obtain ⟨taken, later, rfl, htaken, hlater⟩ :=
              Reader.exists_run (p := fun d => d ≠ ':') (by simpa using hc) cs
            have hcolon : ∀ d, (later ++ rest).head? = some d → d = ':' := by
              intro d hd
              cases later with
              | nil => exact hends.head?_eq hd
              | cons e es => simpa using hlater d hd
            have hrun : chunk? ((c :: taken) ++ (later ++ rest)) = some (c :: taken, later ++ rest) :=
              chunk?_run (by simp) (by simpa using htaken) hcolon
            have hshorter : later.length < (c :: (taken ++ later)).length := by
              rw [List.length_cons, List.length_append]
              omega
            obtain ⟨chunks, hreads, hflat⟩ :=
              ih later.length hshorter later
                (hfree.of_suffix (List.suffix_append (c :: taken) later)) rfl
            refine ⟨(c :: taken) :: chunks, ?_, by simp [hflat]⟩
            have hprogress : (later ++ rest).length < ((c :: taken) ++ (later ++ rest)).length := by
              simp only [List.length_append, List.length_cons]
              omega
            have hstep := Reader.Reads.step hrun hprogress hreads
            simpa using hstep

theorem read?_literal {text rest : List Char} (hne : text ≠ []) (hfree : Free text)
    (hends : LiteralEnds rest) : read? (text ++ rest) = some (.literal text, rest) := by
  have hliteral : literal? (text ++ rest) = some (text, rest) := by
    rcases exists_reads_chunk? text hfree hends with ⟨chunks, hreads, hflat⟩
    cases chunks with
    | nil => exact absurd hflat.symm hne
    | cons chunk chunks =>
        rw [literal?, Reader.map, Reader.many1_eq_of_reads hreads]
        simp only [Option.map_some, hflat]
  -- The placeholder reader comes first, so it has to refuse the literal.
  have hplaceholder : placeholder? (text ++ rest) = none := by
    cases text with
    | nil => exact absurd rfl hne
    | cons c cs =>
        by_cases hc : c = ':'
        · subst hc
          exact Reader.run_eq_none
            (head?_append_ne_word hfree.after_colon hends.head?_ne_word)
        · simp [placeholder?, hc]
  rw [read?, Reader.either, Reader.map, hplaceholder]
  simp only [Option.map_none, Reader.map, hliteral, Option.map_some]

theorem read?_placeholder {name rest : List Char} (hne : name ≠ [])
    (hname : ∀ c ∈ name, isWord c = true) (hrest : ∀ c, rest.head? = some c → isWord c = false) :
    read? (':' :: (name ++ rest)) = some (.placeholder name, rest) := by
  have hplaceholder : placeholder? (':' :: (name ++ rest)) = some (name, rest) :=
    Reader.run_append hne hname hrest
  rw [read?, Reader.either, Reader.map, hplaceholder]
  rfl

end Piece
end Template

/-! ## Segments one by one -/

namespace Cut

variable {cs : List Char} {segments : List Segment}

theorem tail {segment : Segment} (h : Cut cs (segment :: segments)) :
    ∃ rest, cs = segment.source.toList ++ rest ∧ Cut rest segments := by
  refine ⟨segments.flatMap fun segment => segment.source.toList, ?_, rfl, ?_, ?_⟩
  · rw [← h.joined, List.flatMap_cons]
  · intro other hother
    exact h.wellFormed other (List.mem_cons_of_mem _ hother)
  · exact (List.isChain_cons.1 h.adjacent).2

/-- The first character after a placeholder does not extend its name. -/
theorem head?_ne_word {name : String} {slot : Nat}
    (hadj : (Segment.placeholder name slot :: segments).IsChain Segment.MayPrecede)
    (h : Cut cs segments) : ∀ c, cs.head? = some c → Template.isWord c = false := by
  intro c hc
  cases segments with
  | nil =>
      have hnil : cs = [] := h.joined.symm
      simp [hnil] at hc
  | cons segment others =>
      rcases h.tail with ⟨rest, rfl, _⟩
      have hfirst : (Segment.placeholder name slot).MayPrecede segment :=
        (List.isChain_cons.1 hadj).1 segment rfl
      cases segment with
      | literal text =>
          have htext : text.toList ≠ [] := by
            simpa using (h.wellFormed _ List.mem_cons_self).1
          rcases List.exists_cons_of_ne_nil htext with ⟨d, ds, hds⟩
          refine hfirst c ?_
          simpa [Segment.source, hds] using hc
      | placeholder other slot =>
          -- The next placeholder starts with its colon, which is no word character.
          have hcolon : ':' = c := by simpa [Segment.source] using hc
          rw [← hcolon]
          decide

/-- A literal ends where the text ends or where a placeholder starts. -/
theorem literalEnds {text : String}
    (hadj : (Segment.literal text :: segments).IsChain Segment.MayPrecede)
    (h : Cut cs segments) : Template.Piece.LiteralEnds cs := by
  cases segments with
  | nil => exact Or.inl h.joined.symm
  | cons segment others =>
      rcases h.tail with ⟨rest, rfl, _⟩
      have hfirst : (Segment.literal text).MayPrecede segment :=
        (List.isChain_cons.1 hadj).1 segment rfl
      cases segment with
      | literal other => exact hfirst.elim
      | placeholder name slot =>
          rcases h.wellFormed _ List.mem_cons_self with ⟨hne, hname⟩
          have htext : name.toList ≠ [] := by simpa using hne
          rcases List.exists_cons_of_ne_nil htext with ⟨d, ds, hds⟩
          refine Or.inr ⟨d, ds ++ rest, ?_, hname d (by simp [hds])⟩
          simp [Segment.source, hds]

/-- The reader takes the segments of a cut, one a round, and leaves nothing. -/
theorem reads (h : Cut cs segments) :
    Reader.Reads Template.Piece.read? cs (segments.map Segment.piece) [] := by
  -- One round for each segment: well-formedness says what it takes, adjacency where it stops.
  induction segments generalizing cs with
  | nil =>
      obtain rfl : [] = cs := h.joined
      exact .done rfl
  | cons segment others ih =>
      rcases h.tail with ⟨rest, rfl, hrest⟩
      have hwell := h.wellFormed segment List.mem_cons_self
      cases segment with
      | literal text =>
          have hne : text.toList ≠ [] := by simpa using hwell.1
          refine .step (Template.Piece.read?_literal hne hwell.2 (literalEnds h.adjacent hrest)) ?_
            (ih hrest)
          simpa [Segment.source, List.length_pos_iff] using hwell.1
      | placeholder name slot =>
          have hne : name.toList ≠ [] := by simpa using hwell.1
          have hread := Template.Piece.read?_placeholder hne hwell.2
            (head?_ne_word h.adjacent hrest)
          have hsource : (Segment.placeholder name slot).source.toList ++ rest =
              ':' :: (name.toList ++ rest) := by
            simp [Segment.source]
          have hprogress : rest.length < (':' :: (name.toList ++ rest)).length := by
            rw [List.length_cons, List.length_append]
            omega
          rw [hsource]
          exact .step hread hprogress (ih hrest)

/-! ## Every text has a cut -/

/-- A character that starts no placeholder goes into the literal in front, or becomes one. -/
theorem cons_text {c : Char} (h : Cut cs segments)
    (hc : c = ':' → ∀ d, cs.head? = some d → Template.isWord d = false) :
    Cut (c :: cs) (consText c segments) := by
  have hsingle : Segment.WellFormed (.literal (String.ofList [c])) := by
    refine ⟨by simp, fun d _ hin => ?_⟩
    have hle := List.IsInfix.length_le hin
    simp at hle
  cases segments with
  | nil =>
      obtain rfl : [] = cs := h.joined
      refine ⟨?_, ?_, .singleton _⟩
      · simp [consText, Segment.source]
      · simpa [consText] using hsingle
  | cons segment others =>
      rcases h.tail with ⟨rest, rfl, hrest⟩
      cases segment with
      -- The character becomes a literal of its own in front of the placeholder.
      | placeholder name slot =>
          have hcons : consText c (.placeholder name slot :: others) =
              .literal (String.ofList [c]) :: .placeholder name slot :: others := rfl
          rw [hcons]
          refine ⟨?_, ?_, ?_⟩
          · rw [List.flatMap_cons, h.joined]
            simp [Segment.source]
          · intro segment hmem
            rcases List.mem_cons.1 hmem with rfl | hmem
            · exact hsingle
            · exact h.wellFormed segment hmem
          · exact List.isChain_cons.2 ⟨fun _ hy => by obtain rfl := Option.some.inj hy; trivial,
              h.adjacent⟩
      -- Two literals may not be neighbours, so the character joins the one that is there.
      | literal text =>
          rcases h.wellFormed _ List.mem_cons_self with ⟨hne, hfree⟩
          refine ⟨?_, ?_, ?_⟩
          · rw [consText, List.flatMap_cons, hrest.joined]
            simp [Segment.source]
          · intro segment hmem
            rcases List.mem_cons.1 hmem with rfl | hmem
            · refine ⟨by simp, fun d hd hin => ?_⟩
              rw [String.toList_ofList, List.infix_cons_iff] at hin
              rcases hin with hfront | hin
              · -- The literal started with a word character behind the new colon.
                rcases List.cons_prefix_cons.1 hfront with ⟨hcolon, ds, hds⟩
                have hhead := hc hcolon.symm d (by simp [Segment.source, ← hds])
                simp [hd] at hhead
              · exact hfree d hd hin
            · exact hrest.wellFormed segment hmem
          · have hadj := List.isChain_cons.1 h.adjacent
            exact List.isChain_cons.2 ⟨fun y hy => (hadj.1 y hy).of_literal, hadj.2⟩

theorem slotsFrom_consText {first : Nat} (h : SlotsFrom first segments) (c : Char) :
    SlotsFrom first (consText c segments) := by
  have hslots : (consText c segments).filterMap Segment.slot? =
      segments.filterMap Segment.slot? := by
    cases segments with
    | nil => rfl
    | cons segment others => cases segment <;> rfl
  simpa [SlotsFrom, hslots] using h

theorem cons_placeholder {name : List Char} (hne : name ≠ [])
    (hname : ∀ c ∈ name, Template.isWord c = true)
    (hcs : ∀ c, cs.head? = some c → Template.isWord c = false) (h : Cut cs segments)
    (slot : Nat) :
    Cut (':' :: (name ++ cs)) (.placeholder (String.ofList name) slot :: segments) := by
  refine ⟨?_, ?_, ?_⟩
  · rw [List.flatMap_cons, h.joined]
    simp [Segment.source]
  · intro segment hmem
    rcases List.mem_cons.1 hmem with rfl | hmem
    · exact ⟨by simpa using hne, by simpa using hname⟩
    · exact h.wellFormed segment hmem
  · refine List.isChain_cons.2 ⟨fun segment hmem => ?_, h.adjacent⟩
    cases segment with
    | placeholder other slot => trivial
    | literal text =>
        intro c hc
        cases segments with
        | nil => simp at hmem
        | cons segment others =>
            obtain rfl : segment = .literal text := by simpa using hmem
            rcases h.tail with ⟨rest, rfl, _⟩
            exact hcs c (by simp [Segment.source, hc])

theorem slotsFrom_placeholder {name : String} {first : Nat}
    (h : SlotsFrom (first + 1) segments) :
    SlotsFrom first (.placeholder name first :: segments) := by
  have hcons : (Segment.placeholder name first :: segments).filterMap Segment.slot? =
      first :: segments.filterMap Segment.slot? := rfl
  rw [SlotsFrom, hcons, List.length_cons, List.range'_succ, ← h]

end Cut

theorem exists_cut (cs : List Char) (first : Nat) :
    ∃ segments, Cut cs segments ∧ SlotsFrom first segments := by
  induction hn : cs.length using Nat.strong_induction_on generalizing cs first with
  | _ n ih =>
      subst hn
      cases cs with
      | nil => exact ⟨[], ⟨rfl, by simp, .nil⟩, rfl⟩
      | cons c cs =>
          -- A placeholder is cut off with its name; any other character goes to the front.
          by_cases hstart : c = ':' ∧ ∃ d ds, cs = d :: ds ∧ Template.isWord d = true
          · rcases hstart with ⟨rfl, d, ds, rfl, hd⟩
            rcases Reader.exists_run hd ds with ⟨taken, rest, rfl, htaken, hrest⟩
            have hshorter : rest.length < (':' :: (d :: (taken ++ rest))).length := by
              rw [List.length_cons, List.length_cons, List.length_append]
              omega
            rcases ih rest.length hshorter rest (first + 1) rfl with ⟨segments, hcut, hslots⟩
            have hnext := hcut.cons_placeholder (List.cons_ne_nil d taken) htaken hrest
            exact ⟨_, hnext first, Cut.slotsFrom_placeholder hslots⟩
          · rcases ih cs.length (by simp) cs first rfl with ⟨segments, hcut, hslots⟩
            refine ⟨_, hcut.cons_text fun hcolon d hd => ?_, Cut.slotsFrom_consText hslots c⟩
            rcases List.head?_eq_some_iff.1 hd with ⟨ds, rfl⟩
            by_contra hword
            exact hstart ⟨hcolon, d, ds, rfl, by simpa using hword⟩

/-! ## The compiled template -/

namespace Template

theorem number_map_piece {first : Nat} {segments : List Segment} (h : SlotsFrom first segments) :
    number first (segments.map Segment.piece) = segments := by
  induction segments generalizing first with
  | nil => rfl
  | cons segment others ih =>
      cases segment with
      | literal text =>
          have hothers : SlotsFrom first others := h
          simp [Segment.piece, number, ih hothers]
      | placeholder name slot =>
          have hcons : slot :: others.filterMap Segment.slot? =
              first :: List.range' (first + 1) (others.filterMap Segment.slot?).length := h
          rcases List.cons.inj hcons with ⟨rfl, hothers⟩
          simp [Segment.piece, number, ih hothers]

/-- The segments of a schema are the pieces that the reader takes, and it takes the whole schema. -/
theorem segments_of_segmentation {source : String} {segments : List Segment}
    (h : Segmentation source segments) :
    Reader.many Piece.read? source.toList = some (segments.map Segment.piece, []) ∧
      (compile source).segments = segments := by
  have hread := Reader.many_eq_of_reads h.toCut.reads
  refine ⟨hread, ?_⟩
  have hpieces : pieces source.toList = segments.map Segment.piece := by
    rw [pieces, hread]
  rw [compile, hpieces, number_map_piece h.slots]

theorem exists_segmentation (source : String) : ∃ segments, Segmentation source segments := by
  rcases exists_cut source.toList 0 with ⟨segments, hcut, hslots⟩
  exact ⟨segments, hcut, hslots⟩

theorem segmentation_compile (source : String) :
    Segmentation source (compile source).segments := by
  rcases exists_segmentation source with ⟨segments, h⟩
  rwa [(segments_of_segmentation h).2]

theorem le_slot_of_mem {first slot : Nat} {name : String} {segments : List Segment}
    (h : SlotsFrom first segments) (hmem : .placeholder name slot ∈ segments) : first ≤ slot := by
  have hslot : slot ∈ segments.filterMap Segment.slot? :=
    List.mem_filterMap.2 ⟨_, hmem, rfl⟩
  rw [h] at hslot
  exact (List.mem_range'_1.1 hslot).1

theorem getElem?_filterMap_name? {first slot : Nat} {name : String} {segments : List Segment}
    (h : SlotsFrom first segments) :
    (segments.filterMap Segment.name?)[slot]? = some name ↔
      .placeholder name (first + slot) ∈ segments := by
  -- The first slot is fixed by the induction, so the list of names is counted from it.
  induction segments generalizing first slot with
  | nil => simp
  | cons segment others ih =>
      cases segment with
      | literal text =>
          have hothers : SlotsFrom first others := h
          have hnames : (Segment.literal text :: others).filterMap Segment.name? =
              others.filterMap Segment.name? := rfl
          rw [hnames, ih hothers]
          simp
      | placeholder other start =>
          have hcons : start :: others.filterMap Segment.slot? =
              first :: List.range' (first + 1) (others.filterMap Segment.slot?).length := h
          rcases List.cons.inj hcons with ⟨rfl, hothers⟩
          cases slot with
          | zero =>
              have hlater : .placeholder name start ∉ others := by
                intro hmem
                have hle := le_slot_of_mem hothers hmem
                omega
              simp [Segment.name?, hlater, eq_comm]
          | succ slot =>
              have hslot : start + (slot + 1) = start + 1 + slot := by omega
              have hne : start + 1 + slot ≠ start := by omega
              simp [Segment.name?, hslot, ih hothers, hne]

/-- The compiled template is the only segmentation of its source: the reader leaves no text over, so
what `pieces` keeps for such text is never used. -/
theorem compile_eq_iff_segmentation (source : String) :
    (∃ ps, Reader.many Piece.read? source.toList = some (ps, []) ∧
      (compile source).segments = number 0 ps) ∧
    (∀ segments, segments = (compile source).segments ↔ Segmentation source segments) ∧
    ∀ slot name, (compile source).placeholders[slot]? = some name ↔
      .placeholder name slot ∈ (compile source).segments := by
  rcases exists_segmentation source with ⟨segments, h⟩
  rcases segments_of_segmentation h with ⟨hread, hsegments⟩
  refine ⟨⟨_, hread, ?_⟩, fun others => ⟨?_, ?_⟩, fun slot name => ?_⟩
  · rw [hsegments, number_map_piece h.slots]
  · rintro rfl
    exact segmentation_compile source
  · intro hothers
    exact (segments_of_segmentation hothers).2.symm
  · have hslots := (segmentation_compile source).slots
    simpa [placeholders] using getElem?_filterMap_name? hslots

example : (compile "index::Name (:)").segments =
    [.literal "index:", .placeholder "Name" 0, .literal " (:)"] := by
  decide +kernel

end Template
end GraphSql
