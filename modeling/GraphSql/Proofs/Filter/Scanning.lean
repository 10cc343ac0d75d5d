import GraphSql.Filter.Condition
import GraphSql.Proofs.Text.Quoting

/-!
# Scanning — the pieces of joined texts

A run of plain text has no structure of its own, so two texts whose pieces differ only in how the
runs are cut are the same to the scanner:

* `pieces_marker`, `pieces_quoted`, `pieces_openQuote`, `pieces_plain` — the piece at the front;
* `stops` — the pieces that are not runs of plain text; `scan_induct` is the induction on them;
* `Closed`, `Markerless`, `Sealed`, `literals` — every quote is closed, no character is a marker,
  both, and the quoted literals in order;
* `stops_append` — behind a text whose quotes are closed the scanner starts anew;
* `exists_first_marker` — the first marker divides the stops of a text.
-/

namespace GraphSql
namespace Condition

open Text

variable {q c : Char} {cs xs ys body rest : List Char}

/-! ## The piece at the front -/

theorem pieces_nil : pieces [] = [] := by
  rw [pieces]

theorem pieces_marker (cs : List Char) : pieces ('?' :: cs) = .marker :: pieces cs := by
  rw [pieces, if_pos rfl]

theorem ne_marker_of_isQuote (hq : isQuote q = true) : q ≠ '?' := by
  rintro rfl
  exact absurd hq (by decide)

theorem pieces_quoted (hq : isQuote q = true) (h : body? q cs = some (body, rest)) :
    pieces (q :: cs) = .quoted q body :: pieces rest := by
  rw [pieces, if_neg (ne_marker_of_isQuote hq), if_pos hq]
  split
  · rename_i found after hfound
    have heq : (found, after) = (body, rest) := Option.some.inj (hfound.symm.trans h)
    cases heq
    rfl
  · rename_i hnone
    exact absurd (hnone.symm.trans h) (by simp)

theorem pieces_openQuote (hq : isQuote q = true) (h : body? q cs = none) :
    pieces (q :: cs) = .openQuote q :: pieces cs := by
  rw [pieces, if_neg (ne_marker_of_isQuote hq), if_pos hq]
  split
  · rename_i found after hfound
    exact absurd (hfound.symm.trans h) (by simp)
  · rfl

theorem pieces_plain (hc : isPlain c = true) (cs : List Char) :
    pieces (c :: cs) = .plain (c :: cs.takeWhile isPlain) :: pieces (cs.dropWhile isPlain) := by
  have hkind : c ≠ '?' ∧ isQuote c = false := by simpa [isPlain] using hc
  rw [pieces]
  simp [hkind]

/-! ## Stops -/

def Piece.isStop : Piece → Bool
  | .plain _ => false
  | _ => true

/-- The markers, the quoted literals and the quotes that never close, in order. -/
def stops (cs : List Char) : List Piece :=
  (pieces cs).filter Piece.isStop

theorem stops_nil : stops [] = [] := by
  rw [stops, pieces_nil, List.filter_nil]

theorem stops_marker (cs : List Char) : stops ('?' :: cs) = .marker :: stops cs := by
  rw [stops, pieces_marker]
  rfl

theorem stops_quoted (hq : isQuote q = true) (h : body? q cs = some (body, rest)) :
    stops (q :: cs) = .quoted q body :: stops rest := by
  rw [stops, pieces_quoted hq h]
  rfl

theorem stops_openQuote (hq : isQuote q = true) (h : body? q cs = none) :
    stops (q :: cs) = .openQuote q :: stops cs := by
  rw [stops, pieces_openQuote hq h]
  rfl

theorem stops_dropWhile (cs : List Char) : stops (cs.dropWhile isPlain) = stops cs := by
  cases cs with
  | nil => rfl
  | cons c cs =>
      by_cases hc : isPlain c = true
      · have hfront := congrArg (List.filter Piece.isStop) (pieces_plain hc cs)
        simpa [stops, hc, Piece.isStop] using hfront.symm
      · simp [hc]

theorem stops_plain (hc : isPlain c = true) (cs : List Char) : stops (c :: cs) = stops cs := by
  have hdrop := stops_dropWhile (c :: cs)
  have hrest := stops_dropWhile cs
  calc
    stops (c :: cs) = stops (cs.dropWhile isPlain) := by simpa [hc] using hdrop.symm
    _ = stops cs := hrest

/-- Every text is empty, or starts with a marker, a literal, an open quote or a plain character. -/
@[elab_as_elim]
theorem scan_induct {P : List Char → Prop} (nil : P [])
    (marker : ∀ cs, P cs → P ('?' :: cs))
    (quoted : ∀ q cs body rest, isQuote q = true → body? q cs = some (body, rest) → P rest →
      P (q :: cs))
    (openQuote : ∀ q cs, isQuote q = true → body? q cs = none → P cs → P (q :: cs))
    (plain : ∀ c cs, isPlain c = true → P cs → P (c :: cs)) (cs : List Char) : P cs := by
  induction hn : cs.length using Nat.strongRecOn generalizing cs with
  | ind n ih =>
      cases cs with
      | nil => exact nil
      | cons c cs =>
          have hlength : cs.length + 1 = n := by simpa using hn
          have htail : P cs := ih cs.length (by omega) cs rfl
          by_cases hmarker : c = '?'
          · cases hmarker
            exact marker cs htail
          · by_cases hc : isQuote c = true
            · cases hbody : body? c cs with
              | none => exact openQuote c cs hc hbody htail
              | some found =>
                  -- A literal takes at least its closing quote, so the rest is shorter.
                  have hshorter := length_lt_of_body? hbody
                  exact quoted c cs found.1 found.2 hc hbody
                    (ih found.2.length (by omega) found.2 rfl)
            · have hplain : isPlain c = true := by simp [isPlain, hmarker, hc]
              exact plain c cs hplain htail

/-! ## Closed quotes, markers and literals -/

def Piece.isOpen : Piece → Bool
  | .openQuote _ => true
  | _ => false

/-- A quoted literal with its quotes. -/
def Piece.literal? : Piece → Option (List Char)
  | .quoted q body => some (q :: (body ++ [q]))
  | _ => none

/-- Every quote is closed. -/
def Closed (cs : List Char) : Prop :=
  ∀ p ∈ pieces cs, p.isOpen = false

instance (cs : List Char) : Decidable (Closed cs) :=
  List.decidableBAll (fun p : Piece => p.isOpen = false) (pieces cs)

/-- No character is a marker. -/
def Markerless (cs : List Char) : Prop :=
  .marker ∉ pieces cs

instance (cs : List Char) : Decidable (Markerless cs) :=
  inferInstanceAs (Decidable (¬_))

/-- All stops are quoted literals. -/
structure Sealed (cs : List Char) : Prop where
  closed : Closed cs
  markerless : Markerless cs

/-- The quoted literals in order. -/
def literals (cs : List Char) : List (List Char) :=
  (pieces cs).filterMap Piece.literal?

theorem closed_iff_stops : Closed cs ↔ ∀ p ∈ stops cs, p.isOpen = false := by
  constructor
  · intro h p hp
    exact h p (List.mem_filter.1 hp).1
  · intro h p hp
    by_cases hstop : p.isStop = true
    · exact h p (List.mem_filter.2 ⟨hp, hstop⟩)
    · cases p with
      | plain text => rfl
      | _ => simp [Piece.isStop] at hstop

theorem markerless_iff_stops : Markerless cs ↔ .marker ∉ stops cs := by
  simp [Markerless, stops, Piece.isStop]

theorem literals_eq_stops (cs : List Char) : literals cs = (stops cs).filterMap Piece.literal? := by
  rw [literals, stops, List.filterMap_filter]
  congr 1
  funext p
  cases p <;> rfl

theorem sealed_iff_stops : Sealed cs ↔ (∀ p ∈ stops cs, p.isOpen = false) ∧ .marker ∉ stops cs := by
  constructor
  · intro h
    exact ⟨closed_iff_stops.1 h.closed, markerless_iff_stops.1 h.markerless⟩
  · rintro ⟨hclosed, hmarker⟩
    exact ⟨closed_iff_stops.2 hclosed, markerless_iff_stops.2 hmarker⟩

theorem Closed.of_stops {p : Piece} (h : Closed cs) (hstops : stops cs = p :: stops rest) :
    Closed rest := by
  have hall : ∀ p' ∈ p :: stops rest, p'.isOpen = false := by
    simpa [hstops] using closed_iff_stops.1 h
  exact closed_iff_stops.2 (List.forall_mem_cons.1 hall).2

/-! ## Joined texts -/

/-- When every quote of a text is closed, the scanner starts anew behind it. -/
theorem stops_append (h : Closed xs) (ys : List Char) : stops (xs ++ ys) = stops xs ++ stops ys := by
  induction xs using scan_induct with
  | nil => simp [stops_nil]
  | marker cs ih =>
      have hrest := ih (h.of_stops (stops_marker cs))
      simp [stops_marker, hrest]
  | quoted q cs body rest hq hbody ih =>
      have hrest := ih (h.of_stops (stops_quoted hq hbody))
      -- The literal is closed before the second text begins.
      have hlonger := stops_quoted hq (body?_append hbody ys)
      simp [stops_quoted hq hbody, hlonger, hrest]
  | openQuote q cs hq hbody _ =>
      have hmem : .openQuote q ∈ stops (q :: cs) := by
        simp [stops_openQuote hq hbody]
      exact absurd (closed_iff_stops.1 h _ hmem) (by simp [Piece.isOpen])
  | plain c cs hc ih =>
      have hclosed : Closed cs := by
        have hstops := closed_iff_stops.1 h
        exact closed_iff_stops.2 (by simpa [stops_plain hc] using hstops)
      have hrest := ih hclosed
      simp [stops_plain hc, hrest]

theorem Closed.append (hx : Closed xs) (hy : Closed ys) : Closed (xs ++ ys) := by
  rw [closed_iff_stops] at *
  intro p hp
  rw [stops_append (closed_iff_stops.2 hx)] at hp
  rcases List.mem_append.1 hp with hp | hp
  · exact hx p hp
  · exact hy p hp

theorem markerless_append_iff (hx : Closed xs) :
    Markerless (xs ++ ys) ↔ Markerless xs ∧ Markerless ys := by
  simp [markerless_iff_stops, stops_append hx]

theorem literals_append (hx : Closed xs) (ys : List Char) :
    literals (xs ++ ys) = literals xs ++ literals ys := by
  simp [literals_eq_stops, stops_append hx]

namespace Sealed

theorem append (hx : Sealed xs) (hy : Sealed ys) : Sealed (xs ++ ys) where
  closed := hx.closed.append hy.closed
  markerless := (markerless_append_iff hx.closed).2 ⟨hx.markerless, hy.markerless⟩

theorem of_plain (h : cs.all isPlain = true) : Sealed cs := by
  have hstops : stops cs = [] := by
    induction cs with
    | nil => exact stops_nil
    | cons c cs ih =>
        have hparts : isPlain c = true ∧ cs.all isPlain = true := by simpa using h
        simpa [stops_plain hparts.1] using ih hparts.2
  exact sealed_iff_stops.2 (by simp [hstops])

theorem intercalate {separator : List Char} (hsep : Sealed separator) {parts : List (List Char)} :
    (∀ part ∈ parts, Sealed part) → Sealed (separator.intercalate parts) := by
  intro h
  induction parts with
  | nil => exact of_plain rfl
  | cons part parts ih =>
      rcases List.forall_mem_cons.1 h with ⟨hpart, hparts⟩
      cases parts with
      | nil => simpa using hpart
      | cons other parts =>
          have hrest := ih hparts
          simpa [List.intercalate_cons_cons] using hpart.append (hsep.append hrest)

theorem quoteChars (cs : List Char) : Sealed (quoteChars cs) := by
  have hstops : stops (Text.quoteChars cs) = [.quoted '\'' (escape cs)] := by
    simpa [Text.quoteChars, stops_nil] using stops_quoted (by decide) (body?_escape cs [])
  exact sealed_iff_stops.2 (by simp [hstops, Piece.isOpen])

end Sealed

/-! ## Places of markers -/

theorem markersFrom_plain (hc : isPlain c = true) (offset : Nat) (cs : List Char) :
    markersFrom offset (pieces (c :: cs)) = markersFrom (offset + c.utf8Size) (pieces cs) := by
  cases cs with
  | nil => simp [pieces_plain hc, pieces_nil, markersFrom]
  | cons d ds =>
      by_cases hd : isPlain d = true
      -- The run that starts at `c` is the one that starts at `d` with `c` in front.
      · simp [pieces_plain hc, pieces_plain hd, hd, markersFrom, Piece.chars, byteLength,
          Nat.add_assoc]
      · simp [pieces_plain hc, hd, markersFrom, Piece.chars, byteLength]

theorem markersFrom_eq_nil_iff {offset : Nat} {ps : List Piece} :
    markersFrom offset ps = [] ↔ .marker ∉ ps := by
  induction ps generalizing offset with
  | nil => simp [markersFrom]
  | cons p ps ih =>
      by_cases hp : p = .marker
      · simp [markersFrom, hp]
      · simp [markersFrom, hp, ih, Ne.symm hp]

theorem markers_eq_nil_iff {condition : String} :
    markers condition = [] ↔ Markerless condition.toList :=
  markersFrom_eq_nil_iff

/-- A text with a marker is divided by its first one, and so are its stops. -/
theorem exists_first_marker (h : ¬Markerless cs) :
    ∃ before after, cs = before ++ '?' :: after ∧ Markerless before ∧
      stops cs = stops before ++ .marker :: stops after ∧
      ∀ offset, markersFrom offset (pieces cs) =
        (offset + byteLength before) ::
          markersFrom (offset + byteLength before + 1) (pieces after) := by
  induction cs using scan_induct with
  | nil => exact absurd (by simp [Markerless, pieces_nil]) h
  | marker cs _ =>
      refine ⟨[], cs, rfl, by simp [Markerless, pieces_nil], by simp [stops_marker, stops_nil], ?_⟩
      intro offset
      simp [pieces_marker, markersFrom, Piece.chars, byteLength]
      rfl
  | quoted q cs body rest hq hbody ih =>
      have hrest : ¬Markerless rest := by
        simpa [markerless_iff_stops, stops_quoted hq hbody] using h
      rcases ih hrest with ⟨before, after, rfl, hbefore, hstops, hplaces⟩
      have hfront : body? q (body ++ q :: before) = some (body, before) := body?_of_body? hbody before
      refine ⟨q :: (body ++ q :: before), after, ?_, ?_, ?_, ?_⟩
      · simp [eq_of_body? hbody]
      · simpa [markerless_iff_stops, stops_quoted hq hfront] using hbefore
      · simp [stops_quoted hq hbody, stops_quoted hq hfront, hstops]
      · intro offset
        have hlater := hplaces (offset + byteLength (q :: (body ++ [q])))
        simpa [pieces_quoted hq hbody, markersFrom, Piece.chars, byteLength, byteLength_append,
          Nat.add_assoc] using hlater
  | openQuote q cs hq hbody ih =>
      have hrest : ¬Markerless cs := by
        simpa [markerless_iff_stops, stops_openQuote hq hbody] using h
      rcases ih hrest with ⟨before, after, rfl, hbefore, hstops, hplaces⟩
      -- A quote that no later quote closes is not closed by an earlier end of the text either.
      have hfront : body? q before = none := by
        cases hfound : body? q before with
        | none => rfl
        | some found => exact absurd (body?_append hfound ('?' :: after)) (by simp [hbody])
      refine ⟨q :: before, after, rfl, ?_, ?_, ?_⟩
      · simpa [markerless_iff_stops, stops_openQuote hq hfront] using hbefore
      · simp [stops_openQuote hq hbody, stops_openQuote hq hfront, hstops]
      · intro offset
        have hlater := hplaces (offset + byteLength [q])
        simpa [pieces_openQuote hq hbody, markersFrom, Piece.chars, byteLength,
          Nat.add_assoc] using hlater
  | plain c cs hc ih =>
      have hrest : ¬Markerless cs := by
        simpa [markerless_iff_stops, stops_plain hc] using h
      rcases ih hrest with ⟨before, after, rfl, hbefore, hstops, hplaces⟩
      refine ⟨c :: before, after, rfl, ?_, ?_, ?_⟩
      · simpa [markerless_iff_stops, stops_plain hc] using hbefore
      · simp [stops_plain hc, hstops]
      · intro offset
        have hlater := hplaces (offset + c.utf8Size)
        simpa [markersFrom_plain hc, byteLength, Nat.add_assoc] using hlater

end Condition
end GraphSql
