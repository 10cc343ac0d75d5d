import GraphSql.Proofs.Filter.Scanning
import GraphSql.Proofs.Filter.Splicing
import GraphSql.Proofs.Value.Spelling

/-!
# Literals — the literal of a value in the place of its marker

The literal of a value brings its own quotes, all of them closed, and no marker.  So it can stand in
any condition whose quotes are closed, and neither reads the other as a part of itself:

* `sealed_literal` — every stop in the literal of a value is a quoted literal;
* `Divides` — the two sides of the one marker of a condition;
* `resolve_quoted` — what becomes of a condition when a value is written for its marker.
-/

namespace GraphSql

open Text

/-! ## Literals of values -/

namespace Condition

theorem isPlain_of_isSpelling {c : Char} (h : isSpelling c = true) : isPlain c = true := by
  have hne : c ≠ '?' ∧ c ≠ '\'' ∧ c ≠ '"' := by
    refine ⟨?_, ?_, ?_⟩ <;> rintro rfl <;> exact absurd h (by decide)
  simp [isPlain, isQuote, hne]

theorem Sealed.of_spelled {cs : List Char} (h : Spelled cs) : Sealed cs :=
  .of_plain (List.all_eq_true.2 fun c hc => isPlain_of_isSpelling (h c hc))

end Condition

open Condition (Sealed Closed Markerless literals markers)

namespace Value

theorem sealed_literal {v : Value} {text : String} (h : v.literal = .ok text) :
    Sealed text.toList := by
  induction v using Value.induct generalizing text with
  | pair field value _ => simp [literal] at h
  | scalar v hlist hpair =>
      cases v with
      | list items => exact absurd rfl hlist
      | pair field value => exact absurd rfl hpair
      | string s =>
          have htext : text = quote s := by simpa [literal] using h.symm
          simpa [htext, toList_quote] using Sealed.quoteChars s.toList
      | dateTime t =>
          have htext : text = quote (String.ofList t.stamp) := by simpa [literal] using h.symm
          simpa [htext, toList_quote] using Sealed.quoteChars t.stamp
      | _ =>
          rw [literal] at h
          exact Sealed.of_spelled (spelled_plain (by simp [shape]) (by simp [shape]) h).1
  | list items ih =>
      rw [literal_list, Result.map_eq_ok_iff] at h
      rcases h with ⟨texts, htexts, rfl⟩
      have hopen : Sealed ['['] := .of_plain rfl
      have hcomma : Sealed [','] := .of_plain rfl
      have hclose : Sealed [']'] := .of_plain rfl
      have hparts : ∀ part ∈ texts.map String.toList, Sealed part := by
        intro part hpart
        rcases List.mem_map.1 hpart with ⟨inner, hinner, rfl⟩
        rcases Result.exists_mem_of_mem_mapM htexts hinner with ⟨v, hv, hliteral⟩
        exact ih v hv hliteral
      have hjoined := (Sealed.intercalate hcomma hparts).append hclose
      simpa [toList_brackets] using hopen.append hjoined

end Value

/-! ## Conditions with one marker -/

namespace Condition

/-- The one marker of the condition stands between the two texts, and the scanner reads either of
them as it reads the whole. -/
structure Divides (condition before after : String) : Prop where
  joined : condition = before ++ "?" ++ after
  place : markers condition = [byteLength before.toList]
  before_markerless : Markerless before.toList
  after_markerless : Markerless after.toList
  stops_eq : stops condition.toList = stops before.toList ++ .marker :: stops after.toList

theorem exists_divides {condition : String} (h : (markers condition).length = 1) :
    ∃ before after, Divides condition before after := by
  have hmarker : ¬Markerless condition.toList := by
    intro hnone
    have hnil := markers_eq_nil_iff.2 hnone
    simp [hnil] at h
  rcases exists_first_marker hmarker with ⟨before, after, hsplit, hbefore, hstops, hplaces⟩
  have hall : markers condition =
      byteLength before :: markersFrom (byteLength before + 1) (pieces after) := by
    simpa [markers] using hplaces 0
  -- The first marker is the only one, so none is left behind it.
  have hrest : markersFrom (byteLength before + 1) (pieces after) = [] := by
    have hlength : (markersFrom (byteLength before + 1) (pieces after)).length + 1 = 1 := by
      simpa [hall] using h
    exact List.length_eq_zero_iff.1 (by omega)
  have hafter : Markerless after := markersFrom_eq_nil_iff.1 hrest
  have hjoined : condition.toList = (String.ofList before ++ "?" ++ String.ofList after).toList := by
    simpa using hsplit
  refine ⟨String.ofList before, String.ofList after, String.toList_inj.1 hjoined, ?_, ?_, ?_, ?_⟩
  · simpa [hrest] using hall
  · simpa using hbefore
  · simpa using hafter
  · simpa using hstops

namespace Divides

variable {condition before after : String}

theorem sealed_sides (h : Divides condition before after) (hclosed : Closed condition.toList) :
    Sealed before.toList ∧ Sealed after.toList := by
  have hstops : ∀ p ∈ stops before.toList ++ .marker :: stops after.toList, p.isOpen = false := by
    simpa only [h.stops_eq] using closed_iff_stops.1 hclosed
  rcases List.forall_mem_append.1 hstops with ⟨hbefore, hback⟩
  have hafter := (List.forall_mem_cons.1 hback).2
  exact ⟨⟨closed_iff_stops.2 hbefore, h.before_markerless⟩,
    ⟨closed_iff_stops.2 hafter, h.after_markerless⟩⟩

theorem literals_eq (h : Divides condition before after) :
    literals condition.toList = literals before.toList ++ literals after.toList := by
  simp [literals_eq_stops, h.stops_eq, List.filterMap_cons, Piece.literal?]

theorem splice_eq (h : Divides condition before after) (text : String) :
    splice condition text = before ++ text ++ after := by
  have hsplit : condition.toList = before.toList ++ '?' :: after.toList := by
    simp [h.joined]
  have hsplice := toList_splice h.place hsplit text
  exact String.toList_inj.1 (by simpa using hsplice)

end Divides
end Condition

/-! ## Resolving a clause -/

theorem Formatter.quoted_one {v : Value} {literal : String} (h : v.literal = .ok literal) :
    Formatter.quoted.format [v] = .ok (some literal) := by
  simp [format, formatSome, h, commaJoin, bind, Except.bind, pure, Except.pure]

namespace Clause

/-- The literal of a value takes the place of the one marker.  The result has no marker, its quotes
are closed, and its quoted literals are those in front of the marker, those of the value, and those
behind the marker. -/
theorem resolve_quoted {connector : Connector} {condition literal : String} {v : Value}
    {clause : Clause} (hclosed : Closed condition.toList) (hliteral : v.literal = .ok literal)
    (hclause : make connector condition (some v) = .ok clause) :
    ∃ before after : String, condition = before ++ "?" ++ after ∧
      markers condition = [byteLength before.toList] ∧
      literals condition.toList = literals before.toList ++ literals after.toList ∧
      clause.resolve .quoted = .ok (before ++ literal ++ after) ∧
      markers (before ++ literal ++ after) = [] ∧
      Closed (before ++ literal ++ after).toList ∧
      literals (before ++ literal ++ after).toList =
        literals before.toList ++ literals literal.toList ++ literals after.toList := by
  rcases make_eq_ok_iff.1 hclause with ⟨rfl, hmatch⟩
  rcases Condition.exists_divides hmatch with ⟨before, after, hdivides⟩
  rcases hdivides.sealed_sides hclosed with ⟨hbefore, hafter⟩
  have hvalue : Sealed literal.toList := Value.sealed_literal hliteral
  have hresult : Sealed (before ++ literal ++ after).toList := by
    simpa using (hbefore.append hvalue).append hafter
  have hresolve : resolve ⟨connector, condition, some v⟩ .quoted =
      .ok (before ++ literal ++ after) := by
    have hformat := Formatter.quoted_one hliteral
    rw [resolve_some, hformat, ← hdivides.splice_eq literal]
    rfl
  have hliterals : literals (before ++ literal ++ after).toList =
      literals before.toList ++ literals literal.toList ++ literals after.toList := by
    simp only [String.toList_append]
    rw [Condition.literals_append (hbefore.append hvalue).closed,
      Condition.literals_append hbefore.closed]
  exact ⟨before, after, hdivides.joined, hdivides.place, hdivides.literals_eq, hresolve,
    Condition.markers_eq_nil_iff.2 hresult.markerless, hresult.closed, hliterals⟩

/-- The marker stands between a literal that hides another marker and a literal that touches it. -/
def touchingMarker : String :=
  "a = \"it's ?\" AND ?'b?'"

def nestedTexts : Value :=
  .list [.string "c?'", .list [.string "\\"]]

def nestedLiteral : String :=
  "['c?\\'',['\\\\']]"

theorem resolve_quoted_touching :
    Closed touchingMarker.toList ∧ nestedTexts.literal = .ok nestedLiteral ∧
      make .and touchingMarker (some nestedTexts) =
        .ok ⟨.and, touchingMarker, some nestedTexts⟩ ∧
      ∃ before after : String, touchingMarker = before ++ "?" ++ after ∧
        markers touchingMarker = [byteLength before.toList] ∧
        literals touchingMarker.toList = literals before.toList ++ literals after.toList ∧
        resolve ⟨.and, touchingMarker, some nestedTexts⟩ .quoted =
          .ok (before ++ nestedLiteral ++ after) ∧
        markers (before ++ nestedLiteral ++ after) = [] ∧
        Closed (before ++ nestedLiteral ++ after).toList ∧
        literals (before ++ nestedLiteral ++ after).toList =
          literals before.toList ++ literals nestedLiteral.toList ++ literals after.toList := by
  have hclosed : Closed touchingMarker.toList := by decide +kernel
  have hliteral : nestedTexts.literal = .ok nestedLiteral := by decide +kernel
  have hmatch : Matches ⟨.and, touchingMarker, some nestedTexts⟩ := by decide +kernel
  have hmade : make .and touchingMarker (some nestedTexts) =
      .ok ⟨.and, touchingMarker, some nestedTexts⟩ :=
    make_eq_ok_iff.2 ⟨rfl, hmatch⟩
  exact ⟨hclosed, hliteral, hmade, resolve_quoted hclosed hliteral hmade⟩

end Clause
end GraphSql
