import GraphSql.Filter
import GraphSql.Proofs.Result

/-!
# Splicing — a value in the place of its marker

The pieces of a condition cover it without a gap, so the place of a marker, counted in bytes, is one
where the condition can be cut:

* `flatMap_chars_pieces` — the pieces, one after the other, are the condition;
* `toList_splice`, `exists_splice` — a condition with a marker is cut at the first, and only that
  marker is replaced;
* `Clause.Matches` — the condition has as many markers as the clause has values;
* `infix_resolve`, `infix_render` — what a formatter writes for a value is part of the clause, and
  the clause is part of the filter;
* `render_error_iff_mapM` — the error of a filter is that of its clauses.
-/

namespace GraphSql

/-! ## Pieces and markers -/

namespace Condition

theorem flatMap_chars_pieces (cs : List Char) : (pieces cs).flatMap Piece.chars = cs := by
  fun_induction pieces cs with
  | case1 => rfl
  | case2 cs ih => simp [Piece.chars, ih]
  | case3 c cs _ _ body rest hbody ih =>
      rw [Text.eq_of_body? hbody]
      simp [Piece.chars, ih]
  | case4 c cs _ _ _ ih => simp [Piece.chars, ih]
  | case5 c cs _ _ ih => simp [Piece.chars, ih]

/-- The first place is that of the first marker. -/
theorem exists_of_markersFrom {offset place : Nat} {ps : List Piece} {places : List Nat}
    (h : markersFrom offset ps = place :: places) :
    ∃ front back, ps = front ++ .marker :: back ∧
      place = offset + Text.byteLength (front.flatMap Piece.chars) := by
  -- The offset of a piece is the length of all pieces in front, so the first marker ends them.
  induction ps generalizing offset with
  | nil => simp [markersFrom] at h
  | cons p ps ih =>
      by_cases hp : p = .marker
      · subst hp
        have hplace : offset = place := by
          simp only [markersFrom, if_true] at h
          exact (List.cons.inj h).1
        exact ⟨[], ps, rfl, by simp [Text.byteLength, hplace]⟩
      · simp only [markersFrom, if_neg hp] at h
        rcases ih h with ⟨front, back, rfl, hplace⟩
        refine ⟨p :: front, back, rfl, ?_⟩
        rw [hplace, List.flatMap_cons, Text.byteLength_append]
        omega

/-- Only the first marker is replaced. -/
theorem toList_splice {condition : String} {before after : List Char} {places : List Nat}
    (hmarkers : markers condition = Text.byteLength before :: places)
    (hsplit : condition.toList = before ++ '?' :: after) (text : String) :
    (splice condition text).toList = before ++ (text.toList ++ after) := by
  have hcut : Text.cutAt (Text.byteLength before) condition.toList =
      some (before, '?' :: after) := by
    simpa [hsplit] using Text.cutAt_byteLength before ('?' :: after)
  simp [splice, hmarkers, hcut]

theorem exists_splice {condition : String} (h : markers condition ≠ []) :
    ∃ before after, condition.toList = before ++ '?' :: after ∧
      ∀ text : String, (splice condition text).toList = before ++ (text.toList ++ after) := by
  rcases List.exists_cons_of_ne_nil h with ⟨place, places, hmarkers⟩
  rcases exists_of_markersFrom hmarkers with ⟨front, back, hpieces, hplace⟩
  have hsplit : condition.toList =
      front.flatMap Piece.chars ++ '?' :: back.flatMap Piece.chars := by
    rw [← flatMap_chars_pieces condition.toList, hpieces]
    simp [Piece.chars]
  have hfirst : markers condition = Text.byteLength (front.flatMap Piece.chars) :: places := by
    simpa [hplace] using hmarkers
  exact ⟨_, _, hsplit, toList_splice hfirst hsplit⟩

end Condition

/-! ## Clauses -/

/-- What stands between a clause and the one before it. -/
def Connector.lead : Connector → String
  | .none => " "
  | .and => " AND "
  | .or => " OR "

namespace Clause

def Matches (clause : Clause) : Prop :=
  (Condition.markers clause.condition).length = expectedMarkers clause.value

instance (clause : Clause) : Decidable clause.Matches :=
  inferInstanceAs (Decidable (_ = _))

theorem make_of_matches {clause : Clause} (h : clause.Matches) :
    make clause.connector clause.condition clause.value = .ok clause := by
  rw [Matches] at h
  simp only [make, h, if_true]

theorem make_of_not_matches {clause : Clause} (h : ¬clause.Matches) :
    make clause.connector clause.condition clause.value =
      .error (.markerMismatch clause.condition (expectedMarkers clause.value)
        (Condition.markers clause.condition).length) := by
  rw [Matches] at h
  simp only [make, h, if_false]

theorem make_eq_ok_iff {connector : Connector} {condition : String} {value : Option Value}
    {clause : Clause} :
    make connector condition value = .ok clause ↔
      clause = ⟨connector, condition, value⟩ ∧ clause.Matches := by
  by_cases h : Matches ⟨connector, condition, value⟩
  · have hmake := make_of_matches h
    constructor
    · intro hok
      obtain rfl := Except.ok.inj (hmake.symm.trans hok)
      exact ⟨rfl, h⟩
    · rintro ⟨rfl, _⟩
      exact hmake
  · have hmake := make_of_not_matches h
    constructor
    · intro hok
      exact absurd (hmake.symm.trans hok) (by simp)
    · rintro ⟨rfl, hmatch⟩
      exact absurd hmatch h

theorem resolve_some (connector : Connector) (condition : String) (v : Value) (f : Formatter) :
    resolve ⟨connector, condition, some v⟩ f =
      (f.format [v]).map fun answer => Condition.splice condition (answer.getD "") := by
  simp only [resolve]
  cases f.format [v] <;> rfl

/-- The text of the value is part of the text of the clause. -/
theorem infix_resolve {clause : Clause} {v : Value} {f : Formatter} {resolved : String}
    (hmatch : clause.Matches) (hv : clause.value = some v) (h : clause.resolve f = .ok resolved) :
    ∃ answer, f.format [v] = .ok answer ∧ (answer.getD "").toList <:+: resolved.toList := by
  rw [resolve, hv] at h
  rcases Result.bind_eq_ok_iff.1 h with ⟨answer, hanswer, hresolved⟩
  obtain rfl := Except.ok.inj hresolved
  -- A clause with a value has a marker; without one the value would not be written at all.
  have hmarkers : Condition.markers clause.condition ≠ [] := by
    intro hnil
    rw [Matches, hv, hnil] at hmatch
    simp [expectedMarkers] at hmatch
  rcases Condition.exists_splice hmarkers with ⟨before, after, _, hsplice⟩
  refine ⟨answer, hanswer, ?_⟩
  rw [hsplice]
  exact List.infix_append' _ _ _

theorem following_eq_map (clause : Clause) (f : Formatter) :
    clause.following f = (clause.resolve f).map fun text => clause.connector.lead ++ text := by
  rw [following]
  cases clause.resolve f with
  | error e => rfl
  | ok text => cases clause.connector <;> rfl

theorem infix_following {clause : Clause} {f : Formatter} {text : String}
    (h : clause.following f = .ok text) :
    ∃ resolved, clause.resolve f = .ok resolved ∧ resolved.toList <:+: text.toList := by
  rw [following_eq_map, Result.map_eq_ok_iff] at h
  rcases h with ⟨resolved, hresolved, rfl⟩
  refine ⟨resolved, hresolved, ?_⟩
  rw [String.toList_append]
  exact List.infix_append_right

end Clause

/-! ## Filters -/

theorem Filter.render_singleton {filter : Filter} {f : Formatter} {clause : Clause}
    (h : filter.clauses = [clause]) :
    filter.render f = (clause.resolve f).map fun text => some ("WHERE " ++ text) := by
  simp only [render, h]
  cases clause.resolve f with
  | error e => rfl
  | ok text => simp [bind, Except.bind, pure, Except.pure, Except.map]

/-- The text of a clause is part of the text of the filter. -/
theorem Filter.infix_render {filter : Filter} {f : Formatter} {answer : Option String}
    {clause : Clause} (h : filter.render f = .ok answer) (hmem : clause ∈ filter.clauses) :
    ∃ text resolved, answer = some text ∧ clause.resolve f = .ok resolved ∧
      resolved.toList <:+: text.toList := by
  cases hclauses : filter.clauses with
  | nil => simp [hclauses] at hmem
  | cons first others =>
      simp only [render, hclauses] at h
      rcases Result.bind_eq_ok_iff.1 h with ⟨opening, hopening, hrest⟩
      rcases Result.bind_eq_ok_iff.1 hrest with ⟨texts, htexts, hanswer⟩
      rw [hclauses] at hmem
      rcases List.mem_cons.1 hmem with rfl | hmem
      · refine ⟨_, opening, (Except.ok.inj hanswer).symm, hopening, ?_⟩
        rw [String.toList_append, String.toList_append]
        exact List.infix_append_of_infix_left List.infix_append_right
      · rcases Result.exists_mem_of_mapM htexts hmem with ⟨text, htext, hfollowing⟩
        rcases Clause.infix_following hfollowing with ⟨resolved, hresolved, hin⟩
        refine ⟨_, resolved, (Except.ok.inj hanswer).symm, hresolved, ?_⟩
        rw [String.toList_append, String.toList_join]
        refine List.infix_append_of_infix_right (List.IsInfix.trans hin ?_)
        rw [List.flatMap_def]
        exact List.infix_of_mem_flatten (List.mem_map_of_mem htext)

/-- The connectors in front of the clauses do not matter for the error. -/
theorem Filter.render_error_iff_mapM {filter : Filter} {f : Formatter} {e : Unrepresentable} :
    filter.render f = .error e ↔
      (filter.clauses.mapM fun clause => clause.resolve f) = .error e := by
  cases hclauses : filter.clauses with
  | nil => simp [render, hclauses, pure, Except.pure]
  | cons first others =>
      have hothers : (others.mapM fun clause => clause.following f) = .error e ↔
          (others.mapM fun clause => clause.resolve f) = .error e := by
        have hanswer : ∀ clause : Clause, (∃ text, clause.following f = .ok text) ↔
            ∃ text, clause.resolve f = .ok text := by
          intro clause
          rw [Clause.following_eq_map]
          cases clause.resolve f <;> simp [Except.map]
        have herror : ∀ clause : Clause, clause.following f = .error e ↔
            clause.resolve f = .error e := by
          intro clause
          rw [Clause.following_eq_map, Result.map_eq_error_iff]
        simp only [Result.mapM_first_error_iff, hanswer, herror]
      simp only [render, hclauses, List.mapM_cons]
      simp [Result.bind_eq_error_iff, hothers, pure, Except.pure]

end GraphSql
