import GraphSql.Proofs.Filter.Scanning
import GraphSql.Proofs.Filter.Splicing
import GraphSql.Text.Reader

/-!
# Markers — where a condition has its values, and that it can be cut there

The pieces of a condition can be found by trying readers in order, and its markers by going from
character to character.  Both agree with `pieces` and `markers`:

* `Piece.read?` — one piece: a marker, a literal, a run, or else a single character;
* `reads_pieces` — read one after the other, the pieces are the whole text;
* `behindQuote?`, `scanFrom` — the places of the markers, without pieces;
* `markersFrom_eq_scanFrom` — they are the places that the pieces give;
* `MarkerAt` — the place stands between two characters, and so does the one behind the marker;
* `markers_eq_scanFrom` — the markers of a condition, and what a clause makes of the first.
-/

namespace GraphSql

open Text

namespace Condition

variable {q c : Char} {cs body rest : List Char}

/-! ## Pieces by ordered choice -/

namespace Piece

def marker? : Reader Piece
  | '?' :: cs => some (.marker, cs)
  | _ => none

/-- A backslash and the character after it. -/
def escaped? : Reader (List Char)
  | '\\' :: c :: cs => some (['\\', c], cs)
  | _ => none

def chunk? (q : Char) : Reader (List Char) :=
  Reader.either escaped? (Reader.run fun c => c ≠ q && c ≠ '\\')

/-- A quote, as many chunks as there are, and the quote again. -/
def literalOf? (q : Char) : Reader Piece
  | [] => none
  | c :: cs =>
      if c = q then
        match Reader.many (chunk? q) cs with
        | some (chunks, d :: rest) => if d = q then some (.quoted q chunks.flatten, rest) else none
        | _ => none
      else none

def plain? : Reader Piece :=
  Reader.map .plain (Reader.run isPlain)

/-- Any character; only a quote that never closes comes this far. -/
def single? : Reader Piece
  | c :: cs => some (.openQuote c, cs)
  | [] => none

def read? : Reader Piece :=
  Reader.either marker?
    (Reader.either (Reader.either (literalOf? '\'') (literalOf? '"'))
      (Reader.either plain? single?))

/-! ## Literals -/

theorem body?_run {taken : List Char} (htaken : ∀ c ∈ taken, c ≠ q ∧ c ≠ '\\') (cs : List Char) :
    body? q (taken ++ cs) = (body? q cs).map fun found => (taken ++ found.1, found.2) := by
  induction taken with
  | nil => simp
  | cons c taken ih =>
      rcases List.forall_mem_cons.1 htaken with ⟨hc, hrest⟩
      simp [body?_cons hc.1 hc.2, ih hrest, Function.comp_def]

theorem chunk?_close (hq : q ≠ '\\') (cs : List Char) : chunk? q (q :: cs) = none := by
  simp [chunk?, Reader.either, escaped?, Reader.run, hq]

theorem chunk?_slash (q : Char) : chunk? q ['\\'] = none := by
  simp [chunk?, Reader.either, escaped?, Reader.run]

theorem chunk?_run {taken : List Char} (hc : c ≠ '\\')
    (htaken : ∀ d ∈ c :: taken, (d ≠ q && d ≠ '\\') = true)
    (hrest : ∀ d, rest.head? = some d → (d ≠ q && d ≠ '\\') = false) :
    chunk? q ((c :: taken) ++ rest) = some (c :: taken, rest) := by
  have hescaped : escaped? ((c :: taken) ++ rest) = none := by
    simp [escaped?, hc]
  have hrun : Reader.run (fun d => d ≠ q && d ≠ '\\') ((c :: taken) ++ rest) =
      some (c :: taken, rest) :=
    Reader.run_append (List.cons_ne_nil c taken) htaken hrest
  rw [chunk?, Reader.either, hescaped, hrun]

/-- The chunks stop at the closing quote if there is one, and at no quote otherwise. -/
theorem exists_reads_chunk?_body? (hq : q ≠ '\\') (cs : List Char) :
    ∃ chunks rest, Reader.Reads (chunk? q) cs chunks rest ∧
      (body? q cs = some (chunks.flatten, rest.tail) ∧ rest.head? = some q ∨
        body? q cs = none ∧ rest.head? ≠ some q) := by
  -- By length, since a chunk may be a whole run.
  induction hn : cs.length using Nat.strongRecOn generalizing cs with
  | ind n ih =>
      subst hn
      cases cs with
      | nil => exact ⟨[], [], .done rfl, by simp [body?]⟩
      | cons c cs =>
          by_cases hclose : c = q
          · subst hclose
            exact ⟨[], c :: cs, .done (chunk?_close hq cs), by simp [body?_close]⟩
          · by_cases hslash : c = '\\'
            · subst hslash
              cases cs with
              | nil => exact ⟨[], ['\\'], .done (chunk?_slash q), by simp [body?, hq.symm]⟩
              | cons d ds =>
                  have hshorter : ds.length < ('\\' :: d :: ds).length := by
                    simp only [List.length_cons]
                    omega
                  rcases ih ds.length hshorter ds rfl with ⟨chunks, rest, hreads, hbody⟩
                  refine ⟨['\\', d] :: chunks, rest, .step rfl hshorter hreads, ?_⟩
                  simpa [body?_escaped hq.symm] using hbody
            · have hfree : (c ≠ q && c ≠ '\\') = true := by simp [hclose, hslash]
              rcases Reader.exists_run (p := fun d => d ≠ q && d ≠ '\\') hfree cs with
                ⟨taken, later, rfl, htaken, hlater⟩
              have hshorter : later.length < (c :: (taken ++ later)).length := by
                simp only [List.length_cons, List.length_append]
                omega
              rcases ih later.length hshorter later rfl with ⟨chunks, rest, hreads, hbody⟩
              have hplain : ∀ d ∈ c :: taken, d ≠ q ∧ d ≠ '\\' := by simpa using htaken
              have hbodies : body? q (c :: (taken ++ later)) =
                  (body? q later).map fun found => (c :: taken ++ found.1, found.2) :=
                body?_run hplain later
              refine ⟨(c :: taken) :: chunks, rest,
                .step (chunk?_run hslash htaken hlater) hshorter hreads, ?_⟩
              simpa [hbodies] using hbody

theorem ne_slash_of_isQuote (hq : isQuote q = true) : q ≠ '\\' := by
  rintro rfl
  exact absurd hq (by decide)

theorem literalOf?_of_body? (hq : isQuote q = true) (h : body? q cs = some (body, rest)) :
    literalOf? q (q :: cs) = some (.quoted q body, rest) := by
  rcases exists_reads_chunk?_body? (ne_slash_of_isQuote hq) cs with
    ⟨chunks, stop, hreads, ⟨hbody, hclose⟩ | ⟨hnone, _⟩⟩
  · rcases List.head?_eq_some_iff.1 hclose with ⟨after, rfl⟩
    have hfound : (chunks.flatten, after) = (body, rest) := Option.some.inj (hbody.symm.trans h)
    rcases Prod.mk.inj hfound with ⟨rfl, rfl⟩
    simp [literalOf?, Reader.many_eq_of_reads hreads]
  · simp [h] at hnone

theorem literalOf?_of_not_body? (hq : isQuote q = true) (h : body? q cs = none) :
    literalOf? q (q :: cs) = none := by
  rcases exists_reads_chunk?_body? (ne_slash_of_isQuote hq) cs with
    ⟨chunks, stop, hreads, ⟨hbody, _⟩ | ⟨_, hopen⟩⟩
  · simp [h] at hbody
  · cases stop with
    | nil => simp [literalOf?, Reader.many_eq_of_reads hreads]
    | cons d after =>
        have hd : d ≠ q := by simpa using hopen
        simp [literalOf?, Reader.many_eq_of_reads hreads, hd]

theorem literalOf?_of_ne (h : c ≠ q) (cs : List Char) : literalOf? q (c :: cs) = none := by
  simp [literalOf?, h]

theorem literals_of_quote (hq : isQuote q = true) (cs : List Char) :
    Reader.either (literalOf? '\'') (literalOf? '"') (q :: cs) = literalOf? q (q :: cs) := by
  have hkind : q = '\'' ∨ q = '"' := by simpa [isQuote] using hq
  rcases hkind with rfl | rfl
  · cases h : literalOf? '\'' ('\'' :: cs) with
    | none => simp [Reader.either, h, literalOf?_of_ne (show '\'' ≠ '"' by decide)]
    | some found => simp [Reader.either, h]
  · simp [Reader.either, literalOf?_of_ne (show '"' ≠ '\'' by decide)]

/-! ## One piece -/

theorem marker?_of_ne (h : c ≠ '?') (cs : List Char) : marker? (c :: cs) = none := by
  simp [marker?, h]

theorem read?_quoted (hq : isQuote q = true) (h : body? q cs = some (body, rest)) :
    read? (q :: cs) = some (.quoted q body, rest) := by
  have hmarker := marker?_of_ne (ne_marker_of_isQuote hq) cs
  have hliteral := literals_of_quote hq cs
  rw [literalOf?_of_body? hq h] at hliteral
  rw [read?, Reader.either, hmarker]
  simp only [Reader.either] at hliteral ⊢
  simp [hliteral]

theorem read?_openQuote (hq : isQuote q = true) (h : body? q cs = none) :
    read? (q :: cs) = some (.openQuote q, cs) := by
  have hmarker := marker?_of_ne (ne_marker_of_isQuote hq) cs
  have hliteral := literals_of_quote hq cs
  rw [literalOf?_of_not_body? hq h] at hliteral
  have hplain : plain? (q :: cs) = none := by
    simp [plain?, Reader.map, Reader.run, isPlain, hq]
  rw [read?, Reader.either, hmarker]
  simp only [Reader.either] at hliteral ⊢
  simp [hliteral, hplain, single?]

theorem read?_plain (hc : isPlain c = true) (cs : List Char) :
    read? (c :: cs) = some (.plain (c :: cs.takeWhile isPlain), cs.dropWhile isPlain) := by
  have hkind : c ≠ '?' ∧ c ≠ '\'' ∧ c ≠ '"' := by simpa [isPlain, isQuote] using hc
  have hplain : plain? (c :: cs) =
      some (.plain (c :: cs.takeWhile isPlain), cs.dropWhile isPlain) := by
    simp [plain?, Reader.map, Reader.run, hc]
  simp [read?, Reader.either, marker?_of_ne hkind.1, literalOf?_of_ne hkind.2.1,
    literalOf?_of_ne hkind.2.2, hplain]

end Piece

/-- The readers find the pieces, one a round, and leave nothing of the text. -/
theorem reads_pieces (cs : List Char) : Reader.Reads Piece.read? cs (pieces cs) [] := by
  fun_induction pieces cs with
  | case1 => exact .done rfl
  | case2 cs ih => exact .step rfl (by simp) ih
  | case3 c cs _ hq body rest hbody ih =>
      have hshorter := length_lt_of_body? hbody
      exact .step (Piece.read?_quoted hq hbody) (by simp only [List.length_cons]; omega) ih
  | case4 c cs _ hq hbody ih => exact .step (Piece.read?_openQuote hq hbody) (by simp) ih
  | case5 c cs hmarker hquote ih =>
      have hc : isPlain c = true := by simp [isPlain, hmarker, hquote]
      have hdrop := (List.dropWhile_sublist isPlain (l := cs)).length_le
      exact .step (Piece.read?_plain hc cs) (by simp only [List.length_cons]; omega) ih

/-! ## Markers character by character -/

/-- The place behind the first `q`, and the text there; a backslash takes the next character with
it. -/
def behindQuote? (q : Char) (place : Nat) : List Char → Option (Nat × List Char)
  | [] => none
  | '\\' :: d :: cs => behindQuote? q (place + '\\'.utf8Size + d.utf8Size) cs
  | c :: cs =>
      if c = q then some (place + c.utf8Size, cs) else behindQuote? q (place + c.utf8Size) cs

theorem length_lt_of_behindQuote? {place next : Nat}
    (h : behindQuote? q place cs = some (next, rest)) : rest.length < cs.length := by
  fun_induction behindQuote? q place cs with
  | case1 => simp at h
  | case2 place d cs ih =>
      have hrest := ih h
      simp only [List.length_cons]
      omega
  | case3 => simp_all
  | case4 place c cs _ _ ih =>
      have hrest := ih h
      simp only [List.length_cons]
      omega

/-- The places of the markers of a text that starts at `place`. -/
def scanFrom (place : Nat) : List Char → List Nat
  | [] => []
  | c :: cs =>
      if c = '?' then place :: scanFrom (place + c.utf8Size) cs
      else if isQuote c then
        match _h : behindQuote? c (place + c.utf8Size) cs with
        | some (next, rest) => scanFrom next rest
        | none => scanFrom (place + c.utf8Size) cs
      else scanFrom (place + c.utf8Size) cs
  termination_by cs => cs.length
  decreasing_by
    · simp
    · have := length_lt_of_behindQuote? _h
      simp only [List.length_cons]
      omega
    · simp
    · simp

theorem behindQuote?_eq_body? (hq : q ≠ '\\') (place : Nat) (cs : List Char) :
    behindQuote? q place cs =
      (body? q cs).map fun found => (place + byteLength (found.1 ++ [q]), found.2) := by
  fun_induction behindQuote? q place cs with
  | case1 => simp [body?]
  | case2 place d cs ih =>
      rw [ih]
      simp [body?_escaped hq.symm, byteLength, Function.comp_def, Nat.add_assoc]
  | case3 place cs _ => simp [body?_close, byteLength]
  | case4 place c cs hslash hc ih =>
      by_cases hend : c = '\\'
      · subst hend
        cases cs with
        | nil => simp [behindQuote?, body?, hc]
        | cons d ds => exact absurd rfl (hslash d ds rfl)
      · simp [body?_cons hc hend, ih, byteLength, Function.comp_def, Nat.add_assoc]

theorem scanFrom_quoted (hq : isQuote q = true) (place : Nat)
    (h : body? q cs = some (body, rest)) :
    scanFrom place (q :: cs) = scanFrom (place + byteLength (q :: (body ++ [q]))) rest := by
  have hbehind : behindQuote? q (place + q.utf8Size) cs =
      some (place + byteLength (q :: (body ++ [q])), rest) := by
    simp [behindQuote?_eq_body? (Piece.ne_slash_of_isQuote hq), h, byteLength, Nat.add_assoc]
  rw [scanFrom, if_neg (ne_marker_of_isQuote hq), if_pos hq]
  split
  · rename_i next after hfound
    have hsame : (next, after) = (place + byteLength (q :: (body ++ [q])), rest) :=
      Option.some.inj (hfound.symm.trans hbehind)
    rcases Prod.mk.inj hsame with ⟨rfl, rfl⟩
    rfl
  · rename_i hnone
    simp [hbehind] at hnone

theorem scanFrom_openQuote (hq : isQuote q = true) (place : Nat) (h : body? q cs = none) :
    scanFrom place (q :: cs) = scanFrom (place + q.utf8Size) cs := by
  have hbehind : behindQuote? q (place + q.utf8Size) cs = none := by
    simp [behindQuote?_eq_body? (Piece.ne_slash_of_isQuote hq), h]
  rw [scanFrom, if_neg (ne_marker_of_isQuote hq), if_pos hq]
  split
  · rename_i hfound
    simp [hbehind] at hfound
  · rfl

theorem scanFrom_plain (hc : isPlain c = true) (place : Nat) (cs : List Char) :
    scanFrom place (c :: cs) = scanFrom (place + c.utf8Size) cs := by
  have hkind : c ≠ '?' ∧ isQuote c = false := by simpa [isPlain] using hc
  rw [scanFrom]
  simp [hkind]

theorem markersFrom_eq_scanFrom (place : Nat) (cs : List Char) :
    markersFrom place (pieces cs) = scanFrom place cs := by
  induction cs using scan_induct generalizing place with
  | nil => simp [pieces_nil, markersFrom, scanFrom]
  | marker cs ih =>
      have hsize : byteLength Piece.marker.chars = '?'.utf8Size := rfl
      rw [pieces_marker, markersFrom, scanFrom]
      simp [hsize, ih]
  | quoted q cs body rest hq hbody ih =>
      rw [pieces_quoted hq hbody, scanFrom_quoted hq place hbody, ← ih]
      simp [markersFrom, Piece.chars]
  | openQuote q cs hq hbody ih =>
      rw [pieces_openQuote hq hbody, scanFrom_openQuote hq place hbody, ← ih]
      simp [markersFrom, Piece.chars, byteLength]
  | plain c cs hc ih => rw [markersFrom_plain hc, scanFrom_plain hc, ih]

/-! ## Places in order -/

theorem le_of_mem_markersFrom {offset place : Nat} {ps : List Piece}
    (h : place ∈ markersFrom offset ps) : offset ≤ place := by
  induction ps generalizing offset with
  | nil => simp [markersFrom] at h
  | cons p ps ih =>
      by_cases hp : p = .marker
      · subst hp
        rcases List.mem_cons.1 (by simpa [markersFrom] using h) with rfl | hrest
        · exact Nat.le_refl _
        · exact Nat.le_trans (Nat.le_add_right _ _) (ih hrest)
      · have hrest : place ∈ markersFrom (offset + byteLength p.chars) ps := by
          simpa [markersFrom, hp] using h
        exact Nat.le_trans (Nat.le_add_right _ _) (ih hrest)

theorem pairwise_markersFrom (offset : Nat) (ps : List Piece) :
    (markersFrom offset ps).Pairwise (· < ·) := by
  induction ps generalizing offset with
  | nil => simp [markersFrom]
  | cons p ps ih =>
      by_cases hp : p = .marker
      · subst hp
        have hsize : byteLength Piece.marker.chars = 1 := rfl
        simp only [markersFrom, if_true, List.pairwise_cons, hsize]
        refine ⟨?_, ih _⟩
        intro place hplace
        exact le_of_mem_markersFrom hplace
      · simpa [markersFrom, hp] using ih (offset + byteLength p.chars)

/-! ## Cutting at a marker -/

theorem exists_of_mem_markersFrom {offset place : Nat} {ps : List Piece}
    (h : place ∈ markersFrom offset ps) :
    ∃ front back, ps = front ++ .marker :: back ∧
      place = offset + byteLength (front.flatMap Piece.chars) := by
  induction ps generalizing offset with
  | nil => simp [markersFrom] at h
  | cons p ps ih =>
      have hcases : p = .marker ∧ place = offset ∨
          place ∈ markersFrom (offset + byteLength p.chars) ps := by
        by_cases hp : p = .marker
        · have hmem : place = offset ∨ place ∈ markersFrom (offset + byteLength p.chars) ps := by
            simpa [markersFrom, hp] using h
          exact hmem.imp_left fun hplace => ⟨hp, hplace⟩
        · exact Or.inr (by simpa [markersFrom, hp] using h)
      rcases hcases with ⟨rfl, rfl⟩ | hrest
      · exact ⟨[], ps, rfl, by simp [byteLength]⟩
      · rcases ih hrest with ⟨front, back, rfl, hplace⟩
        exact ⟨p :: front, back, rfl, by simp [hplace, byteLength_append, Nat.add_assoc]⟩

/-- At the place the condition is cut in front of a marker, and one marker later behind it. -/
structure MarkerAt (place : Nat) (condition before after : String) : Prop where
  joined : condition = before ++ "?" ++ after
  front : cutAt place condition.toList = some (before.toList, '?' :: after.toList)
  behind : cutAt (place + '?'.utf8Size) condition.toList =
    some (before.toList ++ ['?'], after.toList)

theorem exists_markerAt {condition : String} {place : Nat} (h : place ∈ markers condition) :
    ∃ before after, MarkerAt place condition before after := by
  rcases exists_of_mem_markersFrom h with ⟨front, back, hpieces, hplace⟩
  have hsplit : condition.toList =
      front.flatMap Piece.chars ++ '?' :: back.flatMap Piece.chars := by
    simpa [hpieces, Piece.chars] using (flatMap_chars_pieces condition.toList).symm
  have hfront : place = byteLength (front.flatMap Piece.chars) := by simpa using hplace
  have hbehind : place + '?'.utf8Size = byteLength (front.flatMap Piece.chars ++ ['?']) := by
    simp [hfront, byteLength_append, byteLength]
  refine ⟨String.ofList (front.flatMap Piece.chars), String.ofList (back.flatMap Piece.chars),
    ?_, ?_, ?_⟩
  · exact String.toList_inj.1 (by simpa using hsplit)
  · simpa [hfront, hsplit] using cutAt_byteLength (front.flatMap Piece.chars) _
  · have hjoined : condition.toList =
        (front.flatMap Piece.chars ++ ['?']) ++ back.flatMap Piece.chars := by
      simpa using hsplit
    simpa [hbehind, hjoined] using
      cutAt_byteLength (front.flatMap Piece.chars ++ ['?']) (back.flatMap Piece.chars)

theorem MarkerAt.splice_eq {place : Nat} {condition before after : String} {places : List Nat}
    (h : MarkerAt place condition before after) (hfirst : markers condition = place :: places)
    (text : String) : splice condition text = before ++ text ++ after := by
  apply String.toList_inj.1
  simp [splice, hfirst, h.front]

theorem splice_of_no_marker {condition : String} (h : markers condition = []) (text : String) :
    splice condition text = condition := by
  simp [splice, h]

/-- The pieces are found by ordered choice and are the whole text.  The markers are the places that
the scan from character to character reports, from left to right; the condition can be cut at each
of them.  A clause has its value in the place of the first one, and every other character stays. -/
theorem markers_eq_scanFrom (condition : String) :
    Reader.many Piece.read? condition.toList = some (pieces condition.toList, []) ∧
    (pieces condition.toList).flatMap Piece.chars = condition.toList ∧
    markers condition = scanFrom 0 condition.toList ∧
    (markers condition).Pairwise (· < ·) ∧
    (∀ place ∈ markers condition, ∃ before after, MarkerAt place condition before after) ∧
    (∀ place places, markers condition = place :: places →
      ∃ before after, MarkerAt place condition before after ∧
        ∀ (connector : Connector) (v : Value) (f : Formatter),
          Clause.resolve ⟨connector, condition, some v⟩ f =
            (f.format [v]).map fun answer => before ++ answer.getD "" ++ after) ∧
    (markers condition = [] → ∀ (connector : Connector) (v : Value) (f : Formatter),
      Clause.resolve ⟨connector, condition, some v⟩ f = (f.format [v]).map fun _ => condition) ∧
    ∀ (connector : Connector) (f : Formatter),
      Clause.resolve ⟨connector, condition, none⟩ f = .ok condition := by
  refine ⟨Reader.many_eq_of_reads (reads_pieces _), flatMap_chars_pieces _,
    markersFrom_eq_scanFrom 0 _, pairwise_markersFrom 0 _, fun _ => exists_markerAt, ?_, ?_,
    fun _ _ => rfl⟩
  · intro place places hfirst
    rcases exists_markerAt (hfirst ▸ List.mem_cons_self) with ⟨before, after, hat⟩
    refine ⟨before, after, hat, fun connector v f => ?_⟩
    simp [Clause.resolve_some, hat.splice_eq hfirst]
  · intro hnone connector v f
    simp [Clause.resolve_some, splice_of_no_marker hnone]

/-- Two markers behind a quote that never closes, after a literal that hides one; the first letter
has two bytes. -/
def openCondition : String :=
  "ü = 'it\\'s ?' OR \"a ? AND b = ?"

theorem markers_eq_scanFrom_openQuote :
    markers openCondition = [21, 31] ∧ markers "a = '?'" = [] ∧
      (∃ before after, MarkerAt 31 openCondition before after) ∧
      (∃ before after, MarkerAt 21 openCondition before after ∧
        ∀ (connector : Connector) (v : Value) (f : Formatter),
          Clause.resolve ⟨connector, openCondition, some v⟩ f =
            (f.format [v]).map fun answer => before ++ answer.getD "" ++ after) ∧
      ∀ (connector : Connector) (v : Value) (f : Formatter),
        Clause.resolve ⟨connector, "a = '?'", some v⟩ f =
          (f.format [v]).map fun _ => "a = '?'" := by
  have hmarkers : markers openCondition = [21, 31] := by decide +kernel
  have hnone : markers "a = '?'" = [] := by decide +kernel
  have hlast : 31 ∈ markers openCondition := by simp [hmarkers]
  rcases markers_eq_scanFrom openCondition with ⟨_, _, _, _, hcut, hresolve, _, _⟩
  rcases markers_eq_scanFrom "a = '?'" with ⟨_, _, _, _, _, _, hkept, _⟩
  exact ⟨hmarkers, hnone, hcut 31 hlast, hresolve 21 [31] hmarkers, hkept hnone⟩

end Condition
end GraphSql
