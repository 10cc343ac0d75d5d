import GraphSql.Json
import GraphSql.Proofs.Formatter.Refusal
import GraphSql.Proofs.Snapshot.Values

/-!
# Conversion — what is left of a JSON document in its value

Arrays and objects both become lists, and an object is told apart by the field pairs in its list,
which come from nothing else:

* `Json.at?`, `Value.at?` — the part at a place, given by its number on each level;
* `Json.OccursIn` — a document is found at some place of another one;
* `at?_ofJson` — the value at a place comes from the document at that place;
* `same_iff` — values without doubles are the same only if they are equal;
* `Json.Recoverable`, `ofJson_inj` — documents of integers without empty objects are fixed by their
  values;
* `holdsPair_ofJson_iff` — field pairs come from objects with members;
* `conversion_faithful` — equality, integers and literals of converted documents.
-/

namespace GraphSql

/-! ## Places -/

namespace Json

/-- The documents one level below. -/
def parts : Json → List Json
  | .array items => items
  | .object members => members.map Prod.snd
  | _ => []

def at? : List Nat → Json → Option Json
  | [], j => some j
  | i :: place, j => j.parts[i]?.bind (at? place)

def OccursIn (found j : Json) : Prop :=
  ∃ place, j.at? place = some found

/-- To prove a property of all documents, prove it of a document from its parts. -/
@[elab_as_elim]
theorem induct {P : Json → Prop} (step : ∀ j : Json, (∀ part ∈ j.parts, P part) → P j)
    (j : Json) : P j :=
  @Json.rec P (fun items => ∀ item ∈ items, P item) (fun members => ∀ m ∈ members, P m.2)
    (fun m => P m.2) (step _ (by simp [parts])) (fun _ => step _ (by simp [parts]))
    (fun _ => step _ (by simp [parts])) (fun _ => step _ (by simp [parts]))
    (fun _ => step _ (by simp [parts])) (fun _ hitems => step _ hitems)
    (fun _ hmembers => step _ (List.forall_mem_map.2 hmembers)) (by simp)
    (fun _ _ hhead htail => List.forall_mem_cons.2 ⟨hhead, htail⟩) (by simp)
    (fun _ _ hhead htail => List.forall_mem_cons.2 ⟨hhead, htail⟩) (fun _ _ hvalue => hvalue) j

theorem occursIn_iff {found j : Json} :
    found.OccursIn j ↔ j = found ∨ ∃ part ∈ j.parts, found.OccursIn part := by
  constructor
  · rintro ⟨place, hplace⟩
    cases place with
    | nil => exact Or.inl (Option.some.inj hplace)
    | cons i place =>
        rcases Option.bind_eq_some_iff.1 hplace with ⟨part, hpart, hfound⟩
        exact Or.inr ⟨part, List.mem_of_getElem? hpart, place, hfound⟩
  · rintro (rfl | ⟨part, hpart, place, hplace⟩)
    · exact ⟨[], rfl⟩
    · rcases List.mem_iff_getElem?.1 hpart with ⟨i, hi⟩
      refine ⟨i :: place, ?_⟩
      rw [at?, hi]
      exact hplace

theorem OccursIn.of_part {found part j : Json} (h : found.OccursIn part) (hpart : part ∈ j.parts) :
    found.OccursIn j :=
  occursIn_iff.2 (Or.inr ⟨part, hpart, h⟩)

end Json

namespace Value

/-- The value of a field pair; any other value stands for itself. -/
def content : Value → Value
  | .pair _ v => v
  | v => v

/-- The values one level below, those of field pairs without their fields. -/
def parts : Value → List Value
  | .list items => items.map content
  | _ => []

def at? : List Nat → Value → Option Value
  | [], v => some v
  | i :: place, v => v.parts[i]?.bind (at? place)

/-! ## The value of a document -/

variable {j : Json}

def ofMember (m : String × Json) : Value :=
  .pair m.1 (ofJson m.2)

theorem ofJson_array (items : List Json) : ofJson (.array items) = .list (items.map ofJson) := by
  have hitems : ofJsonItems items = items.map ofJson := by
    induction items with
    | nil => rfl
    | cons item items ih => rw [ofJsonItems, ih, List.map_cons]
  rw [ofJson, hitems]

theorem ofJson_object (members : List (String × Json)) :
    ofJson (.object members) = .list (members.map ofMember) := by
  have hmembers : ofJsonMembers members = members.map ofMember := by
    induction members with
    | nil => rfl
    | cons m members ih => rw [ofJsonMembers, ih, List.map_cons, ofMember]
  rw [ofJson, hmembers]

/-- An integer is signed if it can be, and unsigned otherwise. -/
theorem ofInteger_cases (n : Json.Integer) :
    (∃ i : Int64, ofInteger n = .int i ∧ i.toInt = n.val) ∨
      9223372036854775807 < n.val ∧ ∃ u : UInt64, ofInteger n = .uint u ∧ (u.toNat : Int) = n.val := by
  rcases n with ⟨n, hlow, hhigh⟩
  rw [ofInteger]
  cases hfits : Width.int64? n with
  | some i => exact Or.inl ⟨i, rfl, Width.toInt_of_int64? hfits⟩
  | none =>
      have hlarge : 9223372036854775807 < n := by
        by_contra hsmall
        rw [Width.int64?, if_pos ⟨hlow, by omega⟩] at hfits
        simp at hfits
      refine Or.inr ⟨hlarge, UInt64.ofNat n.toNat, rfl, ?_⟩
      rw [UInt64.toNat_ofNat_of_lt' (by simp only [UInt64.size]; omega)]
      exact Int.toNat_of_nonneg (by omega)

theorem shape_ofInteger (n : Json.Integer) :
    (ofInteger n).shape = .integer ∨ (ofInteger n).shape = .unsigned := by
  rcases ofInteger_cases n with ⟨i, hi, _⟩ | ⟨_, u, hu, _⟩
  · exact Or.inl (by rw [hi, shape])
  · exact Or.inr (by rw [hu, shape])

theorem ofInteger_ne {v : Value} (hint : v.shape ≠ .integer) (huint : v.shape ≠ .unsigned)
    (n : Json.Integer) : ofInteger n ≠ v := by
  rintro rfl
  exact (shape_ofInteger n).elim hint huint

theorem not_compound_ofInteger (n : Json.Integer) : ¬(ofInteger n).Compound := by
  rcases shape_ofInteger n with h | h <;> simp [Compound, h]

theorem ofInteger_inj {m n : Json.Integer} (h : ofInteger m = ofInteger n) : m = n := by
  have hval : m.val = n.val := by
    rcases ofInteger_cases m with ⟨i, hi, him⟩ | ⟨_, u, hu, hum⟩
    · rcases ofInteger_cases n with ⟨i', hi', hin⟩ | ⟨_, u', hu', _⟩
      · rw [hi, hi'] at h
        rw [← him, ← hin, Value.int.inj h]
      · rw [hi, hu'] at h
        cases h
    · rcases ofInteger_cases n with ⟨i', hi', _⟩ | ⟨_, u', hu', hun⟩
      · rw [hu, hi'] at h
        cases h
      · rw [hu, hu'] at h
        rw [← hum, ← hun, Value.uint.inj h]
  cases m
  cases n
  simpa using hval

/-- Field pairs come from objects only. -/
theorem ofJson_ne_pair (j : Json) (field : String) (v : Value) : ofJson j ≠ .pair field v := by
  cases j with
  | integer n => exact ofInteger_ne (by simp [shape]) (by simp [shape]) n
  | _ => simp [ofJson]

theorem content_ofJson (j : Json) : (ofJson j).content = ofJson j := by
  cases hj : ofJson j with
  | pair field v => exact absurd hj (ofJson_ne_pair j field v)
  | _ => rfl

theorem parts_ofJson (j : Json) : (ofJson j).parts = j.parts.map ofJson := by
  cases j with
  | integer n =>
      rcases ofInteger_cases n with ⟨i, hi, _⟩ | ⟨_, u, hu, _⟩
      · rw [ofJson, hi]
        rfl
      · rw [ofJson, hu]
        rfl
  | array items => simp [ofJson_array, parts, Json.parts, content_ofJson]
  | object members => simp [ofJson_object, parts, Json.parts, ofMember, content]
  | _ => rfl

theorem at?_ofJson (place : List Nat) (j : Json) :
    (ofJson j).at? place = (j.at? place).map ofJson := by
  induction place generalizing j with
  | nil => rfl
  | cons i place ih =>
      rw [at?, Json.at?, parts_ofJson, List.getElem?_map]
      cases j.parts[i]? with
      | none => rfl
      | some part => exact ih part

/-! ## Equal values -/

theorem sameItems_iff {items others : List Value}
    (hitems : ∀ v ∈ items, ∀ w, v.same w = true ↔ v = w) :
    sameItems items others = true ↔ items = others := by
  induction items generalizing others with
  | nil => cases others <;> simp [sameItems]
  | cons v items ih =>
      rcases List.forall_mem_cons.1 hitems with ⟨hv, hrest⟩
      cases others with
      | nil => simp [sameItems]
      | cons w others => simp [sameItems, hv w, ih hrest]

/-- Only doubles can be different from themselves, or the same without being equal. -/
theorem same_iff {v w : Value} (h : v.isFloatFree = true) : v.same w = true ↔ v = w := by
  induction v using Value.induct generalizing w with
  | scalar v hlist hpair =>
      cases v with
      | float x => simp [isFloatFree] at h
      | list items => exact absurd rfl hlist
      | pair field value => exact absurd rfl hpair
      | _ => cases w <;> simp [same]
  | list items ih =>
      have hitems : ∀ v ∈ items, ∀ w, v.same w = true ↔ v = w := by
        intro v hv w
        exact ih v hv (areFloatFree_iff.1 h v hv)
      cases w with
      | list others => simp [same, sameItems_iff hitems]
      | _ => simp [same]
  | pair field value ih =>
      cases w with
      | pair other value' => simp [same, ih h]
      | _ => simp [same]

theorem isFloatFree_ofJson (h : ∀ x, ¬(Json.float x).OccursIn j) :
    (ofJson j).isFloatFree = true := by
  induction j using Json.induct with
  | step j ih =>
      have hparts : ∀ part ∈ j.parts, (ofJson part).isFloatFree = true := by
        intro part hpart
        exact ih part hpart fun x hx => h x (hx.of_part hpart)
      cases j with
      | float x => exact absurd (Json.occursIn_iff.2 (Or.inl rfl)) (h x)
      | integer n =>
          rcases ofInteger_cases n with ⟨i, hi, _⟩ | ⟨_, u, hu, _⟩
          · rw [ofJson, hi]
            rfl
          · rw [ofJson, hu]
            rfl
      | array items =>
          rw [ofJson_array, isFloatFree, areFloatFree_iff]
          exact List.forall_mem_map.2 hparts
      | object members =>
          rw [ofJson_object, isFloatFree, areFloatFree_iff]
          exact List.forall_mem_map.2 (List.forall_mem_map.1 hparts)
      | _ => rfl

end Value

/-! ## Documents that are fixed by their values -/

/-- The numbers of the document are integers, and its objects have members. -/
structure Json.Recoverable (j : Json) : Prop where
  noFloat : ∀ x, ¬(Json.float x).OccursIn j
  noEmpty : ¬(Json.object []).OccursIn j

theorem Json.recoverable_iff {j : Json} :
    j.Recoverable ↔
      (∀ x, j ≠ .float x) ∧ j ≠ .object [] ∧ ∀ part ∈ j.parts, part.Recoverable := by
  constructor
  · intro h
    refine ⟨fun x hx => h.noFloat x (occursIn_iff.2 (Or.inl hx)),
      fun hempty => h.noEmpty (occursIn_iff.2 (Or.inl hempty)), fun part hpart => ?_⟩
    exact ⟨fun x hx => h.noFloat x (hx.of_part hpart),
      fun hempty => h.noEmpty (hempty.of_part hpart)⟩
  · rintro ⟨hfloat, hempty, hparts⟩
    refine ⟨fun x hx => ?_, fun hx => ?_⟩
    · rcases occursIn_iff.1 hx with hj | ⟨part, hpart, hpartx⟩
      · exact hfloat x hj
      · exact (hparts part hpart).noFloat x hpartx
    · rcases occursIn_iff.1 hx with hj | ⟨part, hpart, hpartx⟩
      · exact hempty hj
      · exact (hparts part hpart).noEmpty hpartx

theorem Json.Recoverable.part {part j : Json} (h : j.Recoverable) (hpart : part ∈ j.parts) :
    part.Recoverable :=
  (recoverable_iff.1 h).2.2 part hpart

namespace Value

variable {j : Json}

/-- A document that is neither an array nor an object is fixed by its value. -/
theorem eq_of_ofJson_scalar {k : Json} (hscalar : ¬(ofJson k).Compound)
    (h : ofJson j = ofJson k) : j = k := by
  cases k with
  | integer n =>
      cases j with
      | integer m => rw [ofInteger_inj h]
      | _ =>
          exact absurd h.symm
            (ofInteger_ne (by simp [ofJson, shape]) (by simp [ofJson, shape]) n)
  | array items => exact absurd (Or.inl (by simp [ofJson, shape])) hscalar
  | object members => exact absurd (Or.inl (by simp [ofJson, shape])) hscalar
  | _ =>
      cases j with
      | integer m =>
          exact absurd h (ofInteger_ne (by simp [ofJson, shape]) (by simp [ofJson, shape]) m)
      | _ => simp_all [ofJson]

/-- A list comes from an array or from an object. -/
theorem cases_list_of_ofJson {values : List Value} (h : ofJson j = .list values) :
    (∃ items, j = .array items ∧ values = items.map ofJson) ∨
      ∃ members, j = .object members ∧ values = members.map ofMember := by
  cases j with
  | array items =>
      rw [ofJson_array] at h
      exact Or.inl ⟨items, rfl, (Value.list.inj h).symm⟩
  | object members =>
      rw [ofJson_object] at h
      exact Or.inr ⟨members, rfl, (Value.list.inj h).symm⟩
  | integer n => exact absurd h (ofInteger_ne (by simp [shape]) (by simp [shape]) n)
  | _ => simp [ofJson] at h

/-- The first field pair tells an object with members from an array. -/
theorem map_ofJson_ne_map_ofMember (items : List Json) {members : List (String × Json)}
    (hmembers : members ≠ []) : items.map ofJson ≠ members.map ofMember := by
  rcases List.exists_cons_of_ne_nil hmembers with ⟨m, rest, rfl⟩
  intro h
  cases items with
  | nil => simp at h
  | cons item items =>
      rw [List.map_cons, List.map_cons] at h
      exact ofJson_ne_pair item m.1 (ofJson m.2) (List.cons.inj h).1

theorem eq_of_map_eq {α β : Type} {f : α → β} {xs ys : List α}
    (hf : ∀ x ∈ xs, ∀ y ∈ ys, f x = f y → x = y) (h : xs.map f = ys.map f) : xs = ys := by
  induction xs generalizing ys with
  | nil => exact (List.map_eq_nil_iff.1 h.symm).symm
  | cons x xs ih =>
      cases ys with
      | nil => simp at h
      | cons y ys =>
          rcases List.cons.inj h with ⟨hhead, htail⟩
          have hrest := ih (fun x' hx y' hy =>
            hf x' (List.mem_cons_of_mem x hx) y' (List.mem_cons_of_mem y hy)) htail
          rw [hf x List.mem_cons_self y List.mem_cons_self hhead, hrest]

/-- Documents of integers without empty objects are equal when their values are. -/
theorem ofJson_inj {a b : Json} (ha : a.Recoverable) (hb : b.Recoverable)
    (h : ofJson a = ofJson b) : a = b := by
  induction a using Json.induct generalizing b with
  | step a ih =>
      cases a with
      | array items =>
          rw [ofJson_array] at h
          rcases cases_list_of_ofJson h.symm with ⟨others, rfl, hmap⟩ | ⟨members, rfl, hmap⟩
          · have hitems : ∀ item ∈ items, ∀ other ∈ others, ofJson item = ofJson other →
                item = other := by
              intro item hitem other hother hsame
              exact ih item hitem (ha.part hitem) (hb.part hother) hsame
            rw [eq_of_map_eq hitems hmap]
          -- An object without members has the value of an array without items, so it has some.
          · have hfilled : members ≠ [] := by simpa using (Json.recoverable_iff.1 hb).2.1
            exact absurd hmap (map_ofJson_ne_map_ofMember items hfilled)
      | object members =>
          rw [ofJson_object] at h
          rcases cases_list_of_ofJson h.symm with ⟨items, rfl, hmap⟩ | ⟨others, rfl, hmap⟩
          · have hfilled : members ≠ [] := by simpa using (Json.recoverable_iff.1 ha).2.1
            exact absurd hmap.symm (map_ofJson_ne_map_ofMember items hfilled)
          · have hmembers : ∀ m ∈ members, ∀ other ∈ others, ofMember m = ofMember other →
                m = other := by
              intro m hm other hother hsame
              have hmPart : m.2 ∈ (Json.object members).parts := List.mem_map_of_mem hm
              have hotherPart : other.2 ∈ (Json.object others).parts := List.mem_map_of_mem hother
              rcases Value.pair.inj hsame with ⟨hname, hvalue⟩
              exact Prod.ext hname
                (ih m.2 hmPart (ha.part hmPart) (hb.part hotherPart) hvalue)
            rw [eq_of_map_eq hmembers hmap]
      | integer n =>
          have hscalar : ¬(ofJson (.integer n)).Compound := by
            rw [ofJson]
            exact not_compound_ofInteger n
          exact (eq_of_ofJson_scalar hscalar h.symm).symm
      | _ => exact (eq_of_ofJson_scalar (by simp [ofJson, Compound, shape]) h.symm).symm

/-! ## Literals -/

theorem holdsPair_list_iff {items : List Value} :
    (Value.list items).HoldsPair ↔ ∃ v ∈ items, v.HoldsPair := by
  constructor
  · intro h
    cases h with
    | item hmem hv => exact ⟨_, hmem, hv⟩
  · rintro ⟨v, hmem, hv⟩
    exact .item hmem hv

/-- Field pairs come from the objects that have members. -/
theorem holdsPair_ofJson_iff :
    (ofJson j).HoldsPair ↔ ∃ m members, (Json.object (m :: members)).OccursIn j := by
  induction j using Json.induct with
  | step j ih =>
      have hparts : (∃ m members, (Json.object (m :: members)).OccursIn j) ↔
          (∃ m members, j = .object (m :: members)) ∨ ∃ part ∈ j.parts, (ofJson part).HoldsPair := by
        constructor
        · rintro ⟨m, members, hoccurs⟩
          rcases Json.occursIn_iff.1 hoccurs with hj | ⟨part, hpart, hoccurs⟩
          · exact Or.inl ⟨m, members, hj⟩
          · exact Or.inr ⟨part, hpart, (ih part hpart).2 ⟨m, members, hoccurs⟩⟩
        · rintro (⟨m, members, hj⟩ | ⟨part, hpart, hholds⟩)
          · exact ⟨m, members, Json.occursIn_iff.2 (Or.inl hj)⟩
          · rcases (ih part hpart).1 hholds with ⟨m, members, hoccurs⟩
            exact ⟨m, members, hoccurs.of_part hpart⟩
      rw [hparts]
      cases j with
      | array items => simp [ofJson_array, holdsPair_list_iff, Json.parts]
      | object members =>
          cases members with
          | nil => simp [ofJson_object, holdsPair_list_iff, Json.parts]
          | cons m members =>
              have hpair : (ofJson (.object (m :: members))).HoldsPair := by
                rw [ofJson_object]
                exact .item List.mem_cons_self (.pair m.1 (ofJson m.2))
              simp [hpair]
      | integer n =>
          simp [ofJson, Json.parts, mt HoldsPair.compound (not_compound_ofInteger n)]
      | _ =>
          have hscalar : ∀ v : Value, ¬v.Compound → ¬v.HoldsPair := fun v => mt HoldsPair.compound
          simp [ofJson, Json.parts, hscalar, Compound, shape]

theorem literal_ofJson_iff :
    (∃ text, (ofJson j).literal = .ok text) ↔
      ∀ m members, ¬(Json.object (m :: members)).OccursIn j := by
  have hholds : (∃ text, (ofJson j).literal = .ok text) ↔ ¬(ofJson j).HoldsPair := by
    rw [← literal_error_iff]
    cases (ofJson j).literal <;> simp
  rw [hholds, holdsPair_ofJson_iff]
  simp

/-- Of documents of integers without empty objects, only equal ones have the same value.  In any
document an integer is the same number in the value, at the same place, signed if it fits and
unsigned otherwise, and the value has a literal when no object in the document has members. -/
theorem conversion_faithful (a b : Json) :
    (a.Recoverable → b.Recoverable → ((ofJson a).same (ofJson b) = true ↔ a = b)) ∧
    (∀ (place : List Nat) (n : Json.Integer), a.at? place = some (.integer n) →
      (n.val ≤ 9223372036854775807 →
        ∃ i : Int64, (ofJson a).at? place = some (.int i) ∧ i.toInt = n.val) ∧
      (9223372036854775807 < n.val →
        ∃ u : UInt64, (ofJson a).at? place = some (.uint u) ∧ (u.toNat : Int) = n.val)) ∧
    ((∃ text, (ofJson a).literal = .ok text) ↔
      ∀ m members, ¬(Json.object (m :: members)).OccursIn a) := by
  refine ⟨?_, ?_, literal_ofJson_iff⟩
  · intro ha hb
    rw [same_iff (isFloatFree_ofJson ha.noFloat)]
    exact ⟨ofJson_inj ha hb, congrArg ofJson⟩
  · intro place n hplace
    have hvalue : (ofJson a).at? place = some (ofInteger n) := by
      rw [at?_ofJson, hplace]
      rfl
    rw [hvalue]
    rcases ofInteger_cases n with ⟨i, hi, hval⟩ | ⟨hlarge, u, hu, hval⟩
    · have hhigh := i.toInt_lt
      exact ⟨fun _ => ⟨i, by rw [hi], hval⟩, fun hlarge => by omega⟩
    · exact ⟨fun hsmall => by omega, fun _ => ⟨u, by rw [hu], hval⟩⟩

/-- An integer beyond the signed ones, in an object in an array. -/
def objectInArray : Json :=
  .array [.object [("a", .integer ⟨9223372036854775808, by decide⟩)]]

/-- The same with an array in the place of the object. -/
def arrayInArray : Json :=
  .array [.array [.integer ⟨9223372036854775808, by decide⟩]]

theorem conversion_faithful_nested :
    objectInArray.Recoverable ∧ arrayInArray.Recoverable ∧
      (ofJson objectInArray).same (ofJson arrayInArray) = false ∧
      (∃ u : UInt64, (ofJson objectInArray).at? [0, 0] = some (.uint u) ∧
        (u.toNat : Int) = 9223372036854775808) ∧
      (¬∃ text, (ofJson objectInArray).literal = .ok text) ∧
      ∃ text, (ofJson arrayInArray).literal = .ok text := by
  have hinner : Json.Recoverable (.integer ⟨9223372036854775808, by decide⟩) :=
    Json.recoverable_iff.2 ⟨by simp, by simp, by simp [Json.parts]⟩
  have hobject : objectInArray.Recoverable := by
    refine Json.recoverable_iff.2 ⟨by simp [objectInArray], by simp [objectInArray], ?_⟩
    refine List.forall_mem_singleton.2 (Json.recoverable_iff.2 ⟨by simp, by simp, ?_⟩)
    exact List.forall_mem_singleton.2 hinner
  have harray : arrayInArray.Recoverable := by
    refine Json.recoverable_iff.2 ⟨by simp [arrayInArray], by simp [arrayInArray], ?_⟩
    refine List.forall_mem_singleton.2 (Json.recoverable_iff.2 ⟨by simp, by simp, ?_⟩)
    exact List.forall_mem_singleton.2 hinner
  rcases conversion_faithful objectInArray arrayInArray with ⟨hsame, hinteger, hliteral⟩
  refine ⟨hobject, harray, ?_, ?_, ?_, ?_⟩
  · rw [Bool.eq_false_iff, Ne, hsame hobject harray]
    simp [objectInArray, arrayInArray]
  · exact (hinteger [0, 0] ⟨9223372036854775808, by decide⟩ rfl).2 (by decide)
  · rw [hliteral]
    intro hnone
    exact hnone _ _ ⟨[0], rfl⟩
  · exact ⟨"[[9223372036854775808]]", by decide +kernel⟩

end Value
end GraphSql
