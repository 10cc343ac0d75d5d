import GraphSql.Proofs.Calendar.Interchange
import GraphSql.Proofs.Snapshot.Parts
import GraphSql.Proofs.Value.Literal
import GraphSql.Snapshot.Value

/-!
# Values — a value that was written as a snapshot is read back

A double that is infinite or not a number is written as null, which is not read as a double, so
values that hold doubles are left out.  A leap second inside a minute has the text of the second
behind it, and comes back as that:

* `map_settled_eq_self_iff` — when the parts of a snapshot come back as they were;
* `Value.isFloatFree` — no double, however deep inside;
* `Value.dateTimes`, `Value.settled` — the date-times inside, and the value that they come back in;
* `Value.settled_eq_self_iff` — which values come back as they were;
* `RecordId.ofTree?_toTree`, `DateTime.ofTree?_toTree`, `Value.ofTree?_toTree` — from the tree back;
* `Value.written_toTree` and its like — the trees are ones that writing makes.
-/

namespace GraphSql

open Json Snapshot

/-! ## Record ids and date-times -/

theorem RecordId.written_toTree (r : RecordId) : r.toTree.Written := by
  refine written_record ?_
  intro m hm
  rcases List.mem_pair.1 hm with rfl | rfl
  · exact written_ofInt _
  · exact written_ofInt _

theorem RecordId.ofTree?_toTree (r : RecordId) : ofTree? r.toTree = some r := by
  have hfields : fields? ["cluster", "position"] r.toTree =
      some [some (Snapshot.ofInt r.cluster.toInt), some (Snapshot.ofInt r.position.toInt)] :=
    fields?_record (by simp)
  rw [ofTree?, hfields]
  simp [required?, int32?_ofInt, int64?_ofInt]

theorem DateTime.written_toTree (t : DateTime) : t.toTree.Written :=
  ⟨t.iso, rfl⟩

theorem DateTime.ofTree?_toTree (t : DateTime) : ofTree? t.toTree = some t.settled := by
  rw [toTree, ofTree?, Escaped.decode_encode]
  exact DateTime.ofIso?_iso t

/-! ## Values -/

/-- Items come back as they were when each of them does. -/
theorem Snapshot.map_settled_eq_self_iff {α : Type} {back : α → α} {held : α → List DateTime}
    {xs : List α} (h : ∀ x ∈ xs, back x = x ↔ ∀ t ∈ held x, ¬t.time.LeapInsideMinute) :
    xs.map back = xs ↔ ∀ t ∈ xs.flatMap held, ¬t.time.LeapInsideMinute := by
  have hmap : xs.map back = xs ↔ ∀ x ∈ xs, back x = x := by
    simpa using List.map_inj_left (f := back) (g := id) (l := xs)
  have hall : (∀ x ∈ xs, back x = x) ↔
      ∀ x ∈ xs, ∀ t ∈ held x, ¬t.time.LeapInsideMinute := forall₂_congr h
  rw [hmap, hall, List.forall_mem_flatMap]

namespace Value

mutual

def isFloatFree : Value → Bool
  | .float _ => false
  | .list items => areFloatFree items
  | .pair _ v => isFloatFree v
  | _ => true

def areFloatFree : List Value → Bool
  | [] => true
  | v :: vs => isFloatFree v && areFloatFree vs

end

theorem areFloatFree_iff {vs : List Value} :
    areFloatFree vs = true ↔ ∀ v ∈ vs, v.isFloatFree = true := by
  induction vs with
  | nil => simp [areFloatFree]
  | cons v vs ih => simp [areFloatFree, ih]

theorem itemTrees_eq_map (vs : List Value) : itemTrees vs = vs.map toTree := by
  induction vs with
  | nil => rfl
  | cons v vs ih => rw [itemTrees, ih, List.map_cons]

/-! ## Date-times inside of values -/

mutual

def dateTimes : Value → List DateTime
  | .dateTime t => [t]
  | .list items => itemDateTimes items
  | .pair _ v => dateTimes v
  | _ => []

def itemDateTimes : List Value → List DateTime
  | [] => []
  | v :: vs => dateTimes v ++ itemDateTimes vs

end

mutual

/-- The value with every date-time inside of it settled. -/
def settled : Value → Value
  | .dateTime t => .dateTime t.settled
  | .list items => .list (settledItems items)
  | .pair field v => .pair field (settled v)
  | v => v

def settledItems : List Value → List Value
  | [] => []
  | v :: vs => settled v :: settledItems vs

end

theorem itemDateTimes_eq_flatMap (vs : List Value) : itemDateTimes vs = vs.flatMap dateTimes := by
  induction vs with
  | nil => rfl
  | cons v vs ih => rw [itemDateTimes, ih, List.flatMap_cons]

theorem settledItems_eq_map (vs : List Value) : settledItems vs = vs.map settled := by
  induction vs with
  | nil => rfl
  | cons v vs ih => rw [settledItems, ih, List.map_cons]

theorem settled_eq_self_iff (v : Value) :
    v.settled = v ↔ ∀ t ∈ v.dateTimes, ¬t.time.LeapInsideMinute := by
  induction v using Value.induct with
  | scalar v hlist hpair =>
      cases v with
      | dateTime t => simp [settled, dateTimes, DateTime.settled_eq_self_iff]
      | list items => exact absurd rfl hlist
      | pair field value => exact absurd rfl hpair
      | _ => simp [settled, dateTimes]
  | list items ih =>
      rw [settled, dateTimes, settledItems_eq_map, itemDateTimes_eq_flatMap, Value.list.injEq]
      exact map_settled_eq_self_iff ih
  | pair field value ih => simp [settled, dateTimes, ih]

/-! ## Written and read -/

mutual

theorem written_toTree : ∀ v : Value, v.isFloatFree = true → v.toTree.Written
  | .null, _ => written_ofString "Null"
  | .bool _, _ => written_alternative trivial
  | .int n, _ => written_alternative (written_ofInt n.toInt)
  | .uint n, _ => written_alternative (written_ofInt n.toNat)
  | .float _, h => by simp [isFloatFree] at h
  | .string s, _ => written_alternative (written_ofString s)
  | .recordId r, _ => written_alternative r.written_toTree
  | .dateTime t, _ => written_alternative t.written_toTree
  | .list items, h => by
      have hitems : areFloatFree items = true := by simpa [isFloatFree] using h
      exact written_alternative (itemsWritten_itemTrees items hitems)
  | .pair field v, h => by
      have hv : v.isFloatFree = true := by simpa [isFloatFree] using h
      exact written_alternative ⟨written_ofString field, written_toTree v hv, trivial⟩

theorem itemsWritten_itemTrees : ∀ vs : List Value,
    areFloatFree vs = true → Tree.ItemsWritten (itemTrees vs)
  | [], _ => trivial
  | v :: vs, h => by
      rcases Bool.and_eq_true_iff.1 h with ⟨hv, hrest⟩
      exact ⟨written_toTree v hv, itemsWritten_itemTrees vs hrest⟩

end

/-- Anything but an array is read by its name alone. -/
theorem ofTree?_alternative {name : String} {held : Tree} (h : ∀ items, held ≠ .array items) :
    ofTree? (alternative name held) = scalarOfTree? name held := by
  rw [alternative, record, List.map_cons, List.map_nil, ofTree?, decode?_encode]
  · rfl
  · intro items hitems
    exact absurd hitems (h items)

theorem ofTree?_list (items : List Tree) :
    ofTree? (alternative "List" (.array items)) = (ofItems? items).map .list := by
  rw [alternative, record, List.map_cons, List.map_nil, ofTree?]
  exact decode?_encode "List"

theorem ofTree?_pair (field held : Tree) :
    ofTree? (alternative "Pair" (.array [field, held])) =
      (string? field).bind fun field => (ofTree? held).map (.pair field) := by
  rw [alternative, record, List.map_cons, List.map_nil, ofTree?.eq_def]
  simp only [decode?_encode]
  cases string? field <;> cases ofTree? held <;> rfl

mutual

theorem ofTree?_toTree : ∀ v : Value, v.isFloatFree = true → ofTree? v.toTree = some v.settled
  | .null, _ => by
      rw [toTree, Snapshot.ofString, ofTree?, decode?_encode]
      rfl
  | .bool b, _ => by
      rw [toTree, ofTree?_alternative (by simp)]
      simp [scalarOfTree?, bool?, settled]
  | .int n, _ => by
      rw [toTree, ofTree?_alternative (by simp [Snapshot.ofInt])]
      simp [scalarOfTree?, int64?_ofInt, settled]
  | .uint n, _ => by
      rw [toTree, ofTree?_alternative (by simp [Snapshot.ofInt])]
      simp [scalarOfTree?, uint64?_ofInt, settled]
  | .float _, h => by simp [isFloatFree] at h
  | .string s, _ => by
      rw [toTree, ofTree?_alternative (by simp [Snapshot.ofString])]
      simp [scalarOfTree?, string?_ofString, settled]
  | .recordId r, _ => by
      rw [toTree, ofTree?_alternative (by simp [RecordId.toTree, record])]
      simp [scalarOfTree?, RecordId.ofTree?_toTree, settled]
  | .dateTime t, _ => by
      rw [toTree, ofTree?_alternative (by simp [DateTime.toTree])]
      simp [scalarOfTree?, DateTime.ofTree?_toTree, settled]
  | .list items, h => by
      have hitems : areFloatFree items = true := by simpa [isFloatFree] using h
      rw [toTree, ofTree?_list, ofItems?_itemTrees items hitems]
      rfl
  | .pair field v, h => by
      have hv : v.isFloatFree = true := by simpa [isFloatFree] using h
      rw [toTree, ofTree?_pair, string?_ofString, Option.bind_some, ofTree?_toTree v hv]
      rfl

theorem ofItems?_itemTrees : ∀ vs : List Value,
    areFloatFree vs = true → ofItems? (itemTrees vs) = some (settledItems vs)
  | [], _ => rfl
  | v :: vs, h => by
      rcases Bool.and_eq_true_iff.1 h with ⟨hv, hrest⟩
      simp [itemTrees, ofItems?, settledItems, ofTree?_toTree v hv, ofItems?_itemTrees vs hrest]

end

theorem list?_itemTrees {vs : List Value} (h : areFloatFree vs = true) :
    list? ofTree? (.array (itemTrees vs)) = some (vs.map settled) := by
  rw [itemTrees_eq_map]
  exact list?_array fun v hv => ofTree?_toTree v (areFloatFree_iff.1 h v hv)

theorem toTree_ne_null (v : Value) : v.toTree ≠ .null := by
  cases v <;> simp [toTree, Snapshot.ofString, alternative, record]

end Value
end GraphSql
