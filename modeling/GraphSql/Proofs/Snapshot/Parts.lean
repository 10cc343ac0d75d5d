import GraphSql.Proofs.Json.Compact
import GraphSql.Snapshot.Form
import Mathlib.Data.List.Nodup

/-!
# Parts — the parts of a snapshot are read back

* `written_record`, `written_alternative` and their like — snapshots are trees that writing makes;
* `int32?_ofInt` and its like — integers of each width come back, at their limits too;
* `fields?_record`, `payload?_alternative`, `unitAlternative?_ofString` — so do the fields of a
  record and what an alternative holds;
* `option?_ofOption` — so does an optional part, unless it is written as null itself;
* `read?_text` — the text of a snapshot is read as its tree is, within the nesting limit.
-/

namespace GraphSql
namespace Snapshot

open Json

/-! ## Trees that writing makes -/

theorem written_ofString (s : String) : (ofString s).Written :=
  ⟨s.toList, rfl⟩

theorem written_ofInt (n : Int) : (ofInt n).Written :=
  ⟨n, rfl⟩

theorem written_array {α : Type} {f : α → Tree} {xs : List α} (h : ∀ x ∈ xs, (f x).Written) :
    (Tree.array (xs.map f)).Written := by
  rw [Tree.Written, Tree.itemsWritten_iff]
  intro t ht
  rcases List.mem_map.1 ht with ⟨x, hx, rfl⟩
  exact h x hx

theorem written_record {members : List (String × Tree)} (h : ∀ m ∈ members, m.2.Written) :
    (record members).Written := by
  rw [record, Tree.Written, Tree.membersWritten_iff]
  intro member hmember
  rcases List.mem_map.1 hmember with ⟨m, hm, rfl⟩
  exact ⟨⟨m.1.toList, rfl⟩, h m hm⟩

theorem written_alternative {name : String} {held : Tree} (h : held.Written) :
    (alternative name held).Written :=
  written_record (by simpa using h)

/-! ## Scalars -/

theorem decode?_encode (s : String) : decode? (Escaped.encode s.toList) = some s := by
  rw [decode?, Escaped.decode_encode]
  simp

theorem string?_ofString (s : String) : string? (ofString s) = some s :=
  decode?_encode s

theorem int?_ofInt {n : Int} (h : -9223372036854775808 ≤ n ∧ n ≤ 18446744073709551615) :
    int? (ofInt n) = some n := by
  rw [ofInt, int?, Numeral.integer?_ofInt, Integer.ofInt?, dif_pos h]
  rfl

theorem int32?_ofInt (n : Int32) : int32? (ofInt n.toInt) = some n := by
  have hlow := n.le_toInt
  have hhigh := n.toInt_lt
  rw [int32?, int?_ofInt (by omega)]
  exact Width.int32?_toInt n

theorem int64?_ofInt (n : Int64) : int64? (ofInt n.toInt) = some n := by
  have hlow := n.le_toInt
  have hhigh := n.toInt_lt
  rw [int64?, int?_ofInt (by omega)]
  exact Width.int64?_toInt n

theorem uint64?_ofInt (n : UInt64) : uint64? (ofInt n.toNat) = some n := by
  have hhigh := n.toNat_lt
  rw [uint64?, int?_ofInt (by omega)]
  exact Width.uint64?_toNat n

/-! ## Collections -/

theorem list?_array {α : Type} {f : Tree → Option α} {g : α → Tree} {back : α → α} {xs : List α}
    (h : ∀ x ∈ xs, f (g x) = some (back x)) :
    list? f (.array (xs.map g)) = some (xs.map back) := by
  rw [list?]
  induction xs with
  | nil => rfl
  | cons x xs ih =>
      rcases List.forall_mem_cons.1 h with ⟨hx, hrest⟩
      simp [hx, ih hrest]

/-- A part that is written as null is read as missing. -/
theorem option?_ofOption {α : Type} {f : Tree → Option α} {g : α → Tree} {back : α → α}
    {o : Option α} (h : ∀ x, o = some x → f (g x) = some (back x) ∧ g x ≠ .null) :
    option? f (ofOption g o) = some (o.map back) := by
  cases o with
  | none => rfl
  | some x =>
      rcases h x rfl with ⟨hread, hnull⟩
      rw [ofOption, option?, hread]
      · rfl
      · exact hnull

theorem members?_map_encode (members : List (String × Tree)) :
    members? (members.map fun m => (Escaped.encode m.1.toList, m.2)) = some members := by
  induction members with
  | nil => rfl
  | cons m members ih => simp [members?, decode?_encode, ih]

/-! ## Records and alternatives -/

theorem lookup_of_nodup {α : Type} {members : List (String × α)}
    (h : (members.map Prod.fst).Nodup) {m : String × α} (hm : m ∈ members) :
    members.lookup m.1 = some m.2 := by
  induction members with
  | nil => simp at hm
  | cons first members ih =>
      obtain ⟨key, x⟩ := first
      rw [List.map_cons, List.nodup_cons] at h
      rcases List.mem_cons.1 hm with rfl | hm
      · simp
      · have hne : m.1 ≠ key := by
          intro heq
          exact h.1 (List.mem_map.2 ⟨m, hm, heq⟩)
        rw [List.lookup_cons, beq_eq_false_iff_ne.2 hne]
        exact ih h.2 hm

theorem length_filter_le_one {α : Type} {members : List (String × α)}
    (h : (members.map Prod.fst).Nodup) (name : String) :
    (members.filter fun m => m.1 = name).length ≤ 1 := by
  have hcount : (members.filter fun m => m.1 = name).length =
      (members.map Prod.fst).count name := by
    rw [List.count, List.countP_map, List.countP_eq_length_filter]
    refine congrArg List.length (List.filter_congr ?_)
    intro m _
    simp [Bool.beq_eq_decide_eq]
  rw [hcount]
  exact List.nodup_iff_count_le_one.1 h name

/-- The fields of a record come back in order, each once. -/
theorem fields?_record {members : List (String × Tree)} (h : (members.map Prod.fst).Nodup) :
    fields? (members.map Prod.fst) (record members) = some (members.map fun m => some m.2) := by
  have hlookup : (members.map Prod.fst).map (fun name => members.lookup name) =
      members.map fun m => some m.2 := by
    rw [List.map_map]
    refine List.map_congr_left ?_
    intro m hm
    exact lookup_of_nodup h hm
  rw [record, fields?, byName?, members?_map_encode]
  simp [length_filter_le_one h, ← hlookup]

theorem payload?_alternative (name : String) (held : Tree) :
    payload? name (alternative name held) = some held := by
  simp [payload?, alternative, record, decode?_encode]

theorem unitAlternative?_ofString {α : Type} (table : List (String × α)) (name : String) :
    unitAlternative? table (ofString name) = table.lookup name := by
  rw [unitAlternative?, ofString, unitName?, decode?_encode]
  rfl

/-! ## Whole texts -/

theorem read?_text {α : Type} (f : Tree → Option α) {t : Tree} (ht : t.Written)
    (hnesting : t.nesting ≤ Tree.nestingLimit) : read? f t.text = f t := by
  rw [read?, Tree.parse?_text ht]
  simp [Tree.clip_eq_self t Tree.nestingLimit hnesting]

end Snapshot
end GraphSql
