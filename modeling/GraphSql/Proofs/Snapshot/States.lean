import GraphSql.Proofs.Snapshot.Values
import GraphSql.Snapshot.State

/-!
# States — tokens and filters that were written as snapshots are read back

* `Dictionary.ofList_entries` — sorted entries make the dictionary that they come from;
* `Slot.ofTree?_toTree`, `Tokens.ofTree?_toTree` — slots and tokens;
* `Clause.ofTree?_toTree`, `Filter.ofTree?_toTree` — clauses, with and without a value, and filters;
* `dateTimes`, `settled`, `settled_eq_self_iff` — for each of them, when it comes back as it was;
* `Snapshot.read?_toTree` — the whole text of a snapshot is read back.
-/

namespace GraphSql

open Json Snapshot

/-! ## Dictionaries -/

namespace Dictionary

variable {α : Type}

theorem insertEntry_of_lt {name : String} (x : α) {entries : List (String × α)}
    (h : ∀ e ∈ entries, e.1 < name) : insertEntry name x entries = entries ++ [(name, x)] := by
  induction entries with
  | nil => rfl
  | cons entry rest ih =>
      rcases List.forall_mem_cons.1 h with ⟨hentry, hrest⟩
      have hne : name ≠ entry.1 := by
        intro heq
        exact String.lt_irrefl _ (heq ▸ hentry)
      have hnot : ¬name < entry.1 := fun hlt => String.lt_irrefl _ (String.lt_trans hentry hlt)
      rw [insertEntry, if_neg hne, if_neg hnot, ih hrest, List.cons_append]

theorem entries_foldl_insert (entries : List (String × α)) (d : Dictionary α)
    (h : (d.entries ++ entries).Pairwise fun a b => a.1 < b.1) :
    (entries.foldl (fun d e => d.insert e.1 e.2) d).entries = d.entries ++ entries := by
  induction entries generalizing d with
  | nil => simp
  | cons e entries ih =>
      have hbefore : ∀ other ∈ d.entries, other.1 < e.1 := by
        intro other hother
        exact (List.pairwise_append.1 h).2.2 other hother e List.mem_cons_self
      have hinsert : (d.insert e.1 e.2).entries = d.entries ++ [e] :=
        insertEntry_of_lt e.2 hbefore
      rw [List.foldl_cons, ih]
      · rw [hinsert, List.append_assoc, List.singleton_append]
      · rw [hinsert, List.append_assoc, List.singleton_append]
        exact h

theorem ofList_entries (d : Dictionary α) : ofList d.entries = d := by
  have hentries : (ofList d.entries).entries = d.entries :=
    entries_foldl_insert d.entries empty (by simpa [empty] using d.sorted)
  cases d with
  | mk entries sorted =>
      generalize hd : ofList entries = other at hentries
      cases other
      simpa using hentries

def map (f : α → α) (d : Dictionary α) : Dictionary α where
  entries := d.entries.map fun e => (e.1, f e.2)
  sorted := List.pairwise_map.2 d.sorted

end Dictionary

/-! ## Tokens -/

theorem WriteMode.ofTree?_toTree (mode : WriteMode) : ofTree? mode.toTree = some mode := by
  rw [toTree, ofTree?, unitAlternative?_ofString]
  cases mode <;> decide

namespace Slot

def isFloatFree : Slot → Bool
  | .unset => true
  | .set values _ => Value.areFloatFree values

theorem written_toTree {slot : Slot} (h : slot.isFloatFree = true) : slot.toTree.Written := by
  cases slot with
  | unset => exact written_ofString "Unset"
  | set values mode =>
      refine written_alternative (written_record ?_)
      intro m hm
      rcases List.mem_pair.1 hm with rfl | rfl
      · exact Value.itemsWritten_itemTrees values h
      · exact written_ofString mode.name

def dateTimes : Slot → List DateTime
  | .unset => []
  | .set values _ => values.flatMap Value.dateTimes

def settled : Slot → Slot
  | .unset => .unset
  | .set values mode => .set (values.map Value.settled) mode

theorem settled_eq_self_iff (slot : Slot) :
    slot.settled = slot ↔ ∀ t ∈ slot.dateTimes, ¬t.time.LeapInsideMinute := by
  cases slot with
  | unset => simp [settled, dateTimes]
  | set values mode =>
      have hvalues : values.map Value.settled = values ↔
          ∀ t ∈ values.flatMap Value.dateTimes, ¬t.time.LeapInsideMinute :=
        map_settled_eq_self_iff fun v _ => v.settled_eq_self_iff
      rw [dateTimes, ← hvalues, settled]
      simp

theorem ofTree?_toTree {slot : Slot} (h : slot.isFloatFree = true) :
    ofTree? slot.toTree = some slot.settled := by
  cases slot with
  | unset =>
      have hset : payload? "Set" (Snapshot.ofString "Unset") = none := rfl
      rw [toTree, ofTree?, hset]
      exact unitAlternative?_ofString [("Unset", Slot.unset)] "Unset"
  | set values mode =>
      have hfields : fields? ["values", "mode"]
          (record [("values", .array (Value.itemTrees values)), ("mode", mode.toTree)]) =
            some [some (.array (Value.itemTrees values)), some mode.toTree] :=
        fields?_record (by simp)
      rw [toTree, ofTree?, payload?_alternative]
      simp [hfields, required?, Value.list?_itemTrees h, WriteMode.ofTree?_toTree, settled]

end Slot

namespace Tokens

def isFloatFree (tokens : Tokens) : Bool :=
  tokens.slots.entries.all fun e => e.2.isFloatFree

theorem written_toTree {tokens : Tokens} (h : tokens.isFloatFree = true) :
    tokens.toTree.Written := by
  refine written_record ?_
  intro m hm
  rw [List.mem_singleton.1 hm]
  refine written_record ?_
  intro m hm
  rcases List.mem_map.1 hm with ⟨e, he, rfl⟩
  exact Slot.written_toTree (List.all_eq_true.1 h e he)

def dateTimes (tokens : Tokens) : List DateTime :=
  tokens.slots.entries.flatMap fun e => e.2.dateTimes

def settled (tokens : Tokens) : Tokens :=
  ⟨tokens.slots.map Slot.settled⟩

theorem settled_eq_self_iff (tokens : Tokens) :
    tokens.settled = tokens ↔ ∀ t ∈ tokens.dateTimes, ¬t.time.LeapInsideMinute := by
  have hentries : tokens.slots.entries.map (fun e => (e.1, e.2.settled)) = tokens.slots.entries ↔
      ∀ t ∈ tokens.dateTimes, ¬t.time.LeapInsideMinute := by
    refine map_settled_eq_self_iff fun e _ => ?_
    rw [← e.2.settled_eq_self_iff]
    exact Prod.ext_iff.trans (by simp)
  rw [← hentries]
  rcases tokens with ⟨⟨entries, sorted⟩⟩
  simp [settled, Dictionary.map]

theorem slots?_record {tokens : Tokens} (h : tokens.isFloatFree = true) :
    slots? (record (tokens.slots.entries.map fun e => (e.1, e.2.toTree))) =
      some (tokens.slots.map Slot.settled) := by
  have hslots : ∀ entries : List (String × Slot), (∀ e ∈ entries, e.2.isFloatFree = true) →
      (entries.map fun e => (e.1, e.2.toTree)).mapM
        (fun m => (Slot.ofTree? m.2).map fun slot => (m.1, slot)) =
          some (entries.map fun e => (e.1, e.2.settled)) := by
    intro entries hentries
    induction entries with
    | nil => rfl
    | cons e entries ih =>
        rcases List.forall_mem_cons.1 hentries with ⟨he, hrest⟩
        simp [Slot.ofTree?_toTree he, ih hrest]
  have hdictionary :
      Dictionary.ofList (tokens.slots.entries.map fun e => (e.1, e.2.settled)) =
        tokens.slots.map Slot.settled := Dictionary.ofList_entries (tokens.slots.map Slot.settled)
  rw [record, slots?, members?_map_encode]
  simp [hslots tokens.slots.entries (List.all_eq_true.1 h), hdictionary]

theorem ofTree?_toTree {tokens : Tokens} (h : tokens.isFloatFree = true) :
    ofTree? tokens.toTree = some tokens.settled := by
  have hfields : fields? ["tokens"] tokens.toTree =
      some [some (record (tokens.slots.entries.map fun e => (e.1, e.2.toTree)))] :=
    fields?_record (by simp)
  rw [ofTree?, hfields]
  simp [required?, slots?_record h, settled]

end Tokens

/-! ## Filters -/

theorem Connector.ofTree?_toTree (c : Connector) : ofTree? c.toTree = some c := by
  rw [toTree, ofTree?, unitAlternative?_ofString]
  cases c <;> decide

namespace Clause

def isFloatFree (clause : Clause) : Bool :=
  clause.value.all Value.isFloatFree

theorem written_toTree {clause : Clause} (h : clause.isFloatFree = true) :
    clause.toTree.Written := by
  refine written_record ?_
  intro m hm
  simp only [List.mem_cons, List.not_mem_nil, or_false] at hm
  rcases hm with rfl | rfl | rfl
  · exact written_ofString clause.connector.name
  · exact written_ofString clause.condition
  · cases hvalue : clause.value with
    | none => trivial
    | some v => exact Value.written_toTree v (by simpa [isFloatFree, hvalue] using h)

/-- A value that is null is not a missing value. -/
theorem option?_value {clause : Clause} (h : clause.isFloatFree = true) :
    option? Value.ofTree? (Snapshot.ofOption Value.toTree clause.value) =
      some (clause.value.map Value.settled) := by
  refine option?_ofOption fun v hv => ⟨?_, v.toTree_ne_null⟩
  exact Value.ofTree?_toTree v (by simpa [isFloatFree, hv] using h)

def dateTimes (clause : Clause) : List DateTime :=
  clause.value.elim [] Value.dateTimes

def settled (clause : Clause) : Clause :=
  { clause with value := clause.value.map Value.settled }

theorem settled_eq_self_iff (clause : Clause) :
    clause.settled = clause ↔ ∀ t ∈ clause.dateTimes, ¬t.time.LeapInsideMinute := by
  rcases clause with ⟨connector, condition, value⟩
  cases value with
  | none => simp [settled, dateTimes]
  | some v => simp [settled, dateTimes, ← v.settled_eq_self_iff]

theorem ofTree?_toTree {clause : Clause} (h : clause.isFloatFree = true) :
    ofTree? clause.toTree = some clause.settled := by
  have hfields : fields? ["connector", "condition", "value"] clause.toTree =
      some [some clause.connector.toTree, some (Snapshot.ofString clause.condition),
        some (Snapshot.ofOption Value.toTree clause.value)] :=
    fields?_record (by simp)
  rw [ofTree?, hfields]
  simp [required?, optional?, Connector.ofTree?_toTree, string?_ofString, option?_value h, settled]

end Clause

namespace Filter

def isFloatFree (filter : Filter) : Bool :=
  filter.clauses.all Clause.isFloatFree

theorem written_toTree {filter : Filter} (h : filter.isFloatFree = true) :
    filter.toTree.Written := by
  refine written_record ?_
  intro m hm
  rw [List.mem_singleton.1 hm]
  exact written_array fun clause hclause =>
    Clause.written_toTree (List.all_eq_true.1 h clause hclause)

def dateTimes (filter : Filter) : List DateTime :=
  filter.clauses.flatMap Clause.dateTimes

def settled (filter : Filter) : Filter :=
  ⟨filter.clauses.map Clause.settled⟩

theorem settled_eq_self_iff (filter : Filter) :
    filter.settled = filter ↔ ∀ t ∈ filter.dateTimes, ¬t.time.LeapInsideMinute := by
  have hclauses : filter.clauses.map Clause.settled = filter.clauses ↔
      ∀ t ∈ filter.dateTimes, ¬t.time.LeapInsideMinute :=
    map_settled_eq_self_iff fun clause _ => clause.settled_eq_self_iff
  rw [← hclauses]
  cases filter
  simp [settled]

theorem ofTree?_toTree {filter : Filter} (h : filter.isFloatFree = true) :
    ofTree? filter.toTree = some filter.settled := by
  have hfields : fields? ["clauses"] filter.toTree =
      some [some (.array (filter.clauses.map Clause.toTree))] :=
    fields?_record (by simp)
  have hclauses : list? Clause.ofTree? (.array (filter.clauses.map Clause.toTree)) =
      some (filter.clauses.map Clause.settled) :=
    list?_array fun clause hclause => Clause.ofTree?_toTree (List.all_eq_true.1 h clause hclause)
  rw [ofTree?, hfields]
  simp [required?, hclauses, settled]

end Filter

/-! ## Whole texts -/

namespace Snapshot

/-- Within the nesting limit the text of a snapshot is always read, whatever names, strings and
numbers it holds.  What comes back is the state that was written, with its date-times settled: the
same state exactly when none of them has a leap second inside a minute. -/
theorem read?_toTree :
    (∀ tokens : Tokens, tokens.isFloatFree = true → tokens.toTree.nesting ≤ Tree.nestingLimit →
      read? Tokens.ofTree? tokens.toTree.text = some tokens.settled ∧
        (tokens.settled = tokens ↔ ∀ t ∈ tokens.dateTimes, ¬t.time.LeapInsideMinute)) ∧
    (∀ filter : Filter, filter.isFloatFree = true → filter.toTree.nesting ≤ Tree.nestingLimit →
      read? Filter.ofTree? filter.toTree.text = some filter.settled ∧
        (filter.settled = filter ↔ ∀ t ∈ filter.dateTimes, ¬t.time.LeapInsideMinute)) ∧
    (∀ slot : Slot, slot.isFloatFree = true → slot.toTree.nesting ≤ Tree.nestingLimit →
      read? Slot.ofTree? slot.toTree.text = some slot.settled ∧
        (slot.settled = slot ↔ ∀ t ∈ slot.dateTimes, ¬t.time.LeapInsideMinute)) ∧
    (∀ clause : Clause, clause.isFloatFree = true → clause.toTree.nesting ≤ Tree.nestingLimit →
      read? Clause.ofTree? clause.toTree.text = some clause.settled ∧
        (clause.settled = clause ↔ ∀ t ∈ clause.dateTimes, ¬t.time.LeapInsideMinute)) ∧
    (∀ v : Value, v.isFloatFree = true → v.toTree.nesting ≤ Tree.nestingLimit →
      read? Value.ofTree? v.toTree.text = some v.settled ∧
        (v.settled = v ↔ ∀ t ∈ v.dateTimes, ¬t.time.LeapInsideMinute)) ∧
    ∀ r : RecordId, read? RecordId.ofTree? r.toTree.text = some r := by
  refine ⟨fun tokens h hnesting => ⟨?_, tokens.settled_eq_self_iff⟩,
    fun filter h hnesting => ⟨?_, filter.settled_eq_self_iff⟩,
    fun slot h hnesting => ⟨?_, slot.settled_eq_self_iff⟩,
    fun clause h hnesting => ⟨?_, clause.settled_eq_self_iff⟩,
    fun v h hnesting => ⟨?_, v.settled_eq_self_iff⟩, fun r => ?_⟩
  · rw [read?_text Tokens.ofTree? (Tokens.written_toTree h) hnesting, Tokens.ofTree?_toTree h]
  · rw [read?_text Filter.ofTree? (Filter.written_toTree h) hnesting, Filter.ofTree?_toTree h]
  · rw [read?_text Slot.ofTree? (Slot.written_toTree h) hnesting, Slot.ofTree?_toTree h]
  · rw [read?_text Clause.ofTree? (Clause.written_toTree h) hnesting, Clause.ofTree?_toTree h]
  · rw [read?_text Value.ofTree? (Value.written_toTree v h) hnesting, Value.ofTree?_toTree v h]
  · have hnesting : r.toTree.nesting ≤ Tree.nestingLimit := by
      simp [RecordId.toTree, record, Tree.nesting, Tree.membersNesting, Snapshot.ofInt,
        Tree.nestingLimit]
    rw [read?_text RecordId.ofTree? r.written_toTree hnesting, r.ofTree?_toTree]

/-- The last nanosecond of a leap second at the end of the year 1 BC. -/
def lastLeapSecond : DateTime where
  date := ⟨0, 12, 31, by decide, by decide, by decide⟩
  time := ⟨23, 59, 59, 1999999999, by decide, by decide, by decide, by decide⟩

def edgeValues : List Value :=
  [.list [.pair "k\n" .null, .int (-9223372036854775808), .list []],
    .uint 18446744073709551615, .string "\x01\"\\é", .dateTime lastLeapSecond,
    .recordId ⟨-1, 0⟩, .bool true]

def edgeTokens : Tokens :=
  ⟨⟨[("", .unset), ("\t", .set [] .prepend), ("a\"b", .set edgeValues .append)],
    by decide +kernel⟩⟩

/-- A clause without a value, and one whose value is null. -/
def edgeFilter : Filter :=
  ⟨[⟨.none, "a = b", none⟩, ⟨.or, "c = ?", some .null⟩]⟩

theorem read?_toTree_edges :
    edgeTokens.isFloatFree = true ∧ edgeTokens.toTree.nesting = 9 ∧
      edgeTokens.dateTimes = [lastLeapSecond] ∧ edgeFilter.isFloatFree = true ∧
      edgeFilter.toTree.nesting = 3 ∧
      read? Tokens.ofTree? edgeTokens.toTree.text = some edgeTokens ∧
      read? Filter.ofTree? edgeFilter.toTree.text = some edgeFilter := by
  have htokens : edgeTokens.isFloatFree = true := by decide +kernel
  have hfilter : edgeFilter.isFloatFree = true := by decide +kernel
  have htokensNesting : edgeTokens.toTree.nesting = 9 := by decide +kernel
  have hfilterNesting : edgeFilter.toTree.nesting = 3 := by decide +kernel
  have hdates : edgeTokens.dateTimes = [lastLeapSecond] := by decide +kernel
  rcases read?_toTree.1 edgeTokens htokens (by rw [htokensNesting]; decide) with
    ⟨hread, hsame⟩
  rcases read?_toTree.2.1 edgeFilter hfilter (by rw [hfilterNesting]; decide) with
    ⟨hreadFilter, hsameFilter⟩
  have hsettled : edgeTokens.settled = edgeTokens := by
    rw [hsame, hdates]
    simp [lastLeapSecond, TimeOfDay.LeapInsideMinute]
  have hsettledFilter : edgeFilter.settled = edgeFilter := by
    rw [hsameFilter]
    simp [edgeFilter, Filter.dateTimes, Clause.dateTimes, Value.dateTimes]
  rw [hsettled] at hread
  rw [hsettledFilter] at hreadFilter
  exact ⟨htokens, htokensNesting, hdates, hfilter, hfilterNesting, hread, hreadFilter⟩

/-- Half a second into a leap second that is not at the end of its minute. -/
def leapInsideMinute : DateTime where
  date := ⟨2020, 1, 1, by decide, by decide, by decide⟩
  time := ⟨1, 2, 3, 1500000000, by decide, by decide, by decide, by decide⟩

def nextSecond : DateTime where
  date := ⟨2020, 1, 1, by decide, by decide, by decide⟩
  time := ⟨1, 2, 4, 500000000, by decide, by decide, by decide, by decide⟩

def tokensAt (t : DateTime) : Tokens :=
  ⟨⟨[("a", .set [.dateTime t] .overwrite)], List.pairwise_singleton _ _⟩⟩

/-- Two date-times have one text, and only one of them is read back from it. -/
theorem not_read?_toTree :
    (tokensAt leapInsideMinute).isFloatFree = true ∧
      (tokensAt leapInsideMinute).toTree.nesting ≤ Tree.nestingLimit ∧
      String.ofList leapInsideMinute.iso = "2020-01-01T01:02:04.500" ∧
      (tokensAt leapInsideMinute).toTree.text = (tokensAt nextSecond).toTree.text ∧
      read? Tokens.ofTree? (tokensAt leapInsideMinute).toTree.text =
        some (tokensAt nextSecond) ∧
      tokensAt nextSecond ≠ tokensAt leapInsideMinute := by
  have hfree : (tokensAt leapInsideMinute).isFloatFree = true := by decide +kernel
  have hnesting : (tokensAt leapInsideMinute).toTree.nesting ≤ Tree.nestingLimit := by
    decide +kernel
  have hread : read? Tokens.ofTree? (tokensAt leapInsideMinute).toTree.text =
      some (tokensAt leapInsideMinute).settled := by
    rw [read?_text Tokens.ofTree? (Tokens.written_toTree hfree) hnesting,
      Tokens.ofTree?_toTree hfree]
  have hsettled : (tokensAt leapInsideMinute).settled = tokensAt nextSecond := by
    rfl
  refine ⟨hfree, hnesting, by decide +kernel, by decide +kernel, ?_, ?_⟩
  · rw [hread, hsettled]
  · intro h
    have hdates : [nextSecond] = [leapInsideMinute] := congrArg Tokens.dateTimes h
    exact absurd hdates (by decide)

end Snapshot
end GraphSql
