/-!
# Dictionary — finite maps from names, in the order of the names

The entries of a dictionary are sorted by name, each name once, so two dictionaries with the same
look-ups are the same value.  Names are ordered by code point, which is also the order of their
UTF-8 bytes.

* `get?`, `insert`, `erase`, `ofList`;
* `get?_insert`, `get?_erase` — what the operations do, seen through `get?`.
-/

namespace GraphSql

/-! ## Sorted entries -/

structure Dictionary (α : Type) where
  entries : List (String × α)
  sorted : entries.Pairwise fun a b => a.1 < b.1

namespace Dictionary

variable {α : Type}

def insertEntry (name : String) (x : α) : List (String × α) → List (String × α)
  | [] => [(name, x)]
  | entry :: rest =>
      if name = entry.1 then (name, x) :: rest
      else if name < entry.1 then (name, x) :: entry :: rest
      else entry :: insertEntry name x rest

theorem mem_insertEntry {name : String} {x : α} {entries : List (String × α)} {e : String × α}
    (h : e ∈ insertEntry name x entries) : e = (name, x) ∨ e ∈ entries := by
  induction entries with
  | nil => exact Or.inl (by simpa [insertEntry] using h)
  | cons entry rest ih =>
      unfold insertEntry at h
      split at h
      · rcases List.mem_cons.1 h with h | h
        · exact Or.inl h
        · exact Or.inr (List.mem_cons_of_mem _ h)
      · split at h
        · exact (List.mem_cons.1 h).imp_right id
        · rcases List.mem_cons.1 h with h | h
          · exact Or.inr (h ▸ List.mem_cons_self)
          · exact (ih h).imp_right (List.mem_cons_of_mem _)

theorem lt_of_not_lt_of_ne {a b : String} (hne : a ≠ b) (h : ¬a < b) : b < a := by
  have hle : b ≤ a := String.not_lt.1 h
  exact Classical.byContradiction fun hn => hne (String.le_antisymm (String.not_lt.1 hn) hle)

theorem pairwise_insertEntry (name : String) (x : α) {entries : List (String × α)}
    (h : entries.Pairwise fun a b => a.1 < b.1) :
    (insertEntry name x entries).Pairwise fun a b => a.1 < b.1 := by
  induction entries with
  | nil => simp [insertEntry]
  | cons entry rest ih =>
      obtain ⟨hhead, htail⟩ := List.pairwise_cons.1 h
      unfold insertEntry
      split
      · rename_i heq
        exact List.pairwise_cons.2 ⟨fun e he => by simpa [heq] using hhead e he, htail⟩
      · rename_i hne
        split
        · rename_i hlt
          refine List.pairwise_cons.2 ⟨fun e he => ?_, h⟩
          rcases List.mem_cons.1 he with rfl | he
          · exact hlt
          · exact String.lt_trans hlt (hhead e he)
        · rename_i hnlt
          refine List.pairwise_cons.2 ⟨fun e he => ?_, ih htail⟩
          rcases mem_insertEntry he with rfl | he
          · exact lt_of_not_lt_of_ne hne hnlt
          · exact hhead e he

/-! ## Operations -/

def empty : Dictionary α where
  entries := []
  sorted := List.Pairwise.nil

def get? (d : Dictionary α) (name : String) : Option α :=
  d.entries.lookup name

def insert (d : Dictionary α) (name : String) (x : α) : Dictionary α where
  entries := insertEntry name x d.entries
  sorted := pairwise_insertEntry name x d.sorted

def erase (d : Dictionary α) (name : String) : Dictionary α where
  entries := d.entries.filter fun e => e.1 ≠ name
  sorted := d.sorted.filter _

/-- Of several entries with one name the last one counts. -/
def ofList (entries : List (String × α)) : Dictionary α :=
  entries.foldl (fun d e => d.insert e.1 e.2) empty

def size (d : Dictionary α) : Nat :=
  d.entries.length

/-! ## Look-ups after an operation -/

theorem lookup_cons_eq_ite (key other : String) (y : α) (rest : List (String × α)) :
    ((key, y) :: rest).lookup other = if other = key then some y else rest.lookup other := by
  by_cases h : other = key
  · simp [h]
  · have hbeq : (other == key) = false := by simp [h]
    simp [List.lookup_cons, h, hbeq]

theorem lookup_insertEntry (name other : String) (x : α) (entries : List (String × α)) :
    (insertEntry name x entries).lookup other =
      if other = name then some x else entries.lookup other := by
  induction entries with
  | nil => simp [insertEntry, lookup_cons_eq_ite]
  | cons entry rest ih =>
      obtain ⟨key, y⟩ := entry
      unfold insertEntry
      by_cases hk : name = key
      · subst hk
        by_cases h : other = name <;> simp [lookup_cons_eq_ite, h]
      · simp only [hk, if_false]
        split
        · simp only [lookup_cons_eq_ite]
        · by_cases h : other = key
          · simp [h, Ne.symm hk]
          · simp [lookup_cons_eq_ite, h, ih]

theorem get?_insert (d : Dictionary α) (name other : String) (x : α) :
    (d.insert name x).get? other = if other = name then some x else d.get? other :=
  lookup_insertEntry name other x d.entries

theorem lookup_filter_ne (name other : String) (entries : List (String × α)) :
    (entries.filter fun e => e.1 ≠ name).lookup other =
      if other = name then none else entries.lookup other := by
  induction entries with
  | nil => simp
  | cons entry rest ih =>
      obtain ⟨key, y⟩ := entry
      by_cases hk : key = name
      · rw [List.filter_cons_of_neg (by simp [hk]), ih, lookup_cons_eq_ite, hk]
        by_cases h : other = name <;> simp [h]
      · rw [List.filter_cons_of_pos (by simp [hk]), lookup_cons_eq_ite, lookup_cons_eq_ite, ih]
        by_cases h : other = key <;> simp [h, hk]

theorem get?_erase (d : Dictionary α) (name other : String) :
    (d.erase name).get? other = if other = name then none else d.get? other :=
  lookup_filter_ne name other d.entries

end Dictionary
end GraphSql
