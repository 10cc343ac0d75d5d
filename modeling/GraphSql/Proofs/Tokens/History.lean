import GraphSql.Tokens
import Mathlib.Data.List.DropRight

/-!
# History — what a token holds after any operations

What a token holds depends on what was written to it since it was last cleared:

* `TokenOp`, `Tokens.run` — the operations on tokens, one after the other;
* `slot_run` — operations on other tokens leave a slot alone;
* `written` — what was written to a token since it was last cleared;
* `basis`, `added` — the values of the last write that overwrites, and the writes behind it;
* `values_run_eq` — the values of a token, the mode of its last write, and whether it is set.
-/

namespace GraphSql

/-! ## Operations on tokens -/

/-- What one write brings to a slot. -/
structure Entry where
  values : List Value
  mode : WriteMode

inductive TokenOp
  | set (name : String) (value : Value)
  | write (name : String) (values : List Value) (mode : WriteMode)
  | clear (name : String)

namespace TokenOp

def name : TokenOp → String
  | .set name _ => name
  | .write name _ _ => name
  | .clear name => name

/-- To set a value is to overwrite what is there; a clearing writes nothing. -/
def entry? : TokenOp → Option Entry
  | .set _ value => some ⟨[value], .overwrite⟩
  | .write _ values mode => some ⟨values, mode⟩
  | .clear _ => none

end TokenOp

namespace Slot

def add (slot : Slot) (entry : Entry) : Slot :=
  slot.write entry.values entry.mode

def apply (slot : Slot) (op : TokenOp) : Slot :=
  match op.entry? with
  | some entry => slot.add entry
  | none => .unset

end Slot

namespace Tokens

def apply (tokens : Tokens) : TokenOp → Tokens
  | .set name value => tokens.set name value
  | .write name values mode => tokens.write name values mode
  | .clear name => tokens.clear name

def run (tokens : Tokens) (ops : List TokenOp) : Tokens :=
  ops.foldl apply tokens

end Tokens

/-! ## Histories -/

namespace History

def on (name : String) (ops : List TokenOp) : List TokenOp :=
  ops.filter fun op => op.name = name

def cleared (name : String) (ops : List TokenOp) : Bool :=
  (on name ops).any fun op => op.entry?.isNone

/-- What was written to the token since it was last cleared. -/
def written (name : String) (ops : List TokenOp) : List Entry :=
  ((on name ops).rtakeWhile fun op => op.entry?.isSome).filterMap TokenOp.entry?

/-- The slot that these entries were written to. -/
def origin (tokens : Tokens) (name : String) (ops : List TokenOp) : Slot :=
  if cleared name ops then .unset else tokens.slot name

/-- The values of the last entry that overwrites, or those that were there before all of them. -/
def basis (start : List Value) (entries : List Entry) : List Value :=
  ((entries.filter fun entry => entry.mode = .overwrite).getLast?.map Entry.values).getD start

/-- The entries of a mode behind the last one that overwrites. -/
def added (mode : WriteMode) (entries : List Entry) : List Entry :=
  (entries.rtakeWhile fun entry => entry.mode ≠ .overwrite).filter fun entry => entry.mode = mode

end History

/-! ## One slot -/

namespace Tokens

open History (on)

theorem slot_apply (tokens : Tokens) (op : TokenOp) (name : String) :
    (tokens.apply op).slot name =
      if op.name = name then (tokens.slot name).apply op else tokens.slot name := by
  cases op with
  | set other value =>
      have hwrite := slot_write tokens other name [value] .overwrite
      by_cases h : name = other
      · subst h
        simpa [apply, set, Slot.apply, Slot.add, TokenOp.entry?, TokenOp.name] using hwrite
      · simpa [apply, set, TokenOp.name, h, Ne.symm h] using hwrite
  | write other values mode =>
      have hwrite := slot_write tokens other name values mode
      by_cases h : name = other
      · subst h
        simpa [apply, Slot.apply, Slot.add, TokenOp.entry?, TokenOp.name] using hwrite
      · simpa [apply, TokenOp.name, h, Ne.symm h] using hwrite
  | clear other =>
      have hclear := slot_clear tokens other name
      by_cases h : name = other
      · subst h
        simpa [apply, Slot.apply, TokenOp.entry?, TokenOp.name] using hclear
      · simpa [apply, TokenOp.name, h, Ne.symm h] using hclear

/-- Only the operations on a token reach its slot. -/
theorem slot_run (tokens : Tokens) (ops : List TokenOp) (name : String) :
    (tokens.run ops).slot name = (on name ops).foldl Slot.apply (tokens.slot name) := by
  induction ops generalizing tokens with
  | nil => rfl
  | cons op ops ih =>
      have hrest := ih (tokens.apply op)
      rw [slot_apply] at hrest
      by_cases h : op.name = name
      · simpa [run, on, h] using hrest
      · simpa [run, on, h] using hrest

theorem slot_run_on (tokens : Tokens) (ops : List TokenOp) (name : String) :
    (tokens.run (on name ops)).slot name = (tokens.run ops).slot name := by
  have htwice : on name (on name ops) = on name ops := by simp [on]
  rw [slot_run, slot_run, htwice]

end Tokens

/-! ## Since the last clearing -/

namespace Slot

theorem foldl_apply_eq (slot : Slot) (ops : List TokenOp) :
    ops.foldl apply slot =
      ((ops.rtakeWhile fun op => op.entry?.isSome).filterMap TokenOp.entry?).foldl add
        (if ops.any fun op => op.entry?.isNone then .unset else slot) := by
  -- From the last operation back: it is a clearing, or what it writes comes last.
  induction ops using List.reverseRecOn with
  | nil => rfl
  | append_singleton ops op ih =>
      rw [List.foldl_append, ih]
      cases hentry : op.entry? with
      | none =>
          have hlast : (ops ++ [op]).rtakeWhile (fun op => op.entry?.isSome) = [] :=
            List.rtakeWhile_concat_neg _ _ _ (by simp [hentry])
          simp [hlast, apply, hentry]
      | some entry =>
          have hlast : (ops ++ [op]).rtakeWhile (fun op => op.entry?.isSome) =
              ops.rtakeWhile (fun op => op.entry?.isSome) ++ [op] :=
            List.rtakeWhile_concat_pos _ _ _ (by simp [hentry])
          simp [hlast, apply, hentry]

end Slot

/-! ## Entries -/

namespace History

theorem basis_concat_overwrite {entry : Entry} (h : entry.mode = .overwrite) (start : List Value)
    (entries : List Entry) : basis start (entries ++ [entry]) = entry.values := by
  simp [basis, h]

theorem basis_concat_added {entry : Entry} (h : entry.mode ≠ .overwrite) (start : List Value)
    (entries : List Entry) : basis start (entries ++ [entry]) = basis start entries := by
  simp [basis, h]

theorem added_concat_overwrite {entry : Entry} (h : entry.mode = .overwrite) (mode : WriteMode)
    (entries : List Entry) : added mode (entries ++ [entry]) = [] := by
  have hlast : (entries ++ [entry]).rtakeWhile (fun entry => entry.mode ≠ .overwrite) = [] :=
    List.rtakeWhile_concat_neg _ _ _ (by simp [h])
  rw [added, hlast, List.filter_nil]

theorem added_concat_added {entry : Entry} (h : entry.mode ≠ .overwrite) (mode : WriteMode)
    (entries : List Entry) :
    added mode (entries ++ [entry]) =
      added mode entries ++ if entry.mode = mode then [entry] else [] := by
  have hlast : (entries ++ [entry]).rtakeWhile (fun entry => entry.mode ≠ .overwrite) =
      entries.rtakeWhile (fun entry => entry.mode ≠ .overwrite) ++ [entry] :=
    List.rtakeWhile_concat_pos _ _ _ (by simp [h])
  rw [added, hlast, List.filter_append, added]
  by_cases hmode : entry.mode = mode <;> simp [hmode]

end History

namespace Slot

open History (basis added basis_concat_overwrite basis_concat_added added_concat_overwrite
  added_concat_added)

/-- What was put in front stands in reverse order, what was put behind in order. -/
theorem values_foldl_add (slot : Slot) (entries : List Entry) :
    (entries.foldl add slot).values =
      (added .prepend entries).reverse.flatMap Entry.values ++
        (basis slot.values entries ++ (added .append entries).flatMap Entry.values) := by
  induction entries using List.reverseRecOn with
  | nil => simp [basis, added]
  | append_singleton entries entry ih =>
      rw [List.foldl_append, List.foldl_cons, List.foldl_nil, add, values_write]
      cases hmode : entry.mode with
      | overwrite =>
          rw [added_concat_overwrite hmode, added_concat_overwrite hmode,
            basis_concat_overwrite hmode]
          simp [WriteMode.combine]
      | append =>
          have hadded : entry.mode ≠ .overwrite := by simp [hmode]
          rw [added_concat_added hadded, added_concat_added hadded, basis_concat_added hadded, ih]
          simp [WriteMode.combine, hmode]
      | prepend =>
          have hadded : entry.mode ≠ .overwrite := by simp [hmode]
          rw [added_concat_added hadded, added_concat_added hadded, basis_concat_added hadded, ih]
          simp [WriteMode.combine, hmode]

theorem mode?_foldl_add (slot : Slot) (entries : List Entry) :
    (entries.foldl add slot).mode? = (entries.getLast?.map Entry.mode).or slot.mode? := by
  induction entries using List.reverseRecOn with
  | nil => rfl
  | append_singleton entries entry _ => simp [add, write, mode?]

theorem isSet_foldl_add (slot : Slot) (entries : List Entry) :
    (entries.foldl add slot).isSet = true ↔ entries ≠ [] ∨ slot.isSet = true := by
  induction entries using List.reverseRecOn with
  | nil => simp
  | append_singleton entries entry _ => simp [add, write, isSet]

end Slot

/-! ## Runs -/

namespace Tokens

open History

theorem slot_run_written (tokens : Tokens) (ops : List TokenOp) (name : String) :
    (tokens.run ops).slot name = (written name ops).foldl Slot.add (origin tokens name ops) :=
  (slot_run tokens ops name).trans (Slot.foldl_apply_eq _ _)

/-- A token holds the values of the last write that overwrites, what was put in front of them since
then in reverse order, and what was put behind them in order; nothing is lost and nothing is there
twice.  Its mode is that of the last write. -/
theorem values_run_eq (tokens : Tokens) (ops : List TokenOp) (name : String) :
    ((tokens.run ops).values name =
      (added .prepend (written name ops)).reverse.flatMap Entry.values ++
        (basis (origin tokens name ops).values (written name ops) ++
          (added .append (written name ops)).flatMap Entry.values)) ∧
    ((tokens.run ops).slot name).mode? =
      ((written name ops).getLast?.map Entry.mode).or (origin tokens name ops).mode? ∧
    (((tokens.run ops).slot name).isSet = true ↔
      written name ops ≠ [] ∨ (tokens.slot name).isSet = true ∧ cleared name ops = false) ∧
    (tokens.run ops).slot name = (tokens.run (on name ops)).slot name := by
  have horigin : (origin tokens name ops).isSet = true ↔
      (tokens.slot name).isSet = true ∧ cleared name ops = false := by
    cases hcleared : cleared name ops <;> simp [origin, hcleared, Slot.isSet]
  refine ⟨?_, ?_, ?_, (slot_run_on tokens ops name).symm⟩
  · rw [values, slot_run_written]
    exact Slot.values_foldl_add _ _
  · rw [slot_run_written]
    exact Slot.mode?_foldl_add _ _
  · rw [slot_run_written, Slot.isSet_foldl_add, horigin]

-- The second clearing ends the history, and the write behind it overwrites nothing.
example (tokens : Tokens) :
    ((tokens.run [.clear "A", .set "A" .null, .clear "A", .write "A" [.bool true] .append,
      .set "B" .null, .write "A" [.string "x", .null] .prepend]).values "A") =
      [.string "x", .null, .bool true] := by
  simp [Tokens.run, Tokens.apply, Tokens.values, Tokens.set, slot_write, slot_clear, Slot.write,
    WriteMode.combine, Slot.values]

end Tokens
end GraphSql
