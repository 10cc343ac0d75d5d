import GraphSql.Dictionary
import GraphSql.Value

/-!
# Tokens — the named slots behind the placeholders of a statement

Each placeholder of a schema is backed by a slot of the same name, an ordered list of values.

* `WriteMode` — how a write combines with what is there;
* `Slot` — unset, or set with its values and the mode of the last write;
* `Tokens` — all slots of a statement, by name.
-/

namespace GraphSql

/-! ## One slot -/

inductive WriteMode
  | overwrite
  | append
  | prepend
  deriving DecidableEq, Repr

def WriteMode.ofAppend (append : Bool) : WriteMode :=
  if append then .append else .overwrite

def WriteMode.combine : WriteMode → List Value → List Value → List Value
  | .overwrite, _, new => new
  | .append, old, new => old ++ new
  | .prepend, old, new => new ++ old

inductive Slot
  | unset
  | set (values : List Value) (mode : WriteMode)

namespace Slot

def values : Slot → List Value
  | .unset => []
  | .set vs _ => vs

def mode? : Slot → Option WriteMode
  | .unset => none
  | .set _ mode => some mode

def isSet : Slot → Bool
  | .unset => false
  | .set _ _ => true

/-- The mode of the write is kept, and on an unset slot every mode is a fresh start. -/
def write (slot : Slot) (new : List Value) (mode : WriteMode) : Slot :=
  .set (mode.combine slot.values new) mode

theorem values_write (slot : Slot) (new : List Value) (mode : WriteMode) :
    (slot.write new mode).values = mode.combine slot.values new :=
  rfl

end Slot

/-! ## All slots -/

structure Tokens where
  slots : Dictionary Slot

namespace Tokens

def empty : Tokens :=
  ⟨.empty⟩

def slot (tokens : Tokens) (name : String) : Slot :=
  (tokens.slots.get? name).getD .unset

def values (tokens : Tokens) (name : String) : List Value :=
  (tokens.slot name).values

def write (tokens : Tokens) (name : String) (new : List Value) (mode : WriteMode) : Tokens :=
  ⟨tokens.slots.insert name ((tokens.slot name).write new mode)⟩

def set (tokens : Tokens) (name : String) (value : Value) : Tokens :=
  tokens.write name [value] .overwrite

def clear (tokens : Tokens) (name : String) : Tokens :=
  ⟨tokens.slots.erase name⟩

theorem slot_write (tokens : Tokens) (name other : String) (new : List Value) (mode : WriteMode) :
    (tokens.write name new mode).slot other =
      if other = name then (tokens.slot name).write new mode else tokens.slot other := by
  rw [write, slot, Dictionary.get?_insert]
  split <;> rfl

theorem slot_clear (tokens : Tokens) (name other : String) :
    (tokens.clear name).slot other = if other = name then .unset else tokens.slot other := by
  rw [clear, slot, Dictionary.get?_erase]
  split <;> rfl

end Tokens
end GraphSql
