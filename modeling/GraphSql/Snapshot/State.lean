import GraphSql.Filter
import GraphSql.Snapshot.Value
import GraphSql.Tokens

/-!
# State — snapshots of tokens and filters

The state of a statement under construction can be written and read back: write modes, slots and
tokens on one side; connectors, clauses and filters on the other.
-/

namespace GraphSql

open Json Snapshot

/-! ## Tokens -/

namespace WriteMode

def name : WriteMode → String
  | .overwrite => "Overwrite"
  | .append => "Append"
  | .prepend => "Prepend"

def toTree (mode : WriteMode) : Tree :=
  Snapshot.ofString mode.name

def ofTree? : Tree → Option WriteMode :=
  unitAlternative? [("Overwrite", .overwrite), ("Append", .append), ("Prepend", .prepend)]

end WriteMode

namespace Slot

def toTree : Slot → Tree
  | .unset => Snapshot.ofString "Unset"
  | .set values mode =>
      alternative "Set"
        (record [("values", .array (Value.itemTrees values)), ("mode", mode.toTree)])

def ofTree? (t : Tree) : Option Slot :=
  match payload? "Set" t with
  | some held => do
      match ← fields? ["values", "mode"] held with
      | [values, mode] =>
          let values ← required? (list? Value.ofTree?) values
          let mode ← required? WriteMode.ofTree? mode
          return .set values mode
      | _ => none
  | none => unitAlternative? [("Unset", .unset)] t

end Slot

namespace Tokens

def toTree (tokens : Tokens) : Tree :=
  record [("tokens", record (tokens.slots.entries.map fun e => (e.1, e.2.toTree)))]

/-- Of several slots with one name the last one counts. -/
def slots? : Tree → Option (Dictionary Slot)
  | .object members => do
      let named ← members? members
      let slots ← named.mapM fun m => (Slot.ofTree? m.2).map fun slot => (m.1, slot)
      return Dictionary.ofList slots
  | _ => none

def ofTree? (t : Tree) : Option Tokens := do
  match ← fields? ["tokens"] t with
  | [slots] => return ⟨← required? slots? slots⟩
  | _ => none

end Tokens

/-! ## Filters -/

namespace Connector

def name : Connector → String
  | .none => "None"
  | .and => "And"
  | .or => "Or"

def toTree (c : Connector) : Tree :=
  Snapshot.ofString c.name

def ofTree? : Tree → Option Connector :=
  unitAlternative? [("None", .none), ("And", .and), ("Or", .or)]

end Connector

namespace Clause

def toTree (c : Clause) : Tree :=
  record [("connector", c.connector.toTree), ("condition", Snapshot.ofString c.condition),
    ("value", Snapshot.ofOption Value.toTree c.value)]

def ofTree? (t : Tree) : Option Clause := do
  match ← fields? ["connector", "condition", "value"] t with
  | [connector, condition, value] =>
      let connector ← required? Connector.ofTree? connector
      let condition ← required? string? condition
      let value ← optional? Value.ofTree? value
      return ⟨connector, condition, value⟩
  | _ => none

end Clause

namespace Filter

def toTree (f : Filter) : Tree :=
  record [("clauses", .array (f.clauses.map Clause.toTree))]

def ofTree? (t : Tree) : Option Filter := do
  match ← fields? ["clauses"] t with
  | [clauses] => return ⟨← required? (list? Clause.ofTree?) clauses⟩
  | _ => none

end Filter
end GraphSql
