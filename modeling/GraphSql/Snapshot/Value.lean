import GraphSql.Calendar.Iso
import GraphSql.Snapshot.Form
import GraphSql.Value

/-!
# Value — snapshots of record ids, date-times and values

Each snapshot comes as a pair, `toTree` and `ofTree?`.  A date-time is its interchange text.  A
double that is infinite or not a number is written as null, and null is not read as a double.
-/

namespace GraphSql

open Json Snapshot

/-! ## Record ids -/

namespace RecordId

def toTree (r : RecordId) : Tree :=
  record [("cluster", Snapshot.ofInt r.cluster.toInt),
    ("position", Snapshot.ofInt r.position.toInt)]

def ofTree? (t : Tree) : Option RecordId := do
  match ← fields? ["cluster", "position"] t with
  | [cluster, position] =>
      let cluster ← required? int32? cluster
      let position ← required? int64? position
      return ⟨cluster, position⟩
  | _ => none

end RecordId

/-! ## Date-times -/

namespace DateTime

def toTree (t : DateTime) : Tree :=
  .string (Escaped.encode t.iso)

def ofTree? : Tree → Option DateTime
  | .string written => Escaped.decode written >>= DateTime.ofIso?
  | _ => none

end DateTime

/-! ## Values -/

namespace Value

def floatTree (x : Float) : Tree :=
  match Numeral.ofFloat? x with
  | some n => .number n
  | none => .null

mutual

def toTree : Value → Tree
  | .null => Snapshot.ofString "Null"
  | .bool b => alternative "Bool" (.bool b)
  | .int n => alternative "Int" (Snapshot.ofInt n.toInt)
  | .uint n => alternative "UInt" (Snapshot.ofInt n.toNat)
  | .float x => alternative "Float" (floatTree x)
  | .string s => alternative "String" (Snapshot.ofString s)
  | .recordId r => alternative "Rid" r.toTree
  | .dateTime t => alternative "DateTime" t.toTree
  | .list items => alternative "List" (.array (itemTrees items))
  | .pair field v => alternative "Pair" (.array [Snapshot.ofString field, toTree v])

def itemTrees : List Value → List Tree
  | [] => []
  | v :: vs => toTree v :: itemTrees vs

end

/-- The alternatives that hold no further values. -/
def scalarOfTree? (name : String) (held : Tree) : Option Value :=
  if name = "Null" then (null? held).map fun _ => .null
  else if name = "Bool" then (bool? held).map .bool
  else if name = "Int" then (int64? held).map .int
  else if name = "UInt" then (uint64? held).map .uint
  else if name = "Float" then (double? held).map .float
  else if name = "String" then (string? held).map .string
  else if name = "Rid" then (RecordId.ofTree? held).map .recordId
  else if name = "DateTime" then (DateTime.ofTree? held).map .dateTime
  else none

mutual

def ofTree? : Tree → Option Value
  | .string written => if decode? written = some "Null" then some .null else none
  | .object [(key, .array items)] =>
      match decode? key, items with
      | some "List", items => (ofItems? items).map .list
      | some "Pair", [field, held] => do
          let field ← string? field
          let value ← ofTree? held
          return .pair field value
      -- Such as a record id, which may be an array of its fields.
      | some name, items => scalarOfTree? name (.array items)
      | none, _ => none
  | .object [(key, held)] => do scalarOfTree? (← decode? key) held
  | _ => none

def ofItems? : List Tree → Option (List Value)
  | [] => some []
  | t :: ts => do
      let v ← ofTree? t
      let vs ← ofItems? ts
      return v :: vs

end

end Value
end GraphSql
