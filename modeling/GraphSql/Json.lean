import GraphSql.Dictionary
import GraphSql.Json.Tree
import GraphSql.Value

/-!
# Json — JSON documents as data, and as values of statements

* `Json` — a document whose numbers and strings have been read and whose objects are sorted;
* `Json.ofTree?` — read a tree; of several members with one name the last one counts;
* `Value.ofJson` — arrays become lists, objects become lists of pairs.
-/

namespace GraphSql

inductive Json
  | null
  | bool (b : Bool)
  | integer (n : Json.Integer)
  | float (x : Float)
  | string (s : String)
  | array (items : List Json)
  | object (members : List (String × Json))

namespace Json

/-! ## Reading a tree -/

def text? (written : List Char) : Option String :=
  (Escaped.decode written).map String.ofList

def ofNumeral? (n : Numeral) : Option Json :=
  match n.integer? with
  | some i => some (.integer i)
  | none => n.double?.map .float

mutual

def ofTree? : Tree → Option Json
  | .null => some .null
  | .bool b => some (.bool b)
  | .number n => ofNumeral? n
  | .string written => (text? written).map .string
  | .array items => (ofItems? items).map .array
  | .object members =>
      (ofMembers? members).map fun ms => .object (Dictionary.ofList ms).entries
  | .tooDeep => none

def ofItems? : List Tree → Option (List Json)
  | [] => some []
  | t :: ts => do
      let j ← ofTree? t
      let js ← ofItems? ts
      return j :: js

def ofMembers? : List (List Char × Tree) → Option (List (String × Json))
  | [] => some []
  | (key, t) :: ms => do
      let name ← text? key
      let j ← ofTree? t
      let rest ← ofMembers? ms
      return (name, j) :: rest

end

def parse? (text : String) : Option Json := do
  let t ← Tree.parse? text
  ofTree? (t.clip Tree.nestingLimit)

end Json

/-! ## Documents as values -/

namespace Value

/-- Integers beyond the signed range are unsigned. -/
def ofInteger (n : Json.Integer) : Value :=
  match Width.int64? n.val with
  | some i => .int i
  | none => .uint (UInt64.ofNat n.val.toNat)

mutual

def ofJson : Json → Value
  | .null => .null
  | .bool b => .bool b
  | .integer n => ofInteger n
  | .float x => .float x
  | .string s => .string s
  | .array items => .list (ofJsonItems items)
  | .object members => .list (ofJsonMembers members)

def ofJsonItems : List Json → List Value
  | [] => []
  | j :: js => ofJson j :: ofJsonItems js

def ofJsonMembers : List (String × Json) → List Value
  | [] => []
  | (name, j) :: ms => .pair name (ofJson j) :: ofJsonMembers ms

end

end Value
end GraphSql
