import GraphSql.Calendar
import GraphSql.RecordId

/-!
# Value — what a statement can be given

* `Value` — a scalar, a list of values, or a field paired with a value;
* `Shape`, `Value.shape` — the outermost constructor, with the words messages use for it;
* `Value.same` — equality of values, in which doubles compare as numbers: a number that is not one
  differs from itself, and the two zeros are the same;
* `Value.ofInt32`, `Value.ofUInt32`, `Value.ofStrings` — values of narrower kinds.
-/

namespace GraphSql

inductive Value
  | null
  | bool (b : Bool)
  | int (n : Int64)
  | uint (n : UInt64)
  | float (x : Float)
  | string (s : String)
  | recordId (r : RecordId)
  | dateTime (t : DateTime)
  | list (items : List Value)
  | pair (field : String) (value : Value)

/-! ## Shapes -/

inductive Shape
  | null
  | boolean
  | integer
  | unsigned
  | float
  | string
  | recordId
  | dateTime
  | list
  | pair
  deriving DecidableEq, Repr

def Shape.describe : Shape → String
  | .null => "null"
  | .boolean => "a boolean"
  | .integer => "an integer"
  | .unsigned => "an unsigned integer"
  | .float => "a float"
  | .string => "a string"
  | .recordId => "a record id"
  | .dateTime => "a date-time"
  | .list => "a list"
  | .pair => "a field pair"

namespace Value

def shape : Value → Shape
  | .null => .null
  | .bool _ => .boolean
  | .int _ => .integer
  | .uint _ => .unsigned
  | .float _ => .float
  | .string _ => .string
  | .recordId _ => .recordId
  | .dateTime _ => .dateTime
  | .list _ => .list
  | .pair _ _ => .pair

/-! ## Equality of values -/

mutual

def same : Value → Value → Bool
  | .null, .null => true
  | .bool a, .bool b => a = b
  | .int a, .int b => a = b
  | .uint a, .uint b => a = b
  | .float a, .float b => a == b
  | .string a, .string b => a = b
  | .recordId a, .recordId b => a = b
  | .dateTime a, .dateTime b => a = b
  | .list as, .list bs => sameItems as bs
  | .pair f a, .pair g b => f = g && same a b
  | _, _ => false

def sameItems : List Value → List Value → Bool
  | [], [] => true
  | a :: as, b :: bs => same a b && sameItems as bs
  | _, _ => false

end

/-! ## Narrower kinds -/

instance : Coe String Value := ⟨Value.string⟩

instance : Coe RecordId Value := ⟨Value.recordId⟩

def ofInt32 (n : Int32) : Value :=
  .int n.toInt64

/-- Thirty-two bits without a sign fit the signed integers. -/
def ofUInt32 (n : UInt32) : Value :=
  .int (Int64.ofNat n.toNat)

def ofStrings (texts : List String) : List Value :=
  texts.map Value.string

end Value
end GraphSql
