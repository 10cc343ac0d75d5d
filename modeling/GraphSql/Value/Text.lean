import GraphSql.Error
import GraphSql.Number.FloatText
import GraphSql.Text.Quoted

/-!
# Text — the two spellings of a value, and values read as something else

* `Value.plain` — a scalar as it stands, without quotes;
* `Value.literal` — a literal of the dialect: strings and date-times quoted and escaped, lists in
  brackets with commas and no spaces;
* `RecordId.parse` — the record id that a text spells, or the text in an error;
* `Value.reference` — a record id, or a string that spells one;
* `Value.count` — a non-negative integer below `2 ^ 64`, or a string that spells one.
-/

namespace GraphSql

/-- The error has the text as it was given, blanks and all. -/
def RecordId.parse (s : String) : Except QueryError RecordId :=
  match RecordId.ofText? s with
  | some r => .ok r
  | none => .error (.invalidRecordId s)

namespace Value

/-! ## Spellings -/

def plain : Value → Except Unrepresentable String
  | .null => .ok "NULL"
  | .bool true => .ok "true"
  | .bool false => .ok "false"
  | .int n => .ok (String.ofList (Decimal.signed n.toInt))
  | .uint n => .ok (String.ofList (Decimal.digits n.toNat))
  | .float x => .ok (String.ofList (FloatText.text x))
  | .string s => .ok s
  | .recordId r => .ok r.text
  | .dateTime t => .ok (String.ofList t.stamp)
  | .list _ => .error (.notVerbatim .list)
  | .pair _ _ => .error (.notVerbatim .pair)

mutual

def literal : Value → Except Unrepresentable String
  | .string s => .ok (Text.quote s)
  | .dateTime t => .ok (Text.quote (String.ofList t.stamp))
  | .list items => do
      let texts ← literals items
      return "[" ++ ",".intercalate texts ++ "]"
  | .pair _ _ => .error .pairLiteral
  | .null => plain .null
  | .bool b => plain (.bool b)
  | .int n => plain (.int n)
  | .uint n => plain (.uint n)
  | .float x => plain (.float x)
  | .recordId r => plain (.recordId r)

/-- The literals of all values, or the error of the first value that has none. -/
def literals : List Value → Except Unrepresentable (List String)
  | [] => .ok []
  | v :: vs => do
      let text ← literal v
      let texts ← literals vs
      return text :: texts

end

theorem literals_eq_mapM (vs : List Value) : literals vs = vs.mapM literal := by
  induction vs with
  | nil => rfl
  | cons v vs ih => simp [literals, ih]

/-! ## Values read as something else -/

def reference : Value → Except Unrepresentable RecordId
  | .recordId r => .ok r
  | .string s =>
      match RecordId.ofText? s with
      | some r => .ok r
      | none => .error (.notRecordId s)
  | v => .error (.wantsRecordId v.shape)

def count? : Value → Option UInt64
  | .int n => Width.uint64? n.toInt
  | .uint n => some n
  | .string s =>
      match Decimal.natural? (Text.trim s.toList) with
      | some n => Width.uint64? n
      | none => none
  | _ => none

def count (v : Value) : Except Unrepresentable UInt64 :=
  match v.count? with
  | some n => .ok n
  | none => .error (.wantsCount v.shape)

end Value
end GraphSql
