import GraphSql.Number.Decimal
import GraphSql.Number.Width
import GraphSql.Text.Blank

/-!
# RecordId — references to stored records

A record id is a cluster number and a position in that cluster, written `#cluster:position`.
Reading trims blanks, takes the `#` as optional, and refuses numbers outside the two widths.
Record ids are ordered by cluster first, then by position.
-/

namespace GraphSql

structure RecordId where
  cluster : Int32
  position : Int64
  deriving DecidableEq, Repr

namespace RecordId

/-! ## Writing -/

def chars (r : RecordId) : List Char :=
  '#' :: (Decimal.signed r.cluster.toInt ++ ':' :: Decimal.signed r.position.toInt)

def text (r : RecordId) : String :=
  String.ofList r.chars

/-! ## Reading -/

def ofInts? (cluster position : Int) : Option RecordId :=
  match Width.int32? cluster, Width.int64? position with
  | some c, some p => some ⟨c, p⟩
  | _, _ => none

def dropHash : List Char → List Char
  | '#' :: cs => cs
  | cs => cs

def ofChars? (cs : List Char) : Option RecordId := do
  let (cluster, rest) ← Decimal.signed? (dropHash (Text.trim cs))
  match rest with
  | ':' :: rest =>
      let (position, rest) ← Decimal.signed? rest
      if rest.isEmpty then ofInts? cluster position else none
  | _ => none

def ofText? (s : String) : Option RecordId :=
  ofChars? s.toList

/-! ## Order -/

def le (r s : RecordId) : Bool :=
  r.cluster < s.cluster || (r.cluster = s.cluster && r.position ≤ s.position)

def sort (rs : List RecordId) : List RecordId :=
  rs.mergeSort le

end RecordId
end GraphSql
