import GraphSql.Value

/-!
# Error — why a statement cannot be built or rendered

* `Unrepresentable` — a value that its formatter cannot write; it knows no token;
* `QueryError` — a fault of a statement, with the token or the condition it concerns.

Both are causes; `message` is the one place where they become words.
-/

namespace GraphSql

/-! ## Values that cannot be written -/

inductive Unrepresentable
  | notRecordId (text : String)
  | wantsRecordId (got : Shape)
  | wantsCount (got : Shape)
  | notVerbatim (got : Shape)
  | pairLiteral
  | boundCount (count : Nat)
  | wantsEntry (field : String) (got : Shape)
  | wantsPair (got : Shape)
  deriving DecidableEq, Repr

def Unrepresentable.message : Unrepresentable → String
  | .notRecordId text => s!"'{text}' is not a record id"
  | .wantsRecordId got => s!"expected a record id, got {got.describe}"
  | .wantsCount got => s!"expected a non-negative integer, got {got.describe}"
  | .notVerbatim got => s!"{got.describe} cannot be rendered verbatim"
  | .pairLiteral => "a field pair is not a literal"
  | .boundCount count => s!"BETWEEN takes exactly two bounds, got {count}"
  | .wantsEntry field got =>
      s!"map entry for '{field}' must be a key/record id pair, got {got.describe}"
  | .wantsPair got => s!"expected a field pair, got {got.describe}"

/-! ## Faults of a statement -/

inductive QueryError
  | unbound (token : String)
  | valueType (token : String) (cause : Unrepresentable)
  | invalidRecordId (text : String)
  | filterAlreadyOpen (condition : String)
  | markerMismatch (condition : String) (expected found : Nat)
  deriving DecidableEq, Repr

def QueryError.message : QueryError → String
  | .unbound token => s!"Configuration error: no formatter bound to placeholder ':{token}'"
  | .valueType token cause => s!"Value type error in token '{token}': {cause.message}"
  | .invalidRecordId text => s!"Invalid record id: '{text}'"
  | .filterAlreadyOpen condition =>
      s!"WHERE already set, cannot add '{condition}'. Use and_where/or_where or reset_where first"
  | .markerMismatch condition expected found =>
      s!"Condition '{condition}' expects {expected} value(s) but has {found} placeholder(s)"

end GraphSql
