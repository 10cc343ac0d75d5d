import GraphSql.Filter.Condition
import GraphSql.Formatter

/-!
# Filter — the clauses behind `WHERE`

* `Connector` — what joins a clause to the one before it;
* `Clause` — a condition with at most one value, and how a formatter resolves it;
* `Clause.make` — refuses a condition whose markers do not match its value;
* `Filter` — the clauses of a statement in order, and their text.
-/

namespace GraphSql

/-! ## Clauses -/

inductive Connector
  | none
  | and
  | or
  deriving DecidableEq, Repr

def Connector.keyword? : Connector → Option String
  | .none => Option.none
  | .and => some "AND"
  | .or => some "OR"

structure Clause where
  connector : Connector
  condition : String
  value : Option Value

namespace Clause

def expectedMarkers : Option Value → Nat
  | some _ => 1
  | none => 0

def make (connector : Connector) (condition : String) (value : Option Value) :
    Except QueryError Clause :=
  let found := (Condition.markers condition).length
  let expected := expectedMarkers value
  if found = expected then .ok ⟨connector, condition, value⟩
  else .error (.markerMismatch condition expected found)

def resolve (clause : Clause) (f : Formatter) : Except Unrepresentable String :=
  match clause.value with
  | none => .ok clause.condition
  | some v => do
      let text ← f.format [v]
      return Condition.splice clause.condition (text.getD "")

/-- The text of a clause that follows another one. -/
def following (clause : Clause) (f : Formatter) : Except Unrepresentable String := do
  let text ← clause.resolve f
  match clause.connector.keyword? with
  | some word => return " " ++ word ++ " " ++ text
  | none => return " " ++ text

end Clause

/-! ## Filters -/

structure Filter where
  clauses : List Clause

namespace Filter

def empty : Filter :=
  ⟨[]⟩

def isEmpty (f : Filter) : Bool :=
  f.clauses.isEmpty

def push (f : Filter) (clause : Clause) : Filter :=
  ⟨f.clauses ++ [clause]⟩

/-- The opening clause can only be the first. -/
def openWith (f : Filter) (clause : Clause) : Except QueryError Filter :=
  if f.isEmpty then .ok (f.push clause) else .error (.filterAlreadyOpen clause.condition)

/-- The connector of the first clause is never written. -/
def render (filter : Filter) (f : Formatter) : Except Unrepresentable (Option String) :=
  match filter.clauses with
  | [] => .ok none
  | first :: others => do
      let opening ← first.resolve f
      let texts ← others.mapM fun clause => clause.following f
      return some ("WHERE " ++ opening ++ String.join texts)

end Filter
end GraphSql
