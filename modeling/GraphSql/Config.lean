/-!
# Config — defaults for statements

The only statement with defaults is `SELECT`; each default is used until the statement says
otherwise.
-/

namespace GraphSql

structure SelectDefaults where
  target : List String := []
  fields : List String := []
  fetchPlan : Option String := none
  limit : Option UInt64 := none
  deriving DecidableEq, Repr

structure Config where
  select : SelectDefaults := {}
  deriving DecidableEq, Repr

end GraphSql
