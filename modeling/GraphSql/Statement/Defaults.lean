import GraphSql.Config
import GraphSql.Statement

/-!
# Defaults — statements opened under a configuration

`Config.startSelect` opens a `SELECT` that has the configured fields when no projections are given,
and the configured target, fetch plan and limit.  All other statements open as they do without a
configuration.
-/

namespace GraphSql

namespace SelectDefaults

def projections (d : SelectDefaults) (given : List String) : List String :=
  if given.isEmpty then d.fields else given

/-- The calls that put the configured parts into a fresh statement. -/
def fills (d : SelectDefaults) : List (Fill .select) :=
  (if d.target.isEmpty then [] else [.target d.target .overwrite]) ++
    (d.fetchPlan.map Fill.fetchPlan).toList ++ (d.limit.map Fill.limit).toList

end SelectDefaults

namespace Config

def startSelect (c : Config) (projections : List String) : Statement .select :=
  c.select.fills.foldl Statement.fill (.start (.select (c.select.projections projections)))

def start {k : Kind} (c : Config) : Opening k → Statement k
  | .select projections => c.startSelect projections
  | o => Statement.start o

end Config
end GraphSql
