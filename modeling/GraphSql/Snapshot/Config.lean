import GraphSql.Config
import GraphSql.Snapshot.Form

/-!
# Config — snapshots of configurations

Every part of a configuration that is missing has its default; in an array the last parts may be
missing.
-/

namespace GraphSql

open Json Snapshot

namespace SelectDefaults

def toTree (d : SelectDefaults) : Tree :=
  record [("target", .array (d.target.map Snapshot.ofString)),
    ("fields", .array (d.fields.map Snapshot.ofString)),
    ("fetch_plan", Snapshot.ofOption Snapshot.ofString d.fetchPlan),
    ("limit", Snapshot.ofOption (fun n => Snapshot.ofInt n.toNat) d.limit)]

def ofTree? (t : Tree) : Option SelectDefaults := do
  match ← leadingFields? ["target", "fields", "fetch_plan", "limit"] t with
  | [target, fields, fetchPlan, limit] =>
      let target ← withDefault? [] (list? string?) target
      let fields ← withDefault? [] (list? string?) fields
      let fetchPlan ← optional? string? fetchPlan
      let limit ← optional? uint64? limit
      return ⟨target, fields, fetchPlan, limit⟩
  | _ => none

end SelectDefaults

namespace Config

def toTree (c : Config) : Tree :=
  record [("select", c.select.toTree)]

def ofTree? (t : Tree) : Option Config := do
  match ← leadingFields? ["select"] t with
  | [select] => return ⟨← withDefault? {} SelectDefaults.ofTree? select⟩
  | _ => none

end Config
end GraphSql
