import GraphSql.Config
import GraphSql.Toml.Document

/-!
# File — configurations written in TOML

The table `select` holds `target` and `fields`, which are arrays of strings, `fetch_plan`, a string,
and `limit`, an integer that is not negative.  Each of them may be missing, and other keys are
skipped.  In place of the table there may be an array of the same parts in that order, or a date or
time, which has none of these parts.
-/

namespace GraphSql

/-! ## Parts -/

namespace Toml
namespace Node

def string? : Node → Option String
  | .string s => some s
  | _ => none

def strings? : Node → Option (List String)
  | .array items => items.mapM string?
  | _ => none

def count? : Node → Option UInt64
  | .integer n => Width.uint64? n.toInt
  | _ => none

end Node

def withDefault? {α : Type} (default : α) (f : Node → Option α) : Option Node → Option α
  | none => some default
  | some node => f node

end Toml

open Toml

/-! ## Configurations -/

def SelectDefaults.ofParts? (target fields fetchPlan limit : Option Node) :
    Option SelectDefaults := do
  let target ← withDefault? [] Node.strings? target
  let fields ← withDefault? [] Node.strings? fields
  let fetchPlan ← withDefault? none (fun node => node.string?.map some) fetchPlan
  let limit ← withDefault? none (fun node => node.count?.map some) limit
  return ⟨target, fields, fetchPlan, limit⟩

def SelectDefaults.ofNode? : Node → Option SelectDefaults
  | .table _ entries =>
      ofParts? (entries.lookup "target") (entries.lookup "fields") (entries.lookup "fetch_plan")
        (entries.lookup "limit")
  | .array items => ofParts? items[0]? items[1]? items[2]? items[3]?
  | .dateTime => ofParts? none none none none
  | _ => none

namespace Config

def ofEntries? (entries : Entries) : Option Config := do
  return ⟨← withDefault? {} SelectDefaults.ofNode? (entries.lookup "select")⟩

def ofText? (text : String) : Option Config := do
  ofEntries? (← Toml.parse? text)

/-! ## Files -/

inductive LoadError
  /-- There is no file, or it is not text in UTF-8. -/
  | unreadable
  | malformed
  deriving DecidableEq, Repr

/-- The configuration in a file with the given bytes; `none` is a file that does not exist. -/
def load (bytes : Option ByteArray) : Except LoadError Config :=
  match bytes.bind String.fromUTF8? with
  | none => .error .unreadable
  | some text =>
      match ofText? text with
      | none => .error .malformed
      | some config => .ok config

end Config
end GraphSql
