import GraphSql.Json.Tree
import GraphSql.Number.Width

/-!
# Form — records and alternatives as JSON trees

A record is written as an object with its fields in order; it is also read from an array of its
fields.  An alternative is written as its name alone, or as an object with its name and what it
holds.

* `record`, `alternative` — writing;
* `fields?`, `leadingFields?` — the parts of a record, in the order of its fields; unknown members
  are skipped unread, a repeated field is refused;
* `unitAlternative?`, `payload?` — the parts of an alternative;
* `read?` — a whole text, within the nesting limit.
-/

namespace GraphSql
namespace Snapshot

open Json

/-! ## Writing -/

def ofString (s : String) : Tree :=
  .string (Escaped.encode s.toList)

def ofInt (n : Int) : Tree :=
  .number (Numeral.ofInt n)

def ofOption {α : Type} (f : α → Tree) : Option α → Tree
  | some x => f x
  | none => .null

def record (members : List (String × Tree)) : Tree :=
  .object (members.map fun m => (Escaped.encode m.1.toList, m.2))

def alternative (name : String) (held : Tree) : Tree :=
  record [(name, held)]

/-! ## Reading scalars -/

def decode? (written : List Char) : Option String :=
  (Escaped.decode written).map String.ofList

def string? : Tree → Option String
  | .string written => decode? written
  | _ => none

def bool? : Tree → Option Bool
  | .bool b => some b
  | _ => none

/-- A number with a point or an exponent is not an integer. -/
def int? : Tree → Option Int
  | .number n => n.integer?.map Integer.val
  | _ => none

def int32? (t : Tree) : Option Int32 :=
  int? t >>= Width.int32?

def int64? (t : Tree) : Option Int64 :=
  int? t >>= Width.int64?

def uint64? (t : Tree) : Option UInt64 :=
  int? t >>= Width.uint64?

def double? : Tree → Option Float
  | .number n => n.double?
  | _ => none

def null? : Tree → Option Unit
  | .null => some ()
  | _ => none

/-! ## Reading collections -/

def list? {α : Type} (f : Tree → Option α) : Tree → Option (List α)
  | .array items => items.mapM f
  | _ => none

def option? {α : Type} (f : Tree → Option α) : Tree → Option (Option α)
  | .null => some none
  | t => (f t).map some

def members? : List (List Char × Tree) → Option (List (String × Tree))
  | [] => some []
  | (key, t) :: rest => do
      let name ← decode? key
      let more ← members? rest
      return (name, t) :: more

/-! ## Reading records -/

def byName? (names : List String) (members : List (List Char × Tree)) :
    Option (List (Option Tree)) := do
  let named ← members? members
  -- Unknown members may be repeated.
  if names.all fun name => (named.filter fun m => m.1 = name).length ≤ 1 then
    return names.map fun name => named.lookup name
  else none

/-- In an array all fields have to be there. -/
def fields? (names : List String) : Tree → Option (List (Option Tree))
  | .object members => byName? names members
  | .array items => if items.length = names.length then some (items.map some) else none
  | _ => none

/-- In an array the last fields may be missing. -/
def leadingFields? (names : List String) : Tree → Option (List (Option Tree))
  | .object members => byName? names members
  | .array items =>
      if items.length ≤ names.length then
        some (items.map some ++ List.replicate (names.length - items.length) none)
      else none
  | _ => none

def required? {α : Type} (f : Tree → Option α) : Option Tree → Option α
  | some t => f t
  | none => none

def optional? {α : Type} (f : Tree → Option α) : Option Tree → Option (Option α)
  | some t => option? f t
  | none => some none

def withDefault? {α : Type} (default : α) (f : Tree → Option α) : Option Tree → Option α
  | some t => f t
  | none => some default

/-! ## Reading alternatives -/

/-- An alternative that holds nothing is its name, or its name with a null. -/
def unitName? : Tree → Option String
  | .string written => decode? written
  | .object [(key, .null)] => decode? key
  | _ => none

def unitAlternative? {α : Type} (table : List (String × α)) (t : Tree) : Option α := do
  table.lookup (← unitName? t)

/-- What the alternative of the given name holds. -/
def payload? (name : String) : Tree → Option Tree
  | .object [(key, held)] => if decode? key = some name then some held else none
  | _ => none

/-! ## Whole texts -/

def read? {α : Type} (f : Tree → Option α) (text : String) : Option α := do
  let t ← Tree.parse? text
  f (t.clip Tree.nestingLimit)

end Snapshot
end GraphSql
