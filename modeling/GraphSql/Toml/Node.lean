/-!
# Node — what a TOML document is made of

A table remembers how it came about, since that decides who may still add to it:

* `inline` — written between braces; complete;
* `header` — opened by a header of its own;
* `implied` — on the way to a longer header; a header of its own may still follow;
* `dotted` — on the way of a dotted key; further dotted keys may add to it.

`descend` changes the table at the end of a header path, `insertAt` puts a value at the end of a
dotted key, and both answer `none` where a document may not do so.
-/

namespace GraphSql
namespace Toml

inductive Origin
  | inline
  | header
  | implied
  | dotted
  deriving DecidableEq, Repr

inductive Node
  | string (s : String)
  | integer (n : Int64)
  | float (x : Float)
  | boolean (b : Bool)
  | dateTime
  | array (items : List Node)
  | table (origin : Origin) (entries : List (String × Node))
  /-- One table for each header in double brackets, the latest last. -/
  | tables (elements : List (List (String × Node)))

abbrev Entries := List (String × Node)

namespace Entries

def replace (entries : Entries) (name : String) (node : Node) : Entries :=
  entries.map fun e => if e.1 = name then (name, node) else e

def add? (entries : Entries) (name : String) (node : Node) : Option Entries :=
  match entries.lookup name with
  | some _ => none
  | none => some (entries ++ [(name, node)])

/-! ## Header paths -/

/-- Missing tables on the way are implied; an array of tables is entered at its latest element. -/
def descend (change : Entries → Option Entries) : List String → Entries → Option Entries
  | [], entries => change entries
  | name :: path, entries =>
      match entries.lookup name with
      | none => do
          let inner ← descend change path []
          return entries ++ [(name, .table .implied inner)]
      | some (.table .inline _) => none
      | some (.table origin inner) => do
          let inner ← descend change path inner
          return entries.replace name (.table origin inner)
      | some (.tables elements) => do
          let inner ← descend change path (elements.getLast?.getD [])
          return entries.replace name (.tables (elements.dropLast ++ [inner]))
      | some _ => none

/-- The table of a header is new, or implied so far. -/
def openTable (name : String) (entries : Entries) : Option Entries :=
  match entries.lookup name with
  | none => some (entries ++ [(name, .table .header [])])
  | some (.table .implied inner) => some (entries.replace name (.table .header inner))
  | some _ => none

def openElement (name : String) (entries : Entries) : Option Entries :=
  match entries.lookup name with
  | none => some (entries ++ [(name, .tables [[]])])
  | some (.tables elements) => some (entries.replace name (.tables (elements ++ [[]])))
  | some _ => none

/-! ## Dotted keys -/

/-- The last table of the path has to be one that dotted keys have made. -/
def insertAt (name : String) (node : Node) : List String → Entries → Option Entries
  | [], entries => entries.add? name node
  | step :: path, entries =>
      match entries.lookup step with
      | none => do
          let inner ← insertAt name node path []
          return entries ++ [(step, .table .dotted inner)]
      | some (.table .dotted inner) => do
          let inner ← insertAt name node path inner
          return entries.replace step (.table .dotted inner)
      -- A table that a header has implied may be passed through, but not added to.
      | some (.table .implied inner) =>
          if path.isEmpty then none
          else do
            let inner ← insertAt name node path inner
            return entries.replace step (.table .implied inner)
      | some (.tables elements) =>
          if path.isEmpty then none
          else do
            let inner ← insertAt name node path (elements.getLast?.getD [])
            return entries.replace step (.tables (elements.dropLast ++ [inner]))
      | some _ => none

end Entries
end Toml
end GraphSql
