import GraphSql.Toml.Node
import GraphSql.Toml.Number

/-!
# Document — reading a TOML document

* `value?` — one value, with at most the given nesting of arrays and inline tables;
* `Line` — a blank line, a pair of key and value, or a header;
* `parse?` — the entries of a whole document.
-/

namespace GraphSql
namespace Toml

/-! ## Values -/

def number? (cs : List Char) : Option (Node × List Char) :=
  -- A date may start like a float, and a float like an integer.
  ((dateTime? cs).map fun rest => (.dateTime, rest)) <|>
    ((float? cs).map fun found => (.float found.1, found.2)) <|>
    ((integer? cs).map fun found => (.integer found.1, found.2))

mutual

/-- The value at the front of a text.  `levels` arrays and inline tables may still be opened, and
`steps` bounds the work; twice the length of the text is enough. -/
def value? : Nat → Nat → List Char → Option (Node × List Char)
  | 0, _, _ => none
  | steps + 1, levels, cs =>
      match cs with
      | 't' :: 'r' :: 'u' :: 'e' :: rest => some (.boolean true, rest)
      | 'f' :: 'a' :: 'l' :: 's' :: 'e' :: rest => some (.boolean false, rest)
      | '[' :: rest =>
          match levels with
          | 0 => none
          | levels + 1 => (items? steps levels rest).map fun found => (.array found.1, found.2)
      | '{' :: rest =>
          match levels with
          | 0 => none
          | levels + 1 =>
              match skipSpace rest with
              | '}' :: rest => some (.table .inline [], rest)
              | _ =>
                  (pairs? steps levels [] rest).map fun found => (.table .inline found.1, found.2)
      | _ =>
          match string? cs with
          | some (text, rest) => some (.string (String.ofList text), rest)
          | none => number? cs

/-- Items up to the closing bracket, with lines skipped around each. -/
def items? : Nat → Nat → List Char → Option (List Node × List Char)
  | 0, _, _ => none
  | steps + 1, levels, cs => do
      match ← skipLines? (cs.length + 1) cs with
      | ']' :: rest => return ([], rest)
      | cs =>
          let (node, cs) ← value? steps levels cs
          match ← skipLines? (cs.length + 1) cs with
          | ',' :: rest =>
              let (nodes, rest) ← items? steps levels rest
              return (node :: nodes, rest)
          | ']' :: rest => return ([node], rest)
          | _ => none

/-- Pairs up to the closing brace, added to the entries so far. -/
def pairs? : Nat → Nat → Entries → List Char → Option (Entries × List Char)
  | 0, _, _, _ => none
  | steps + 1, levels, entries, cs => do
      let (path, name, cs) ← key? cs
      let cs ← mark? '=' cs
      let (node, cs) ← value? steps levels (skipSpace cs)
      let entries ← Entries.insertAt name node path entries
      match skipSpace cs with
      | ',' :: rest => pairs? steps levels entries rest
      | '}' :: rest => return (entries, rest)
      | _ => none

end

/-! ## Lines -/

inductive Line
  | blank
  | pair (path : List String) (name : String) (node : Node)
  | header (path : List String) (name : String)
  | elementHeader (path : List String) (name : String)

def headerLine? (cs : List Char) : Option (Line × List Char) := do
  let (path, name, cs) ← key? cs
  let cs ← mark? ']' cs
  return (.header path name, ← lineEnd? cs)

def elementHeaderLine? (cs : List Char) : Option (Line × List Char) := do
  let (path, name, cs) ← key? cs
  let cs ← mark? ']' cs
  let cs ← mark? ']' cs
  return (.elementHeader path name, ← lineEnd? cs)

def pairLine? (cs : List Char) : Option (Line × List Char) := do
  let (path, name, cs) ← key? cs
  let cs ← mark? '=' cs
  let (node, cs) ← value? (2 * cs.length + 1) (nestingLimit - 1) (skipSpace cs)
  return (.pair path name node, ← lineEnd? cs)

def line? (cs : List Char) : Option (Line × List Char) :=
  match skipSpace cs with
  | [] => some (.blank, [])
  | '#' :: cs => (lineEnd? ('#' :: cs)).map fun rest => (.blank, rest)
  | '\n' :: cs => some (.blank, cs)
  | '\r' :: cs => (newline? ('\r' :: cs)).map fun rest => (.blank, rest)
  | '[' :: '[' :: cs => elementHeaderLine? cs
  | '[' :: cs => headerLine? cs
  | cs => pairLine? cs

/-! ## Documents -/

/-- The entries so far, and the path of the table that further pairs go to. -/
structure Draft where
  root : Entries
  current : List String

def Draft.add? (d : Draft) : Line → Option Draft
  | .blank => some d
  | .pair path name node => do
      return { d with root := ← Entries.descend (Entries.insertAt name node path) d.current d.root }
  | .header path name => do
      return ⟨← Entries.descend (Entries.openTable name) path d.root, path ++ [name]⟩
  | .elementHeader path name => do
      return ⟨← Entries.descend (Entries.openElement name) path d.root, path ++ [name]⟩

/-- Every line takes at least one character, so there are at most `steps` of them. -/
def lines? : Nat → Draft → List Char → Option Draft
  | 0, _, _ => none
  | _ + 1, d, [] => some d
  | steps + 1, d, cs => do
      let (line, rest) ← line? cs
      lines? steps (← d.add? line) rest

/-- A byte order mark at the start is skipped. -/
def dropMark : List Char → List Char
  | '\uFEFF' :: cs => cs
  | cs => cs

def parse? (text : String) : Option Entries :=
  let cs := dropMark text.toList
  (lines? (cs.length + 1) ⟨[], []⟩ cs).map Draft.root

end Toml
end GraphSql
