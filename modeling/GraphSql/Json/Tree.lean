import GraphSql.Json.Escaped
import GraphSql.Json.Numeral

/-!
# Tree — a JSON text taken apart, but not yet read

A tree has the structure of a text and keeps numerals and strings as they are written.  Parts that
nobody asks for are therefore never read, and cannot be at fault.

* `Tree.chars` — the compact text;
* `Tree.clip` — what is nested beyond a limit becomes unreadable;
* `Tree.parse?` — the tree of a whole text.
-/

namespace GraphSql
namespace Json

inductive Tree
  | null
  | bool (b : Bool)
  | number (n : Numeral)
  /-- The text between the quotes, with its escapes. -/
  | string (written : List Char)
  | array (items : List Tree)
  | object (members : List (List Char × Tree))
  /-- Brackets beyond the nesting limit. -/
  | tooDeep

namespace Tree

/-! ## Writing -/

def quoted (written : List Char) : List Char :=
  '"' :: (written ++ ['"'])

mutual

def chars : Tree → List Char
  | .null => ['n', 'u', 'l', 'l']
  | .bool true => ['t', 'r', 'u', 'e']
  | .bool false => ['f', 'a', 'l', 's', 'e']
  | .number n => n.chars
  | .string written => quoted written
  | .array items => '[' :: (itemsChars items ++ [']'])
  | .object members => '{' :: (membersChars members ++ ['}'])
  -- Only reading makes one.
  | .tooDeep => []

def itemsChars : List Tree → List Char
  | [] => []
  | [t] => chars t
  | t :: ts => chars t ++ ',' :: itemsChars ts

def membersChars : List (List Char × Tree) → List Char
  | [] => []
  | [(key, t)] => quoted key ++ ':' :: chars t
  | (key, t) :: ms => quoted key ++ ':' :: (chars t ++ ',' :: membersChars ms)

end

def text (t : Tree) : String :=
  String.ofList t.chars

/-! ## Nesting -/

/-- The deepest nesting of brackets that can be read. -/
def nestingLimit : Nat := 127

mutual

/-- `levels` brackets may still be opened. -/
def clip (levels : Nat) : Tree → Tree
  | .array items =>
      match levels with
      | 0 => .tooDeep
      | n + 1 => .array (clipItems n items)
  | .object members =>
      match levels with
      | 0 => .tooDeep
      | n + 1 => .object (clipMembers n members)
  | t => t

def clipItems (levels : Nat) : List Tree → List Tree
  | [] => []
  | t :: ts => clip levels t :: clipItems levels ts

def clipMembers (levels : Nat) : List (List Char × Tree) → List (List Char × Tree)
  | [] => []
  | (key, t) :: ms => (key, clip levels t) :: clipMembers levels ms

end

/-! ## Reading -/

def isSpace (c : Char) : Bool :=
  c = ' ' || c = '\t' || c = '\n' || c = '\r'

def skip (cs : List Char) : List Char :=
  cs.dropWhile isSpace

mutual

/-- The tree at the front of a text.  No two steps in a row leave the text as it is, so `2 * n + 1`
steps are enough for a text of `n` characters. -/
def scan? : Nat → List Char → Option (Tree × List Char)
  | 0, _ => none
  | steps + 1, cs =>
      match skip cs with
      | 'n' :: 'u' :: 'l' :: 'l' :: rest => some (.null, rest)
      | 't' :: 'r' :: 'u' :: 'e' :: rest => some (.bool true, rest)
      | 'f' :: 'a' :: 'l' :: 's' :: 'e' :: rest => some (.bool false, rest)
      | '"' :: rest => (Escaped.scan? rest).map fun found => (.string found.1, found.2)
      | '[' :: rest =>
          match skip rest with
          | ']' :: rest => some (.array [], rest)
          | _ => (scanItems? steps rest).map fun found => (.array found.1, found.2)
      | '{' :: rest =>
          match skip rest with
          | '}' :: rest => some (.object [], rest)
          | _ => (scanMembers? steps rest).map fun found => (.object found.1, found.2)
      | cs => (Numeral.scan? cs).map fun found => (.number found.1, found.2)

/-- Items up to the closing bracket; there is at least one. -/
def scanItems? : Nat → List Char → Option (List Tree × List Char)
  | 0, _ => none
  | steps + 1, cs => do
      let (t, rest) ← scan? steps cs
      match skip rest with
      | ',' :: rest =>
          let (ts, rest) ← scanItems? steps rest
          return (t :: ts, rest)
      | ']' :: rest => return ([t], rest)
      | _ => none

def scanMembers? : Nat → List Char → Option (List (List Char × Tree) × List Char)
  | 0, _ => none
  | steps + 1, cs => do
      match skip cs with
      | '"' :: rest =>
          let (key, rest) ← Escaped.scan? rest
          match skip rest with
          | ':' :: rest =>
              let (t, rest) ← scan? steps rest
              match skip rest with
              | ',' :: rest =>
                  let (ms, rest) ← scanMembers? steps rest
                  return ((key, t) :: ms, rest)
              | '}' :: rest => return ([(key, t)], rest)
              | _ => none
          | _ => none
      | _ => none

end

def parse? (text : String) : Option Tree :=
  match scan? (2 * text.toList.length + 1) text.toList with
  | some (t, rest) => if (skip rest).isEmpty then some t else none
  | none => none

end Tree
end Json
end GraphSql
