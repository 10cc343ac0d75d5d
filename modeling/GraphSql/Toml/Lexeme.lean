import GraphSql.Text.Hex

/-!
# Lexeme — white space, comments and strings of TOML

Every reader takes the characters in front of it and answers with what it read and what is left, or
with `none`.

* `skipSpace`, `newline?`, `comment?`, `skipLines?`, `lineEnd?` — what stands between the parts;
* `string?` — the four forms of strings;
* `key?` — a dotted key with its parts.
-/

namespace GraphSql
namespace Toml

/-! ## Between the parts -/

def isSpace (c : Char) : Bool :=
  c = ' ' || c = '\t'

def skipSpace (cs : List Char) : List Char :=
  cs.dropWhile isSpace

/-- Tabs and everything from the space on, except the delete character. -/
def isText (c : Char) : Bool :=
  c = '\t' || (0x20 ≤ c.toNat && c.toNat ≠ 0x7F)

def newline? : List Char → Option (List Char)
  | '\n' :: cs => some cs
  | '\r' :: '\n' :: cs => some cs
  | _ => none

/-- The rest of the line after a number sign, up to the newline. -/
def comment? : List Char → Option (List Char)
  | '#' :: cs => some (cs.dropWhile isText)
  | _ => none

def skipComment (cs : List Char) : List Char :=
  (comment? cs).getD cs

/-- A line ends with blanks, a comment perhaps, and a newline or the end of the text. -/
def lineEnd? (cs : List Char) : Option (List Char) :=
  match skipComment (skipSpace cs) with
  | [] => some []
  | cs => newline? cs

/-- Blanks, comments and newlines; a comment has to end with a newline.  There are at most `steps`
lines to skip. -/
def skipLines? : Nat → List Char → Option (List Char)
  | 0, _ => none
  | steps + 1, cs =>
      match skipSpace cs with
      | '#' :: cs => do skipLines? steps (← newline? (cs.dropWhile isText))
      | '\n' :: cs => skipLines? steps cs
      | '\r' :: cs => do skipLines? steps (← newline? ('\r' :: cs))
      | cs => some cs

/-! ## Escapes -/

def hexNumber? (ds : List Char) : Option Nat :=
  ds.foldlM (fun n d => (Text.hexValue? d).map (16 * n + ·)) 0

/-- The character of a code point in hexadecimal; surrogates are no characters. -/
def codePoint? (ds : List Char) : Option Char := do
  let n ← hexNumber? ds
  if n.isValidChar then some (Char.ofNat n) else none

/-- The character after a backslash, and the code point after it for the two long forms. -/
def escape? : List Char → Option (Char × List Char)
  | 'b' :: cs => some ('\x08', cs)
  | 't' :: cs => some ('\t', cs)
  | 'n' :: cs => some ('\n', cs)
  | 'f' :: cs => some ('\x0c', cs)
  | 'r' :: cs => some ('\r', cs)
  | '"' :: cs => some ('"', cs)
  | '\\' :: cs => some ('\\', cs)
  | 'u' :: a :: b :: c :: d :: cs => (codePoint? [a, b, c, d]).map fun x => (x, cs)
  | 'U' :: a :: b :: c :: d :: e :: f :: g :: h :: cs =>
      (codePoint? [a, b, c, d, e, f, g, h]).map fun x => (x, cs)
  | _ => none

/-! ## Strings of one line -/

/-- The text up to the closing quote; `steps` bounds the number of characters. -/
def basic? : Nat → List Char → Option (List Char × List Char)
  | 0, _ => none
  | _ + 1, [] => none
  | _ + 1, '"' :: cs => some ([], cs)
  | steps + 1, '\\' :: cs => do
      let (c, cs) ← escape? cs
      let (text, rest) ← basic? steps cs
      return (c :: text, rest)
  | steps + 1, c :: cs =>
      if isText c then do
        let (text, rest) ← basic? steps cs
        return (c :: text, rest)
      else none

def literal? (cs : List Char) : Option (List Char × List Char) :=
  let text := cs.takeWhile fun c => isText c && c ≠ '\''
  match cs.drop text.length with
  | '\'' :: rest => some (text, rest)
  | _ => none

/-! ## Strings of several lines -/

def skipBlankLines : List Char → List Char
  | '\r' :: '\n' :: cs => skipBlankLines cs
  | c :: cs => if isSpace c || c = '\n' then skipBlankLines cs else c :: cs
  | [] => []

/-- A backslash at the end of a line takes the blanks and newlines after it along. -/
def lineJoin? (cs : List Char) : Option (List Char) :=
  (newline? (skipSpace cs)).map skipBlankLines

/-- A run of quotes of which the last three close the string; two more may stand before them. -/
def closing? (quote : Char) (cs : List Char) : Option (List Char × List Char) :=
  let run := (cs.takeWhile (· = quote)).length
  if 3 ≤ run then
    let inside := min (run - 3) 2
    some (List.replicate inside quote, cs.drop (inside + 3))
  else none

def multiline? (quote : Char) (escapes : Bool) : Nat → List Char → Option (List Char × List Char)
  | 0, _ => none
  | _ + 1, [] => none
  | steps + 1, c :: cs =>
      if c = quote then
        -- One or two quotes are text.
        match closing? quote (c :: cs) with
        | some found => some found
        | none => (multiline? quote escapes steps cs).map fun found => (c :: found.1, found.2)
      else if c = '\\' && escapes then
        -- A backslash at the end of a line is not the start of an escape.
        match lineJoin? cs with
        | some rest => multiline? quote escapes steps rest
        | none => do
            let (x, rest) ← escape? cs
            let (text, rest) ← multiline? quote escapes steps rest
            return (x :: text, rest)
      else
        match newline? (c :: cs) with
        | some rest =>
            (multiline? quote escapes steps rest).map fun found => ('\n' :: found.1, found.2)
        | none =>
            if isText c then
              (multiline? quote escapes steps cs).map fun found => (c :: found.1, found.2)
            else none

/-- A newline directly after the opening quotes does not count. -/
def opened (cs : List Char) : List Char :=
  (newline? cs).getD cs

/-! ## Strings and keys -/

def shortString? : List Char → Option (List Char × List Char)
  | '"' :: cs => basic? (cs.length + 1) cs
  | '\'' :: cs => literal? cs
  | _ => none

def string? : List Char → Option (List Char × List Char)
  | '"' :: '"' :: '"' :: cs => multiline? '"' true (cs.length + 1) (opened cs)
  | '\'' :: '\'' :: '\'' :: cs => multiline? '\'' false (cs.length + 1) (opened cs)
  | cs => shortString? cs

def isBare (c : Char) : Bool :=
  c.isAlphanum || c = '-' || c = '_'

def simpleKey? (cs : List Char) : Option (String × List Char) :=
  match shortString? cs with
  | some (text, rest) => some (String.ofList text, rest)
  | none =>
      match cs.takeWhile isBare with
      | [] => none
      | name => some (String.ofList name, cs.dropWhile isBare)

/-- A key has fewer parts than this. -/
def nestingLimit : Nat := 80

/-- Parts between points, with blanks around each. -/
def keyParts? : Nat → List Char → Option (List String × List Char)
  | 0, _ => none
  | steps + 1, cs => do
      let (part, cs) ← simpleKey? (skipSpace cs)
      match skipSpace cs with
      | '.' :: cs =>
          let (parts, cs) ← keyParts? steps cs
          return (part :: parts, cs)
      | cs => return ([part], cs)

/-- The path to the table, the name in that table, and the rest. -/
def key? (cs : List Char) : Option (List String × String × List Char) := do
  let (parts, cs) ← keyParts? (nestingLimit - 1) cs
  let name ← parts.getLast?
  return (parts.dropLast, name, cs)

end Toml
end GraphSql
