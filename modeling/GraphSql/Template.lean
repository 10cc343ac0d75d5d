import GraphSql.Text.Blank
import GraphSql.Text.Reader

/-!
# Template — schema text with placeholders

A schema is statement text in which a colon followed by a word character starts a placeholder
`:Name`; any other colon is text.  `Template.compile` cuts a schema into segments once, and
`Template.render` walks the segments without looking at the text again.

* `Segment` — literal text, or a placeholder with its slot, its number among the placeholders;
* `Piece.read?` — a placeholder with the longest possible name, or else the longest literal;
* `compile` — pieces read one after the other, with slots in order;
* `render` — the answer of a look-up stands for each placeholder.  A placeholder without an answer
  takes the blank that follows it along, or the blank before it when it ends the schema, so that
  optional parts leave no gap; the result is then normalised.
-/

namespace GraphSql

inductive Segment
  | literal (text : String)
  | placeholder (name : String) (slot : Nat)
  deriving DecidableEq, Repr

namespace Segment

def source : Segment → String
  | .literal text => text
  | .placeholder name _ => ":" ++ name

def name? : Segment → Option String
  | .literal _ => none
  | .placeholder name _ => some name

def slot? : Segment → Option Nat
  | .literal _ => none
  | .placeholder _ slot => some slot

end Segment

structure Template where
  source : String
  segments : List Segment
  deriving DecidableEq, Repr

namespace Template

/-! ## Pieces -/

def isWord (c : Char) : Bool :=
  c.isAlphanum || c = '_'

/-- A segment before it has a slot. -/
inductive Piece
  | literal (text : List Char)
  | placeholder (name : List Char)
  deriving DecidableEq, Repr

namespace Piece

def placeholder? : Text.Reader (List Char)
  | ':' :: cs => Text.Reader.run isWord cs
  | _ => none

/-- A colon that starts no placeholder. -/
def colon? : Text.Reader (List Char)
  | ':' :: cs => if cs.head?.any isWord then none else some ([':'], cs)
  | _ => none

def chunk? : Text.Reader (List Char) :=
  Text.Reader.either (Text.Reader.run fun c => c ≠ ':') colon?

/-- Text up to the next placeholder. -/
def literal? : Text.Reader (List Char) :=
  Text.Reader.map List.flatten (Text.Reader.many1 chunk?)

def read? : Text.Reader Piece :=
  Text.Reader.either (Text.Reader.map .placeholder placeholder?)
    (Text.Reader.map .literal literal?)

end Piece

/-! ## Compiling -/

/-- Text that no piece takes would be kept as a literal. -/
def pieces (cs : List Char) : List Piece :=
  match Text.Reader.many Piece.read? cs with
  | some (ps, []) => ps
  | some (ps, rest) => ps ++ [.literal rest]
  | none => [.literal cs]

/-- The segments of pieces whose first placeholder has the given slot. -/
def number (slot : Nat) : List Piece → List Segment
  | [] => []
  | .literal text :: ps => .literal (String.ofList text) :: number slot ps
  | .placeholder name :: ps => .placeholder (String.ofList name) slot :: number (slot + 1) ps

def compile (source : String) : Template where
  source := source
  segments := number 0 (pieces source.toList)

def placeholders (t : Template) : List String :=
  t.segments.filterMap Segment.name?

/-! ## Rendering -/

/-- `out` is the text so far, and `gap` tells that the segment before was a placeholder without
text. -/
def write {ε : Type} (lookup : Nat → String → Except ε (Option String)) (out : List Char)
    (gap : Bool) : List Segment → Except ε (List Char)
  | [] => .ok out
  | .literal text :: rest =>
      write lookup (out ++ if gap then Text.dropBlank text.toList else text.toList) false rest
  | .placeholder name slot :: rest => do
      match ← lookup slot name with
      | some text => write lookup (out ++ text.toList) false rest
      -- Nothing is written; the literal that follows gives up its blank, or else the text does.
      | none => if rest.isEmpty then .ok (Text.dropLastBlank out) else write lookup out true rest

def render {ε : Type} (t : Template) (lookup : Nat → String → Except ε (Option String)) :
    Except ε String := do
  return String.ofList (Text.normalise (← write lookup [] false t.segments))

end Template
end GraphSql
