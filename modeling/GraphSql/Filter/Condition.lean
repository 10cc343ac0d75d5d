import GraphSql.Text.Offset
import GraphSql.Text.Quoted

/-!
# Condition — the text of a filter condition

A condition is text that may hold a value marker, the character `?`.  Inside a quoted literal a
question mark is text.

* `Piece`, `pieces` — the condition cut from left to right: markers, quoted literals, runs of other
  text, and quotes that never close;
* `markers` — where the markers are, in bytes from the start;
* `splice` — the condition with a text in place of its first marker.
-/

namespace GraphSql
namespace Condition

/-! ## Pieces -/

inductive Piece
  | marker
  /-- A literal with its quotes; the body is kept as written. -/
  | quoted (quote : Char) (body : List Char)
  | plain (text : List Char)
  /-- A quote that no later quote closes. -/
  | openQuote (quote : Char)
  deriving DecidableEq, Repr

def Piece.chars : Piece → List Char
  | .marker => ['?']
  | .quoted q body => q :: (body ++ [q])
  | .plain text => text
  | .openQuote q => [q]

def isQuote (c : Char) : Bool :=
  c = '\'' || c = '"'

def isPlain (c : Char) : Bool :=
  c ≠ '?' && !isQuote c

def pieces : List Char → List Piece
  | [] => []
  | c :: cs =>
      if c = '?' then .marker :: pieces cs
      else if isQuote c then
        -- A quote that never closes stands alone, and the text after it is cut anew.
        match _h : Text.body? c cs with
        | some (body, rest) => .quoted c body :: pieces rest
        | none => .openQuote c :: pieces cs
      else
        .plain (c :: cs.takeWhile isPlain) :: pieces (cs.dropWhile isPlain)
  termination_by cs => cs.length
  decreasing_by
    · simp
    · have := Text.length_lt_of_body? _h
      simp only [List.length_cons]
      omega
    · simp
    · have := (List.dropWhile_sublist isPlain (l := cs)).length_le
      simp only [List.length_cons]
      omega

/-! ## Markers -/

/-- The places of the markers when the first piece starts at `offset`. -/
def markersFrom (offset : Nat) : List Piece → List Nat
  | [] => []
  | p :: ps =>
      let rest := markersFrom (offset + Text.byteLength p.chars) ps
      if p = .marker then offset :: rest else rest

def markers (condition : String) : List Nat :=
  markersFrom 0 (pieces condition.toList)

/-- A condition without a marker is left alone. -/
def splice (condition text : String) : String :=
  match markers condition with
  | [] => condition
  | place :: _ =>
      -- The place is in bytes, and the character there is the marker.
      match Text.cutAt place condition.toList with
      | some (before, _ :: after) => String.ofList (before ++ text.toList ++ after)
      | _ => condition

end Condition
end GraphSql
