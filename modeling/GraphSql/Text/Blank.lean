/-!
# Blank — white space, trimming and the spacing of a statement

A character is blank when Unicode gives it the property `White_Space`; the table below is that
property, not the six characters of ASCII.  On top of it stand:

* `trim` — blanks dropped from both ends;
* `dropBlank`, `dropLastBlank` — at most one blank dropped from the front, or from the back;
* `collapse` — a run of spaces (`U+0020` only) shortened to its last space;
* `normalise` — the spacing of a finished statement: trimmed, then collapsed.
-/

namespace GraphSql
namespace Text

/-! ## The property -/

/-- First and last code point of each range of blank characters. -/
def blankRanges : List (Nat × Nat) :=
  [(0x09, 0x0D), (0x20, 0x20), (0x85, 0x85), (0xA0, 0xA0), (0x1680, 0x1680),
    (0x2000, 0x200A), (0x2028, 0x2029), (0x202F, 0x202F), (0x205F, 0x205F), (0x3000, 0x3000)]

def isBlank (c : Char) : Bool :=
  blankRanges.any fun range => range.1 ≤ c.toNat && c.toNat ≤ range.2

/-! ## Trimming -/

def trimStart (cs : List Char) : List Char :=
  cs.dropWhile isBlank

def trimEnd (cs : List Char) : List Char :=
  (trimStart cs.reverse).reverse

def trim (cs : List Char) : List Char :=
  trimEnd (trimStart cs)

def dropBlank : List Char → List Char
  | [] => []
  | c :: cs => if isBlank c then cs else c :: cs

def dropLastBlank (cs : List Char) : List Char :=
  (dropBlank cs.reverse).reverse

/-! ## Spacing -/

/-- Every space that another space follows is dropped. -/
def collapse : List Char → List Char
  | [] => []
  | c :: cs => if c = ' ' ∧ cs.head? = some ' ' then collapse cs else c :: collapse cs

def normalise (cs : List Char) : List Char :=
  collapse (trim cs)

end Text
end GraphSql
