/-!
# Offset — places in a text counted in bytes of UTF-8

A place in a text is the number of UTF-8 bytes before it.  `cutAt` cuts a text there and answers
`none` when the place is not between two characters, so a cut that always succeeds is something
that can be stated.
-/

namespace GraphSql
namespace Text

def byteLength : List Char → Nat
  | [] => 0
  | c :: cs => c.utf8Size + byteLength cs

def cutAt : Nat → List Char → Option (List Char × List Char)
  | 0, cs => some ([], cs)
  | _ + 1, [] => none
  | n + 1, c :: cs =>
      if c.utf8Size ≤ n + 1 then
        (cutAt (n + 1 - c.utf8Size) cs).map fun halves => (c :: halves.1, halves.2)
      else
        none

theorem byteLength_append (xs ys : List Char) :
    byteLength (xs ++ ys) = byteLength xs + byteLength ys := by
  induction xs with
  | nil => simp [byteLength]
  | cons x xs ih => simp [byteLength, ih, Nat.add_assoc]

/-- A cut at the length of the first part gives back the two parts. -/
theorem cutAt_byteLength (xs ys : List Char) :
    cutAt (byteLength xs) (xs ++ ys) = some (xs, ys) := by
  induction xs with
  | nil => cases ys <;> rfl
  | cons x xs ih =>
      obtain ⟨n, hn⟩ : ∃ n, x.utf8Size + byteLength xs = n + 1 :=
        ⟨x.utf8Size + byteLength xs - 1, by have := x.utf8Size_pos; omega⟩
      have hrest : n + 1 - x.utf8Size = byteLength xs := by omega
      have hle : x.utf8Size ≤ n + 1 := by omega
      simp [byteLength, hn, cutAt, hle, hrest, ih]

end Text
end GraphSql
