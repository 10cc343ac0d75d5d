/-!
# Hex — hexadecimal digits

Digits above nine are written as small letters and read as small or capital letters.
-/

namespace GraphSql
namespace Text

def hexDigit (n : Nat) : Char :=
  Nat.digitChar n

def hexValue? (c : Char) : Option Nat :=
  if '0' ≤ c ∧ c ≤ '9' then some (c.toNat - '0'.toNat)
  else if 'a' ≤ c ∧ c ≤ 'f' then some (c.toNat - 'a'.toNat + 10)
  else if 'A' ≤ c ∧ c ≤ 'F' then some (c.toNat - 'A'.toNat + 10)
  else none

theorem hexValue?_hexDigit (n : Nat) (h : n < 16) : hexValue? (hexDigit n) = some n := by
  revert n
  decide

end Text
end GraphSql
