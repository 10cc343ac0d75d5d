/-!
# Width — integers that have to fit a fixed width

`int32?`, `int64?` and `uint64?` take an integer into a fixed width when it is in the range, and
never wrap.  Each is one half of a round trip with `toInt` or `toNat`.
-/

namespace GraphSql
namespace Width

def int32? (n : Int) : Option Int32 :=
  if -2147483648 ≤ n ∧ n ≤ 2147483647 then some (Int32.ofInt n) else none

def int64? (n : Int) : Option Int64 :=
  if -9223372036854775808 ≤ n ∧ n ≤ 9223372036854775807 then some (Int64.ofInt n) else none

def uint64? (n : Int) : Option UInt64 :=
  if 0 ≤ n ∧ n ≤ 18446744073709551615 then some (UInt64.ofNat n.toNat) else none

/-! ## Round trips -/

theorem int32?_toInt (n : Int32) : int32? n.toInt = some n := by
  have low := n.le_toInt
  have high := n.toInt_lt
  have range : -2147483648 ≤ n.toInt ∧ n.toInt ≤ 2147483647 := by omega
  rw [int32?, if_pos range, Int32.ofInt_toInt]

theorem int64?_toInt (n : Int64) : int64? n.toInt = some n := by
  have low := n.le_toInt
  have high := n.toInt_lt
  have range : -9223372036854775808 ≤ n.toInt ∧ n.toInt ≤ 9223372036854775807 := by omega
  rw [int64?, if_pos range, Int64.ofInt_toInt]

theorem uint64?_toNat (n : UInt64) : uint64? n.toNat = some n := by
  have high := n.toNat_lt
  have range : (0 : Int) ≤ n.toNat ∧ (n.toNat : Int) ≤ 18446744073709551615 := by omega
  rw [uint64?, if_pos range, Int.toNat_natCast, UInt64.ofNat_toNat]

theorem toInt_of_int32? {i : Int} {n : Int32} (h : int32? i = some n) : n.toInt = i := by
  unfold int32? at h
  split at h
  · rename_i range
    cases h
    exact Int32.toInt_ofInt_of_le (by omega) (by omega)
  · cases h

theorem toInt_of_int64? {i : Int} {n : Int64} (h : int64? i = some n) : n.toInt = i := by
  unfold int64? at h
  split at h
  · rename_i range
    cases h
    exact Int64.toInt_ofInt_of_le (by omega) (by omega)
  · cases h

theorem toNat_of_uint64? {i : Int} {n : UInt64} (h : uint64? i = some n) : (n.toNat : Int) = i := by
  unfold uint64? at h
  split at h
  · rename_i range
    cases h
    rw [UInt64.toNat_ofNat_of_lt' (by simp only [UInt64.size]; omega)]
    omega
  · cases h

end Width
end GraphSql
