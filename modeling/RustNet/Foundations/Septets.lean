import Mathlib.Algebra.Order.Ring.Nat
import Mathlib.Data.FinEnum

/-!
# Numbers in groups of seven bits

A number as bytes that hold seven bits each, the least significant first, where every byte but the
last has its high bit set.

## Main results

* `Septets.encode_of_le`: the first byte of a number and the rest;
* `Septets.low_toNat`, `Septets.continues_iff`: the two parts of a byte as arithmetic.
-/

namespace Septets

/-- The bytes of a number. -/
def encode (n : ℕ) : List UInt8 :=
  if n < 128 then [UInt8.ofNat n] else UInt8.ofNat (n % 128 + 128) :: encode (n / 128)
termination_by n
decreasing_by exact Nat.div_lt_self (by omega) (by decide)

theorem encode_of_lt {n : ℕ} (h : n < 128) : encode n = [UInt8.ofNat n] := by
  rw [encode, if_pos h]

theorem encode_of_le {n : ℕ} (h : 128 ≤ n) :
    encode n = UInt8.ofNat (n % 128 + 128) :: encode (n / 128) := by
  rw [encode, if_neg (Nat.not_lt.mpr h)]

theorem encode_ne_nil (n : ℕ) : encode n ≠ [] := by
  rw [encode]
  split_ifs <;> exact List.cons_ne_nil _ _

/-! ## Bytes -/

theorem low_toNat (b : UInt8) : (b &&& 0x7F).toNat = b.toNat % 128 := by
  rw [UInt8.toNat_and]
  exact Nat.and_two_pow_sub_one_eq_mod b.toNat 7

/-- The high bit says that the number goes on. -/
theorem continues_iff (b : UInt8) : b &&& 0x80 = 0 ↔ b.toNat < 128 := by
  revert b
  decide +kernel

end Septets
