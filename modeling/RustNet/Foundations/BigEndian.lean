import Mathlib.Algebra.Order.Ring.Nat
import Mathlib.Tactic.Ring

/-!
# Big-endian numbers

Numbers written in a fixed count of bytes, the most significant first.

## Main results

* `BigEndian.value_bytes`, `BigEndian.bytes_value`: writing and reading are inverse to each other.
-/

namespace BigEndian

/-- The number that `bytes` stand for. -/
def value (bytes : List UInt8) : ℕ := bytes.foldl (fun n b => n * 256 + b.toNat) 0

/-- The last `n` bytes of a number. -/
def bytes : ℕ → ℕ → List UInt8
  | 0, _ => []
  | n + 1, v => UInt8.ofNat (v / 256 ^ n) :: bytes n v

theorem foldl_eq (n : ℕ) (bs : List UInt8) :
    bs.foldl (fun n b => n * 256 + b.toNat) n = n * 256 ^ bs.length + value bs := by
  induction bs generalizing n with
  | nil => simp [value]
  | cons b bs ih =>
    have hvalue : value (b :: bs) = bs.foldl (fun n b => n * 256 + b.toNat) (0 * 256 + b.toNat) := rfl
    rw [List.foldl_cons, hvalue, ih, ih, List.length_cons, pow_succ']
    ring

@[simp]
theorem value_nil : value [] = 0 := rfl

theorem value_cons (b : UInt8) (bs : List UInt8) :
    value (b :: bs) = b.toNat * 256 ^ bs.length + value bs := by
  rw [value, List.foldl_cons, foldl_eq, Nat.zero_mul, Nat.zero_add]

@[simp]
theorem length_bytes (n v : ℕ) : (bytes n v).length = n := by
  induction n with
  | zero => rfl
  | succ n ih => rw [bytes, List.length_cons, ih]

/-- Reading what was written gives the number back, as far as the bytes reach. -/
theorem value_bytes (n v : ℕ) : value (bytes n v) = v % 256 ^ n := by
  induction n with
  | zero => rw [bytes, value_nil, pow_zero, Nat.mod_one]
  | succ n ih =>
    have hsplit : v % 256 ^ (n + 1) = v % 256 ^ n + 256 ^ n * (v / 256 ^ n % 2 ^ 8) := by
      rw [pow_succ, Nat.mod_mul]
      rfl
    rw [bytes, value_cons, length_bytes, ih, UInt8.toNat_ofNat', hsplit]
    ring

theorem value_lt (bs : List UInt8) : value bs < 256 ^ bs.length := by
  induction bs with
  | nil => simp
  | cons b bs ih =>
    have hb : b.toNat + 1 ≤ 256 := b.toNat_lt
    calc value (b :: bs)
        = b.toNat * 256 ^ bs.length + value bs := value_cons b bs
      _ < b.toNat * 256 ^ bs.length + 256 ^ bs.length := Nat.add_lt_add_left ih _
      _ = (b.toNat + 1) * 256 ^ bs.length := (Nat.succ_mul _ _).symm
      _ ≤ 256 * 256 ^ bs.length := Nat.mul_le_mul_right _ hb
      _ = 256 ^ (b :: bs).length := (pow_succ' 256 bs.length).symm

/-- More significant parts of a number do not show in its last bytes. -/
theorem bytes_add_mul (n m v : ℕ) : bytes n (m * 256 ^ n + v) = bytes n v := by
  induction n generalizing m with
  | zero => rfl
  | succ n ih =>
    have hsplit : m * 256 ^ (n + 1) + v = m * 256 * 256 ^ n + v := by ring
    have hhead : UInt8.ofNat ((m * 256 * 256 ^ n + v) / 256 ^ n) = UInt8.ofNat (v / 256 ^ n) := by
      apply UInt8.toNat_inj.mp
      rw [UInt8.toNat_ofNat', UInt8.toNat_ofNat', Nat.add_comm,
        Nat.add_mul_div_right _ _ (Nat.pow_pos (by decide)), Nat.add_mul_mod_self_right]
    rw [bytes, bytes, hsplit, ih, hhead]

/-- Writing the number that bytes stand for gives the bytes back. -/
theorem bytes_value (bs : List UInt8) : bytes bs.length (value bs) = bs := by
  induction bs with
  | nil => rfl
  | cons b bs ih =>
    have hhead : (b.toNat * 256 ^ bs.length + value bs) / 256 ^ bs.length = b.toNat := by
      rw [Nat.add_comm, Nat.add_mul_div_right _ _ (Nat.pow_pos (by decide)),
        Nat.div_eq_of_lt (value_lt bs), Nat.zero_add]
    rw [List.length_cons, bytes, value_cons, hhead, bytes_add_mul, ih, UInt8.ofNat_toNat]

end BigEndian
