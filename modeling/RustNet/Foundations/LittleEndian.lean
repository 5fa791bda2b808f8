import RustNet.Foundations.BigEndian

/-!
# Little-endian numbers

Numbers written in a fixed count of bytes, the least significant first.

## Main results

* `LittleEndian.value_bytes`, `LittleEndian.bytes_value`: writing and reading are inverse to each
  other;
* `LittleEndian.value_eq_bigEndian_iff`: the two byte orders agree on the palindromes.
-/

namespace BigEndian

/-- As many bytes stand for different numbers when they differ. -/
theorem value_inj {bs cs : List UInt8} (hlength : bs.length = cs.length) :
    value bs = value cs ↔ bs = cs := by
  constructor
  · intro h
    rw [← bytes_value bs, ← bytes_value cs, h, hlength]
  · exact congrArg value

end BigEndian

namespace LittleEndian

/-- The number that `bytes` stand for. -/
def value (bytes : List UInt8) : ℕ := BigEndian.value bytes.reverse

/-- The last `n` bytes of a number. -/
def bytes (n v : ℕ) : List UInt8 := (BigEndian.bytes n v).reverse

@[simp]
theorem length_bytes (n v : ℕ) : (bytes n v).length = n := by
  simp [bytes]

/-- Reading what was written gives the number back, as far as the bytes reach. -/
theorem value_bytes (n v : ℕ) : value (bytes n v) = v % 256 ^ n := by
  rw [value, bytes, List.reverse_reverse, BigEndian.value_bytes]

theorem value_lt (bs : List UInt8) : value bs < 256 ^ bs.length := by
  have h := BigEndian.value_lt bs.reverse
  rw [List.length_reverse] at h
  exact h

/-- Writing the number that bytes stand for gives the bytes back. -/
theorem bytes_value (bs : List UInt8) : bytes bs.length (value bs) = bs := by
  have h := BigEndian.bytes_value bs.reverse
  rw [List.length_reverse] at h
  rw [bytes, value, h, List.reverse_reverse]

theorem value_inj {bs cs : List UInt8} (hlength : bs.length = cs.length) :
    value bs = value cs ↔ bs = cs := by
  rw [value, value, BigEndian.value_inj (by simpa using hlength), List.reverse_inj]

/-- Bytes read the same in both orders exactly when they are a palindrome. -/
theorem value_eq_bigEndian_iff (bs : List UInt8) :
    value bs = BigEndian.value bs ↔ bs.reverse = bs := by
  rw [value, BigEndian.value_inj (by simp)]

end LittleEndian
