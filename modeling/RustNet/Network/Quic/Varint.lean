import RustNet.Foundations.BigEndian
import RustNet.Foundations.Checked

/-!
# Variable-length integers

`parse_variable_length_int`, which all QUIC offset arithmetic rests on, against the encoding of
QUIC: two bits that announce the width and the value behind them, in one, two, four or eight bytes.
Values are below `2 ^ 62`, so they are natural numbers here.

## Main results

* `Quic.parseVariableLengthInt_encode`: every encoding of a value is read as the value;
* `Quic.Varint.exists_encode`: bytes of the announced width are an encoding;
* `Quic.parseVariableLengthInt_ensures`: no byte string makes the parser fail;
* `Quic.parseVariableLengthInt_of_fits`: a value comes back from each width that holds it, and what
  is read is in range.
-/

namespace RustNet.Quic

open Checked

/-- The match on `first_byte >> 6`; the source has a fifth arm that is never taken. -/
def varintLen (firstByte : UInt8) : ℕ :=
  match firstByte >>> 6 with
  | 0 => 1
  | 1 => 2
  | 2 => 4
  | _ => 8

/-- `parse_variable_length_int`: the value and the length of its encoding. -/
def parseVariableLengthInt (data : List UInt8) : Checked (Option (ℕ × ℕ)) := do
  if data.isEmpty then return none
  let firstByte ← index data 0
  let len := varintLen firstByte
  if data.length < len then return none
  let tail ← indices data 1 (len - 1)
  return some (BigEndian.value ((firstByte &&& 0x3f) :: tail), len)

/-! ## The encoding -/

/-- The widths of an encoding. -/
inductive VarintWidth
  | one | two | four | eight
deriving DecidableEq

namespace VarintWidth

/-- The bytes behind the first one. -/
def tail : VarintWidth → ℕ
  | one => 0
  | two => 1
  | four => 3
  | eight => 7

/-- The two bits that announce the width. -/
def bits : VarintWidth → ℕ
  | one => 0
  | two => 1
  | four => 2
  | eight => 3

end VarintWidth

/-- A value with the width it is encoded in, which need not be the smallest one. -/
structure Varint where
  value : ℕ
  width : VarintWidth
  value_lt : value < 64 * 256 ^ width.tail

namespace Varint

/-- The first byte of the encoding. -/
def firstByte (v : Varint) : UInt8 :=
  UInt8.ofNat (v.width.bits * 64 + v.value / 256 ^ v.width.tail)

/-- The bytes of the encoding. -/
def encode (v : Varint) : List UInt8 := v.firstByte :: BigEndian.bytes v.width.tail v.value

/-- Zero in one byte, which is how a frame without a token or a reason writes their lengths. -/
def zero : Varint where
  value := 0
  width := .one
  value_lt := by decide

@[simp]
theorem length_encode (v : Varint) : v.encode.length = v.width.tail + 1 := by
  rw [encode, List.length_cons, BigEndian.length_bytes]

theorem encode_ne_nil (v : Varint) : v.encode ≠ [] := List.cons_ne_nil _ _

theorem value_lt_two_pow (v : Varint) : v.value < 2 ^ 62 := by
  obtain ⟨value, width, h⟩ := v
  rcases width <;> exact h.trans_le (by decide)

theorem high_lt (v : Varint) : v.value / 256 ^ v.width.tail < 64 :=
  Nat.div_lt_of_lt_mul (v.value_lt.trans_eq (Nat.mul_comm _ _))

theorem firstByte_toNat (v : Varint) :
    v.firstByte.toNat = v.width.bits * 64 + v.value / 256 ^ v.width.tail := by
  have hhigh := v.high_lt
  have hbits : v.width.bits ≤ 3 := by rcases v.width <;> decide
  rw [firstByte, UInt8.toNat_ofNat']
  exact Nat.mod_eq_of_lt (by omega)

end Varint

theorem toNat_and_low (b : UInt8) : (b &&& 0x3f).toNat = b.toNat % 64 := by
  rw [UInt8.toNat_and]
  exact Nat.and_two_pow_sub_one_eq_mod b.toNat 6

theorem toNat_shiftRight_high (b : UInt8) : (b >>> 6).toNat = b.toNat / 64 := by
  rw [UInt8.toNat_shiftRight]
  exact Nat.shiftRight_eq_div_pow b.toNat 6

/-- The width that the first byte announces. -/
theorem varintLen_of_toNat {b : UInt8} {width : VarintWidth} (h : b.toNat / 64 = width.bits) :
    varintLen b = width.tail + 1 := by
  rw [← toNat_shiftRight_high] at h
  have hb : b >>> 6 = UInt8.ofNat width.bits := by
    rw [← h, UInt8.ofNat_toNat]
  rw [varintLen, hb]
  rcases width <;> rfl

theorem exists_width (b : UInt8) : ∃ width : VarintWidth, b.toNat / 64 = width.bits := by
  have hlt : b.toNat / 64 < 4 := Nat.div_lt_of_lt_mul b.toNat_lt
  have hcases : b.toNat / 64 = 0 ∨ b.toNat / 64 = 1 ∨ b.toNat / 64 = 2 ∨ b.toNat / 64 = 3 := by
    omega
  obtain h | h | h | h := hcases
  · exact ⟨.one, h⟩
  · exact ⟨.two, h⟩
  · exact ⟨.four, h⟩
  · exact ⟨.eight, h⟩

/-- The parser on data that announces `width` and has that many bytes. -/
theorem parseVariableLengthInt_cons {b : UInt8} {width : VarintWidth} {tail rest : List UInt8}
    (hwidth : b.toNat / 64 = width.bits) (htail : tail.length = width.tail) :
    parseVariableLengthInt (b :: (tail ++ rest)) =
      pure (some (b.toNat % 64 * 256 ^ width.tail + BigEndian.value tail, width.tail + 1)) := by
  have hat : At (b :: (tail ++ rest)) 1 (tail ++ rest) := (At.start _).next
  have hindices : indices (b :: (tail ++ rest)) 1 (width.tail + 1 - 1) = pure tail := by
    rw [Nat.add_sub_cancel, ← htail]
    exact hat.indices
  have hlen : ¬ (b :: (tail ++ rest)).length < width.tail + 1 := by
    rw [List.length_cons, List.length_append]
    omega
  rw [parseVariableLengthInt, if_neg (by simp), (At.start _).index, pure_bind',
    varintLen_of_toNat hwidth]
  dsimp only
  rw [if_neg hlen, hindices, pure_bind', BigEndian.value_cons, toNat_and_low, htail]

/-- Every encoding of a value is read as the value, whatever follows it. -/
theorem parseVariableLengthInt_encode (v : Varint) (rest : List UInt8) :
    parseVariableLengthInt (v.encode ++ rest) = pure (some (v.value, v.encode.length)) := by
  have hwidth : v.firstByte.toNat / 64 = v.width.bits := by
    rw [v.firstByte_toNat, Nat.add_comm, Nat.add_mul_div_right _ _ (by decide),
      Nat.div_eq_of_lt v.high_lt, Nat.zero_add]
  have hlow : v.firstByte.toNat % 64 = v.value / 256 ^ v.width.tail := by
    rw [v.firstByte_toNat, Nat.add_comm, Nat.add_mul_mod_self_right, Nat.mod_eq_of_lt v.high_lt]
  rw [Varint.encode, List.cons_append,
    parseVariableLengthInt_cons hwidth (BigEndian.length_bytes _ _), hlow, BigEndian.value_bytes,
    Nat.div_add_mod', List.length_cons, BigEndian.length_bytes]

/-- Too few bytes for the width that the first one announces. -/
theorem parseVariableLengthInt_short {b : UInt8} {width : VarintWidth} {tail : List UInt8}
    (hwidth : b.toNat / 64 = width.bits) (htail : tail.length < width.tail) :
    parseVariableLengthInt (b :: tail) = pure none := by
  have hlen : (b :: tail).length < width.tail + 1 := by
    rw [List.length_cons]
    omega
  rw [parseVariableLengthInt, if_neg (by simp), (At.start _).index, pure_bind',
    varintLen_of_toNat hwidth]
  exact if_pos hlen

/-- The bytes are the encoding of what they are read as. -/
theorem Varint.exists_encode {b : UInt8} {width : VarintWidth} {bytes : List UInt8}
    (hwidth : b.toNat / 64 = width.bits) (hbytes : bytes.length = width.tail) :
    ∃ w : Varint, w.width = width ∧
      w.value = b.toNat % 64 * 256 ^ width.tail + BigEndian.value bytes ∧
        w.encode = b :: bytes := by
  have hlt := BigEndian.value_lt bytes
  rw [hbytes] at hlt
  have hvalue : b.toNat % 64 * 256 ^ width.tail + BigEndian.value bytes <
      64 * 256 ^ width.tail := by
    have hle : b.toNat % 64 + 1 ≤ 64 := Nat.mod_lt _ (by decide)
    calc b.toNat % 64 * 256 ^ width.tail + BigEndian.value bytes
        < b.toNat % 64 * 256 ^ width.tail + 256 ^ width.tail := Nat.add_lt_add_left hlt _
      _ = (b.toNat % 64 + 1) * 256 ^ width.tail := (Nat.succ_mul _ _).symm
      _ ≤ 64 * 256 ^ width.tail := Nat.mul_le_mul_right _ hle
  let w : Varint := ⟨_, width, hvalue⟩
  have hhigh : (b.toNat % 64 * 256 ^ width.tail + BigEndian.value bytes) / 256 ^ width.tail =
      b.toNat % 64 := by
    rw [Nat.add_comm, Nat.add_mul_div_right _ _ (Nat.pow_pos (by decide)), Nat.div_eq_of_lt hlt,
      Nat.zero_add]
  -- the first byte has the width in its high bits and the top of the value in the others
  have hfirst : w.firstByte = b := by
    apply UInt8.toNat_inj.mp
    rw [w.firstByte_toNat]
    show width.bits * 64 + _ / _ = _
    rw [hhigh, ← hwidth, Nat.div_add_mod']
  refine ⟨w, rfl, rfl, ?_⟩
  rw [Varint.encode, hfirst]
  show b :: BigEndian.bytes width.tail _ = _
  rw [BigEndian.bytes_add_mul, ← hbytes, BigEndian.bytes_value]

/-- The parser returns, and what it reads is the encoding at the front of the data. -/
theorem parseVariableLengthInt_ensures (data : List UInt8) :
    Ensures (parseVariableLengthInt data) fun r =>
      ∀ v n, r = some (v, n) →
        ∃ (w : Varint) (rest : List UInt8),
          data = w.encode ++ rest ∧ w.value = v ∧ w.encode.length = n := by
  rcases data with _ | ⟨b, tail⟩
  · exact ensures_pure fun _ _ h => nomatch h
  -- the first byte says how many bytes follow it
  obtain ⟨width, hwidth⟩ := exists_width b
  rcases Nat.lt_or_ge tail.length width.tail with hshort | hlong
  · rw [parseVariableLengthInt_short hwidth hshort]
    exact ensures_pure fun _ _ h => nomatch h
  obtain ⟨bytes, rest, rfl, hbytes⟩ : ∃ bytes rest, tail = bytes ++ rest ∧
      bytes.length = width.tail := by
    refine ⟨tail.take width.tail, tail.drop width.tail, (List.take_append_drop _ _).symm, ?_⟩
    exact List.length_take_of_le hlong
  obtain ⟨w, hwidth', hvalue, hencode⟩ := Varint.exists_encode hwidth hbytes
  rw [parseVariableLengthInt_cons hwidth hbytes]
  refine ensures_pure fun v n h => ?_
  obtain ⟨rfl, rfl⟩ := Prod.mk.inj (Option.some.inj h)
  refine ⟨w, rest, ?_, hvalue, ?_⟩
  · rw [hencode, List.cons_append]
  · rw [w.length_encode, hwidth']

/-- **A value comes back from every width that holds it, whatever follows, and no input gives a
value or a length out of range.** A width of one, two, four or eight bytes holds a value that leaves
its first two bits free (`hfits`); the shortest is not asked for. The second part is about all
inputs, also those that are cut off. -/
theorem parseVariableLengthInt_of_fits :
    (∀ (value : ℕ) (width : VarintWidth) (rest : List UInt8)
        (hfits : value < 64 * 256 ^ width.tail),
      parseVariableLengthInt ((⟨value, width, hfits⟩ : Varint).encode ++ rest) =
        pure (some (value, width.tail + 1))) ∧
      ∀ data : List UInt8, ∃ r, parseVariableLengthInt data = pure r ∧
        ∀ v n, r = some (v, n) → v < 2 ^ 62 ∧ n ≤ data.length := by
  constructor
  · intro value width rest hfits
    rw [parseVariableLengthInt_encode, Varint.length_encode]
  · intro data
    obtain ⟨r, hr, hread⟩ := parseVariableLengthInt_ensures data
    refine ⟨r, hr, fun v n h => ?_⟩
    -- what was read is an encoding, and it lies in the data
    obtain ⟨w, rest, rfl, rfl, rfl⟩ := hread v n h
    refine ⟨w.value_lt_two_pow, ?_⟩
    rw [List.length_append]
    exact Nat.le_add_right _ _

/-- One in two bytes, where one byte would do. -/
theorem parseVariableLengthInt_one_wide :
    1 < 64 * 256 ^ VarintWidth.two.tail ∧
      parseVariableLengthInt ((⟨1, .two, by decide⟩ : Varint).encode ++ [0xff]) =
        pure (some (1, 2)) :=
  ⟨by decide, parseVariableLengthInt_of_fits.1 1 .two [0xff] (by decide)⟩

end RustNet.Quic
