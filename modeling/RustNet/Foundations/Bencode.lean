import Mathlib.Algebra.Order.Ring.Int
import RustNet.Foundations.Text

/-!
# Bencoded values

Integers, strings of bytes, lists and dictionaries. A string is written behind its length in decimal
digits and a colon, the other values between a letter and an `e`; the entries of a dictionary are in
the order of their keys.

## Main definitions

* `Bencode.Value`, `Bencode.Value.encode`: values and their bytes;
* `Bencode.Value.Sorted`: the keys of every dictionary in a value are in order;
* `Bencode.keyOffset`: where a key of a dictionary is.

## Main results

* `Bencode.encode_dict`: a dictionary around one of its entries;
* `Bencode.toDigits_natBytes`: the digits of a length.
-/

namespace Bencode

/-- A bencoded value: a number, a string of bytes, a list, or a dictionary with its entries in
order. -/
inductive Value
  | int (n : ℤ)
  | bytes (s : List UInt8)
  | list (values : List Value)
  | dict (entries : List (List UInt8 × Value))

/-- The decimal digits of a number. -/
def natBytes (n : ℕ) : List UInt8 := (Nat.toDigits 10 n).map fun c => UInt8.ofNat c.toNat

/-- The decimal digits of an integer, behind its sign. -/
def intBytes : ℤ → List UInt8
  | .ofNat n => natBytes n
  | .negSucc n => 0x2D :: natBytes (n + 1)

/-- A string behind its length. -/
def encodeBytes (s : List UInt8) : List UInt8 := natBytes s.length ++ 0x3A :: s

mutual

/-- The bytes of a value. -/
def Value.encode : Value → List UInt8
  | .int n => 0x69 :: (intBytes n ++ [0x65])
  | .bytes s => encodeBytes s
  | .list values => 0x6C :: (encodeList values ++ [0x65])
  | .dict entries => 0x64 :: (encodeEntries entries ++ [0x65])

/-- The bytes of some values. -/
def encodeList : List Value → List UInt8
  | [] => []
  | value :: values => value.encode ++ encodeList values

/-- The bytes of some entries. -/
def encodeEntries : List (List UInt8 × Value) → List UInt8
  | [] => []
  | entry :: entries => encodeEntry entry ++ encodeEntries entries

/-- The bytes of an entry. -/
def encodeEntry : List UInt8 × Value → List UInt8
  | (key, value) => encodeBytes key ++ value.encode

end

mutual

/-- The keys of every dictionary in a value are in order. -/
def Value.Sorted : Value → Prop
  | .int _ => True
  | .bytes _ => True
  | .list values => SortedList values
  | .dict entries => (entries.map Prod.fst).Pairwise (· < ·) ∧ SortedEntries entries

/-- As `Value.Sorted`, for some values. -/
def SortedList : List Value → Prop
  | [] => True
  | value :: values => value.Sorted ∧ SortedList values

/-- As `Value.Sorted`, for the values of some entries. -/
def SortedEntries : List (List UInt8 × Value) → Prop
  | [] => True
  | entry :: entries => SortedEntry entry ∧ SortedEntries entries

/-- As `Value.Sorted`, for the value of an entry. -/
def SortedEntry : List UInt8 × Value → Prop
  | (_, value) => value.Sorted

end

/-! ## Entries -/

section Entries

variable {entries before after : List (List UInt8 × Value)} {key : List UInt8} {value : Value}

/-- Where a key of a dictionary is. -/
def keyOffset (entries : List (List UInt8 × Value)) (key : List UInt8) : ℕ :=
  1 + (encodeEntries (entries.takeWhile fun entry => entry.1 ≠ key)).length

theorem encodeEntries_append (before after : List (List UInt8 × Value)) :
    encodeEntries (before ++ after) = encodeEntries before ++ encodeEntries after := by
  induction before with
  | nil => rw [encodeEntries, List.nil_append, List.nil_append]
  | cons entry before ih =>
    rw [List.cons_append, encodeEntries, encodeEntries, ih, List.append_assoc]

/-- In a dictionary with its keys in order, every key is there once. -/
theorem takeWhile_of_sorted
    (hsorted : ((before ++ (key, value) :: after).map Prod.fst).Pairwise (· < ·)) :
    (before ++ (key, value) :: after).takeWhile (fun entry => entry.1 ≠ key) = before := by
  rw [List.map_append, List.pairwise_append] at hsorted
  have hbefore : ∀ entry ∈ before, decide (entry.1 ≠ key) = true := by
    intro entry hentry
    have hlt := hsorted.2.2 entry.1 (List.mem_map_of_mem hentry) key List.mem_cons_self
    exact decide_eq_true fun heq => List.lt_irrefl key (heq ▸ hlt)
  rw [List.takeWhile_append_of_pos hbefore, List.takeWhile_cons_of_neg (by simp), List.append_nil]

/-- A dictionary around one of its entries. -/
theorem encode_dict (hsorted : (Value.dict entries).Sorted) (hmem : (key, value) ∈ entries) :
    ∃ front rest, (Value.dict entries).encode =
        front ++ (encodeBytes key ++ (value.encode ++ rest)) ∧
      front.length = keyOffset entries key := by
  obtain ⟨before, after, rfl⟩ := List.append_of_mem hmem
  rw [Value.Sorted] at hsorted
  refine ⟨0x64 :: encodeEntries before, encodeEntries after ++ [0x65], ?_, ?_⟩
  · rw [Value.encode, encodeEntries_append, encodeEntries, encodeEntry]
    simp only [List.append_assoc, List.cons_append]
  · rw [keyOffset, takeWhile_of_sorted hsorted.1, List.length_cons, Nat.add_comm]

end Entries

/-! ## Digits -/

/-- A decimal digit and its byte. -/
theorem digit_byte {d : ℕ} (h : d < 10) :
    (0x30 ≤ UInt8.ofNat d.digitChar.toNat ∧ UInt8.ofNat d.digitChar.toNat ≤ 0x39) ∧
      Char.ofNat (UInt8.ofNat d.digitChar.toNat).toNat = d.digitChar := by
  interval_cases d <;> decide

theorem mem_natBytes {n : ℕ} {b : UInt8} (h : b ∈ natBytes n) : 0x30 ≤ b ∧ b ≤ 0x39 := by
  obtain ⟨c, hc, rfl⟩ := List.mem_map.mp h
  obtain ⟨d, hd, rfl⟩ := Text.mem_toDigits (by decide) hc
  exact (digit_byte hd).1

theorem natBytes_ne_nil (n : ℕ) : natBytes n ≠ [] := by
  rw [natBytes, ne_eq, List.map_eq_nil_iff]
  exact Nat.toDigits_ne_nil

/-- The bytes of a number stand for its digits. -/
theorem toDigits_natBytes (n : ℕ) :
    (natBytes n).map (fun b => Char.ofNat b.toNat) = Nat.toDigits 10 n := by
  rw [natBytes, List.map_map]
  refine (List.map_congr_left fun c hc => ?_).trans (List.map_id _)
  obtain ⟨d, hd, rfl⟩ := Text.mem_toDigits (by decide) hc
  exact (digit_byte hd).2

end Bencode
