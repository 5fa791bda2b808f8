import RustNet.Foundations.BigEndian

/-!
# Elements with tag, length and content

The basic encoding rules write an element as its tag, the length of its content and the content. A
definite length has a short form of one byte and long forms, which say first in how many bytes the
length follows; these need not be as few as possible.

## Main definitions

* `Ber.LengthForm`: the forms of a length, `Ber.LengthForm.Fits` the lengths that a form can hold;
* `Ber.Element`: an element with the form of its length.
-/

namespace Ber

/-- The form of a definite length. -/
inductive LengthForm
  | short
  | long (octets : ℕ)

namespace LengthForm

/-- The bytes that a length takes behind its first one. -/
def octets : LengthForm → ℕ
  | short => 0
  | long octets => octets

/-- The form can hold the length. -/
def Fits (n : ℕ) : LengthForm → Prop
  | short => n < 128
  | long octets => 1 ≤ octets ∧ octets ≤ 126 ∧ n < 256 ^ octets

instance (n : ℕ) (form : LengthForm) : Decidable (form.Fits n) :=
  match form with
  | short => inferInstanceAs (Decidable (n < 128))
  | long octets => inferInstanceAs (Decidable (1 ≤ octets ∧ octets ≤ 126 ∧ n < 256 ^ octets))

/-- The bytes of a length. -/
def encode (n : ℕ) : LengthForm → List UInt8
  | short => [UInt8.ofNat n]
  | long octets => UInt8.ofNat (128 + octets) :: BigEndian.bytes octets n

@[simp]
theorem length_encode (n : ℕ) (form : LengthForm) : (form.encode n).length = 1 + form.octets := by
  rcases form with _ | octets
  · rfl
  · rw [encode, List.length_cons, BigEndian.length_bytes, Nat.add_comm]
    rfl

/-- The first byte of a long form says how many follow. -/
theorem toNat_first {n k : ℕ} (h : (long k).Fits n) : (UInt8.ofNat (128 + k)).toNat = 128 + k :=
  UInt8.toNat_ofNat_of_lt' (Nat.lt_of_le_of_lt (Nat.add_le_add_left h.2.1 128) (by decide))

end LengthForm

/-- An element: its tag, and its contents behind a length in some form that can hold it. -/
structure Element where
  tag : UInt8
  form : LengthForm
  content : List UInt8
  fits : form.Fits content.length

namespace Element

/-- The bytes of an element. -/
def encode (e : Element) : List UInt8 := e.tag :: (e.form.encode e.content.length ++ e.content)

@[simp]
theorem length_encode (e : Element) : e.encode.length = 2 + e.form.octets + e.content.length := by
  rw [encode, List.length_cons, List.length_append, LengthForm.length_encode]
  omega

end Element

end Ber
