import Mathlib.Data.List.Forall2
import RustNet.Foundations.Text

/-!
# Bytes that need not be UTF-8

`String::from_utf8_lossy`, and what it makes of ASCII bytes. No character reaches over one, so that a
text may be cut there, and an ASCII character of the text stands for its byte.

## Main definitions

* `fromUtf8Lossy`: the text of bytes that need not be UTF-8.

## Main results

* `fromUtf8Lossy_cut`: a text around an ASCII byte;
* `fromUtf8Lossy_asciiChars`: ASCII stands for itself;
* `mem_of_mem_fromUtf8Lossy`: an ASCII character is among the bytes.
-/

namespace RustNet

/-! ## The text of bytes -/

/-- What may follow the first byte of a character: the ranges of the continuation bytes. -/
def continuations (b : UInt8) : Option (List (UInt8 × UInt8)) :=
  if b ≤ 0x7F then some []
  else if 0xC2 ≤ b ∧ b ≤ 0xDF then some [(0x80, 0xBF)]
  else if b = 0xE0 then some [(0xA0, 0xBF), (0x80, 0xBF)]
  else if b = 0xED then some [(0x80, 0x9F), (0x80, 0xBF)]
  else if 0xE1 ≤ b ∧ b ≤ 0xEF then some [(0x80, 0xBF), (0x80, 0xBF)]
  else if b = 0xF0 then some [(0x90, 0xBF), (0x80, 0xBF), (0x80, 0xBF)]
  else if 0xF1 ≤ b ∧ b ≤ 0xF3 then some [(0x80, 0xBF), (0x80, 0xBF), (0x80, 0xBF)]
  else if b = 0xF4 then some [(0x80, 0x8F), (0x80, 0xBF), (0x80, 0xBF)]
  else none

/-- How many of the bytes are in their ranges. -/
def continued : List (UInt8 × UInt8) → List UInt8 → ℕ
  | (low, high) :: ranges, b :: bytes =>
    if low ≤ b ∧ b ≤ high then continued ranges bytes + 1 else 0
  | _, _ => 0

/-- The bits of a first byte that belong to the character, if `n` bytes follow. -/
def leadBits (b : UInt8) : ℕ → ℕ
  | 0 => b.toNat
  | 1 => b.toNat % 32
  | 2 => b.toNat % 16
  | _ => b.toNat % 8

/-- The loop of `String::from_utf8_lossy`. What cannot be part of a character, as far as it could
have been one, gives one replacement character. -/
def lossyLoop : ℕ → List UInt8 → List Char
  | 0, _ => []
  | _, [] => []
  | rounds + 1, b :: bytes =>
    match continuations b with
    | none => '\uFFFD' :: lossyLoop rounds bytes
    | some ranges =>
      let n := continued ranges bytes
      let char :=
        if n = ranges.length then
          Char.ofNat ((bytes.take n).foldl (fun code b => code * 64 + b.toNat % 64) (leadBits b n))
        else '\uFFFD'
      char :: lossyLoop rounds (bytes.drop n)

/-- `String::from_utf8_lossy`, as characters: what is not UTF-8 is replaced piece by piece, so that
the result is never longer than the bytes. -/
def fromUtf8Lossy (bytes : List UInt8) : List Char := lossyLoop bytes.length bytes

example : String.ofList (fromUtf8Lossy [0x53, 0xE2, 0x82, 0xAC, 0xE2, 0x82, 0x53, 0xFF]) =
    "S€\uFFFDS\uFFFD" := by decide +kernel

section Lossy

variable {b : UInt8} {bytes front rest : List UInt8} {ranges : List (UInt8 × UInt8)}

/-- The characters of ASCII bytes. -/
def asciiChars (bytes : List UInt8) : List Char := bytes.map fun b => Char.ofNat b.toNat

/-! ## Characters -/

/-- How many bytes behind the first belong to the same character. -/
def lossyCount (b : UInt8) (bytes : List UInt8) : ℕ :=
  (continuations b).elim 0 fun ranges => continued ranges bytes

/-- The character that begins with `b`. -/
def lossyChar (b : UInt8) (bytes : List UInt8) : Char :=
  match continuations b with
  | none => '\uFFFD'
  | some ranges =>
    let n := continued ranges bytes
    if n = ranges.length then
      Char.ofNat ((bytes.take n).foldl (fun code b => code * 64 + b.toNat % 64) (leadBits b n))
    else '\uFFFD'

theorem lossyLoop_cons (rounds : ℕ) (b : UInt8) (bytes : List UInt8) :
    lossyLoop (rounds + 1) (b :: bytes) =
      lossyChar b bytes :: lossyLoop rounds (bytes.drop (lossyCount b bytes)) := by
  rw [lossyLoop, lossyChar, lossyCount]
  rcases continuations b with _ | ranges <;> rfl

/-- There are enough rounds if there is one for each byte. -/
theorem lossyLoop_eq {rounds rounds' : ℕ} (h : bytes.length ≤ rounds)
    (h' : bytes.length ≤ rounds') : lossyLoop rounds bytes = lossyLoop rounds' bytes := by
  induction rounds generalizing bytes rounds' with
  | zero =>
    obtain rfl := List.length_eq_zero_iff.mp (Nat.le_zero.mp h)
    rcases rounds' with _ | rounds' <;> rfl
  | succ rounds ih =>
    rcases bytes with _ | ⟨b, bytes⟩
    · rcases rounds' with _ | rounds' <;> rfl
    · rw [List.length_cons] at h h'
      obtain ⟨rounds', rfl⟩ := Nat.exists_eq_add_of_le' (show 1 ≤ rounds' by omega)
      have hdrop : (bytes.drop (lossyCount b bytes)).length ≤ bytes.length :=
        (List.drop_sublist _ bytes).length_le
      rw [lossyLoop_cons, lossyLoop_cons]
      exact congrArg _ (ih (by omega) (by omega))

/-- A text is its first character and the text of the bytes behind it. -/
theorem fromUtf8Lossy_cons (b : UInt8) (bytes : List UInt8) :
    fromUtf8Lossy (b :: bytes) =
      lossyChar b bytes :: fromUtf8Lossy (bytes.drop (lossyCount b bytes)) := by
  rw [fromUtf8Lossy, List.length_cons, lossyLoop_cons, fromUtf8Lossy]
  exact congrArg _ (lossyLoop_eq (List.drop_sublist _ bytes).length_le le_rfl)

/-! ## Ranges -/

theorem continuations_ascii (h : b < 0x80) : continuations b = some [] := by
  have hb : b.toNat < 128 := UInt8.lt_iff_toNat_lt.mp h
  exact if_pos (UInt8.le_iff_toNat_le.mpr (Nat.le_of_lt_succ hb))

/-- No ASCII byte continues a character. -/
theorem low_of_continuations (h : continuations b = some ranges) :
    ∀ range ∈ ranges, 0x80 ≤ range.1 := by
  unfold continuations at h
  split_ifs at h <;> obtain rfl := Option.some.inj h <;> simp

theorem continued_le_length (ranges : List (UInt8 × UInt8)) (bytes : List UInt8) :
    continued ranges bytes ≤ bytes.length := by
  fun_induction continued ranges bytes with
  | case1 low high ranges b bytes h ih => exact Nat.succ_le_succ ih
  | case2 => exact Nat.zero_le _
  | case3 => exact Nat.zero_le _

/-- A character ends in front of an ASCII byte. -/
theorem continued_append (hlow : ∀ range ∈ ranges, 0x80 ≤ range.1) (hb : b < 0x80) :
    continued ranges (front ++ b :: rest) = continued ranges front := by
  induction front generalizing ranges with
  | nil =>
    rcases ranges with _ | ⟨range, ranges⟩
    · rfl
    -- the byte is too small for the range
    · have hrange := hlow range List.mem_cons_self
      have hout : ¬ (range.1 ≤ b ∧ b ≤ range.2) := fun h =>
        UInt8.not_le.mpr hb (UInt8.le_trans hrange h.1)
      rw [List.nil_append, continued, if_neg hout, continued]
      simp
  | cons c front ih =>
    rcases ranges with _ | ⟨range, ranges⟩
    · rfl
    · rw [List.cons_append, continued, continued,
        ih fun range hrange => hlow range (List.mem_cons_of_mem _ hrange)]

/-- The bytes that continue a character are in their ranges. -/
theorem forall₂_of_continued (h : continued ranges bytes = ranges.length) :
    List.Forall₂ (fun range b => range.1 ≤ b ∧ b ≤ range.2) ranges
      (bytes.take (continued ranges bytes)) := by
  induction ranges generalizing bytes with
  | nil => exact List.Forall₂.nil
  | cons range ranges ih =>
    rcases bytes with _ | ⟨b, bytes⟩
    · rw [continued] at h
      · exact absurd h (by simp)
      · simp
    · rw [continued] at h ⊢
      split_ifs at h ⊢ with hrange
      exact List.Forall₂.cons hrange (ih (Nat.succ.inj h))

/-! ## Cuts -/

theorem lossyChar_ascii (h : b < 0x80) : lossyChar b bytes = Char.ofNat b.toNat := by
  rw [lossyChar, continuations_ascii h]
  rfl

theorem lossyCount_ascii (h : b < 0x80) : lossyCount b bytes = 0 := by
  rw [lossyCount, continuations_ascii h]
  rfl

theorem fromUtf8Lossy_ascii_cons (h : b < 0x80) :
    fromUtf8Lossy (b :: bytes) = Char.ofNat b.toNat :: fromUtf8Lossy bytes := by
  rw [fromUtf8Lossy_cons, lossyChar_ascii h, lossyCount_ascii h, List.drop_zero]

theorem lossyCount_le_length (b : UInt8) (bytes : List UInt8) :
    lossyCount b bytes ≤ bytes.length := by
  rw [lossyCount]
  rcases continuations b with _ | ranges
  · exact Nat.zero_le _
  · exact continued_le_length ranges bytes

theorem lossyCount_append (c : UInt8) (hb : b < 0x80) :
    lossyCount c (front ++ b :: rest) = lossyCount c front := by
  rw [lossyCount, lossyCount]
  rcases hranges : continuations c with _ | ranges
  · rfl
  · exact continued_append (low_of_continuations hranges) hb

theorem lossyChar_append (c : UInt8) (hb : b < 0x80) :
    lossyChar c (front ++ b :: rest) = lossyChar c front := by
  rw [lossyChar, lossyChar]
  rcases hranges : continuations c with _ | ranges
  · rfl
  · simp only [continued_append (low_of_continuations hranges) hb,
      List.take_append_of_le_length (continued_le_length ranges front)]

/-- A text is cut at an ASCII byte. -/
theorem fromUtf8Lossy_cut (hb : b < 0x80) :
    fromUtf8Lossy (front ++ b :: rest) =
      fromUtf8Lossy front ++ Char.ofNat b.toNat :: fromUtf8Lossy rest := by
  induction hn : front.length using Nat.strong_induction_on generalizing front with
  | _ n ih =>
    rcases front with _ | ⟨c, front⟩
    · exact fromUtf8Lossy_ascii_cons hb
    -- the first character takes as much of `front` as it does without the rest
    · have hcount := lossyCount_le_length c front
      have hdrop : (front.drop (lossyCount c front)).length < n := by
        rw [List.length_drop]
        rw [List.length_cons] at hn
        omega
      rw [List.cons_append, fromUtf8Lossy_cons, lossyChar_append c hb, lossyCount_append c hb,
        List.drop_append_of_le_length hcount, ih _ hdrop rfl, fromUtf8Lossy_cons c front,
        List.cons_append]

/-- ASCII in front of a text stands for itself. -/
theorem fromUtf8Lossy_asciiChars (h : ∀ b ∈ bytes, b < 0x80) :
    fromUtf8Lossy (bytes ++ rest) = asciiChars bytes ++ fromUtf8Lossy rest := by
  induction bytes with
  | nil => rfl
  | cons b bytes ih =>
    obtain ⟨hb, hbytes⟩ := List.forall_mem_cons.mp h
    rw [List.cons_append, fromUtf8Lossy_ascii_cons hb, ih hbytes]
    rfl

theorem fromUtf8Lossy_ascii (h : ∀ b ∈ bytes, b < 0x80) :
    fromUtf8Lossy bytes = asciiChars bytes := by
  have happend : fromUtf8Lossy (bytes ++ []) = asciiChars bytes ++ [] :=
    fromUtf8Lossy_asciiChars h
  rwa [List.append_nil, List.append_nil] at happend

/-- ASCII behind a text stands for itself. -/
theorem fromUtf8Lossy_append (h : ∀ b ∈ bytes, b < 0x80) :
    fromUtf8Lossy (front ++ bytes) = fromUtf8Lossy front ++ asciiChars bytes := by
  rcases bytes with _ | ⟨b, bytes⟩
  · rw [List.append_nil, asciiChars, List.map_nil, List.append_nil]
  · obtain ⟨hb, hbytes⟩ := List.forall_mem_cons.mp h
    rw [fromUtf8Lossy_cut hb, fromUtf8Lossy_ascii hbytes]
    rfl

/-! ## ASCII characters -/

/-- What further bytes add to the number of a character. -/
theorem le_foldl_code (code : ℕ) (bytes : List UInt8) :
    code * 64 ^ bytes.length ≤ bytes.foldl (fun code b => code * 64 + b.toNat % 64) code := by
  induction bytes generalizing code with
  | nil => simp
  | cons b bytes ih =>
    calc code * 64 ^ (b :: bytes).length = code * 64 * 64 ^ bytes.length := by
          rw [List.length_cons, Nat.pow_succ', Nat.mul_assoc]
      _ ≤ (code * 64 + b.toNat % 64) * 64 ^ bytes.length :=
          Nat.mul_le_mul_right _ (Nat.le_add_right _ _)
      _ ≤ (b :: bytes).foldl (fun code b => code * 64 + b.toNat % 64) code := ih _

/-- With its second byte a character is behind ASCII. -/
theorem le_second {range : UInt8 × UInt8} {x : UInt8}
    (hranges : continuations b = some (range :: ranges)) (hx : range.1 ≤ x ∧ x ≤ range.2) :
    0x80 ≤ (leadBits b (ranges.length + 1) * 64 + x.toNat % 64) * 64 ^ ranges.length := by
  unfold continuations at hranges
  simp only [UInt8.le_iff_toNat_le, ← UInt8.toNat_inj] at hranges hx
  -- where the first byte adds nothing, its range keeps the second one from being small
  split_ifs at hranges
  · exact nomatch Option.some.inj hranges
  all_goals
    obtain ⟨rfl, rfl⟩ := List.cons.inj (Option.some.inj hranges)
    simp [leadBits] at *
    omega

/-- Bytes that continue a character stand for a number that is not in ASCII. -/
theorem le_code (hranges : continuations b = some ranges) (hne : ranges ≠ [])
    (h : List.Forall₂ (fun range b => range.1 ≤ b ∧ b ≤ range.2) ranges bytes) :
    0x80 ≤ bytes.foldl (fun code b => code * 64 + b.toNat % 64) (leadBits b bytes.length) := by
  obtain _ | ⟨hx, hmore⟩ := h
  · exact absurd rfl hne
  · have hsecond := le_second hranges hx
    rw [hmore.length_eq] at hsecond
    exact hsecond.trans (le_foldl_code _ _)

/-- A character of several bytes is not an ASCII character. -/
theorem toNat_eq_of_lossyChar (hpos : 0 < (lossyChar b bytes).toNat)
    (hascii : (lossyChar b bytes).toNat < 0x80) : (lossyChar b bytes).toNat = b.toNat := by
  rw [lossyChar] at *
  rcases hranges : continuations b with _ | ranges
  · simp only [hranges] at hascii
    exact absurd hascii (by decide)
  · simp only [hranges] at hpos hascii ⊢
    split_ifs at hpos hascii ⊢ with hcount
    · rw [Text.toNat_charOfNat] at *
      split_ifs at hpos hascii ⊢ with hvalid
      · rcases ranges with _ | ⟨range, ranges⟩
        -- a byte on its own
        · rw [hcount]
          rfl
        · have hlength : (bytes.take (continued (range :: ranges) bytes)).length =
              continued (range :: ranges) bytes :=
            List.length_take_of_le (continued_le_length _ bytes)
          have hcode := le_code hranges (List.cons_ne_nil _ _) (forall₂_of_continued hcount)
          rw [hlength] at hcode
          exact absurd hascii (Nat.not_lt.mpr hcode)
      -- a number that is no character is taken for NUL
      · exact absurd hpos (lt_irrefl 0)
    · exact absurd hascii (by decide)

/-- An ASCII character of a text is among its bytes. -/
theorem mem_of_mem_fromUtf8Lossy {c : Char} (hc : c ∈ fromUtf8Lossy bytes) (hpos : 0 < c.toNat)
    (hascii : c.toNat < 0x80) : UInt8.ofNat c.toNat ∈ bytes := by
  induction hn : bytes.length using Nat.strong_induction_on generalizing bytes with
  | _ n ih =>
    rcases bytes with _ | ⟨b, bytes⟩
    · exact absurd hc List.not_mem_nil
    · rw [fromUtf8Lossy_cons] at hc
      rcases List.mem_cons.mp hc with rfl | hc
      -- an ASCII character comes from its own byte: the replacement is not ASCII
      · rw [toNat_eq_of_lossyChar hpos hascii, UInt8.ofNat_toNat]
        exact List.mem_cons_self
      · have hdrop : (bytes.drop (lossyCount b bytes)).length < n := by
          rw [List.length_drop]
          rw [List.length_cons] at hn
          omega
        exact List.mem_cons_of_mem _ (List.mem_of_mem_drop (ih _ hdrop hc rfl))

end Lossy

end RustNet
