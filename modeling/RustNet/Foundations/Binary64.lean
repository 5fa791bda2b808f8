import Mathlib.Algebra.Order.Field.Rat
import Mathlib.Data.Int.Log
import Mathlib.Data.Rat.Floor
import Mathlib.Tactic.Linarith
import Mathlib.Tactic.NormNum
import Mathlib.Tactic.Positivity
import Mathlib.Tactic.Ring

/-!
# Rounding to binary64

The numbers of the format binary64 as rational numbers: a whole number of no more than 53 bits
times a power of two. A result of arithmetic is rounded to the nearest of them, and of two that are
as near to the even one. The format ends at about `2 ^ 1024`; here it does not, so that what follows
is about numbers and results below that.

## Main definitions

* `Binary64.Representable`: the numbers of the format;
* `Binary64.ulp`, `Binary64.round`: the unit in the last place, and the number that a result is
  rounded to.

## Main results

* `abs_round_sub_le`: no number of the format is nearer;
* `round_eq_self`, `round_mono`: the numbers themselves stay, and rounding keeps order;
* `exponent_natCast_add`: the last place of a number with a whole part;
* `round_pos`: the difference of two numbers is not rounded to zero;
* `round_eq_round`: two results are rounded alike if no tie is between them.
-/

namespace Binary64

/-! ## Whole numbers -/

/-- The nearest whole number, and of two the even one. -/
def roundHalfEven (q : ℚ) : ℤ :=
  if q - ⌊q⌋ < 1 / 2 then ⌊q⌋
  else if 1 / 2 < q - ⌊q⌋ then ⌊q⌋ + 1
  else if 2 ∣ ⌊q⌋ then ⌊q⌋
  else ⌊q⌋ + 1

theorem abs_roundHalfEven_sub_le_half (q : ℚ) : |(roundHalfEven q : ℚ) - q| ≤ 1 / 2 := by
  have hfloor := Int.floor_le q
  have hceil := Int.lt_floor_add_one q
  rw [roundHalfEven, abs_le]
  split_ifs <;> push_cast <;> constructor <;> linarith

/-- No whole number is nearer. -/
theorem abs_roundHalfEven_sub_le (q : ℚ) (m : ℤ) : |(roundHalfEven q : ℚ) - q| ≤ |(m : ℚ) - q| := by
  have hhalf := abs_roundHalfEven_sub_le_half q
  rcases eq_or_ne m (roundHalfEven q) with rfl | hne
  · exact le_rfl
  · -- any other is one further away at least
    have hone : (1 : ℚ) ≤ |(m : ℚ) - roundHalfEven q| := by
      exact_mod_cast Int.one_le_abs (sub_ne_zero.mpr hne)
    have htriangle : |(m : ℚ) - roundHalfEven q| ≤ |(m : ℚ) - q| + |(roundHalfEven q : ℚ) - q| := by
      rw [abs_sub_comm (roundHalfEven q : ℚ) q]
      exact abs_sub_le _ _ _
    linarith

/-- What is nearer to a whole number than a half is rounded to it. -/
theorem roundHalfEven_eq {q : ℚ} {m : ℤ} (h : |q - m| < 1 / 2) : roundHalfEven q = m := by
  by_contra hne
  have hone : (1 : ℚ) ≤ |(roundHalfEven q : ℚ) - m| := by
    exact_mod_cast Int.one_le_abs (sub_ne_zero.mpr hne)
  have htriangle := abs_sub_le (roundHalfEven q : ℚ) q m
  have hhalf := abs_roundHalfEven_sub_le_half q
  linarith

/-! ## The format -/

/-- The exponent of the last place of a number, of which there are 53 unless it is very small. -/
def exponent (q : ℚ) : ℤ := max (Int.log 2 |q| - 52) (-1074)

/-- The unit in the last place. -/
def ulp (q : ℚ) : ℚ := 2 ^ exponent q

/-- The number that a result is rounded to. -/
def round (q : ℚ) : ℚ := roundHalfEven (q / ulp q) * ulp q

/-- A number of the format. -/
def Representable (f : ℚ) : Prop := ∃ m e : ℤ, -1074 ≤ e ∧ |m| ≤ 2 ^ 53 ∧ f = m * 2 ^ e

section Format

variable {f q x y : ℚ}

@[simp]
theorem round_zero : round 0 = 0 := by simp [round, roundHalfEven]

theorem ulp_pos (q : ℚ) : 0 < ulp q := zpow_pos (by norm_num) _

theorem abs_lt_ulp (q : ℚ) : |q| < 2 ^ 53 * ulp q := by
  have hlog : |q| < (2 : ℚ) ^ (Int.log 2 |q| + 1) := by
    exact_mod_cast Int.lt_zpow_succ_log_self (b := 2) (by norm_num) |q|
  have hexp : Int.log 2 |q| + 1 ≤ 53 + exponent q := by
    rw [exponent]
    omega
  calc |q| < 2 ^ (Int.log 2 |q| + 1) := hlog
    _ ≤ 2 ^ (53 + exponent q) := zpow_le_zpow_right₀ (by norm_num) hexp
    _ = 2 ^ 53 * ulp q := by
        rw [zpow_add₀ (by norm_num), ulp]
        norm_cast

/-- A multiple of the last place is no nearer than the rounded number. -/
theorem abs_round_sub_le_of_multiple (q : ℚ) (m : ℤ) : |round q - q| ≤ |m * ulp q - q| := by
  have hpos := ulp_pos q
  have hscale (k : ℤ) : |(k : ℚ) * ulp q - q| = |(k : ℚ) - q / ulp q| * ulp q := by
    have heq : (k : ℚ) * ulp q - q = (k - q / ulp q) * ulp q := by
      rw [sub_mul, div_mul_cancel₀ _ hpos.ne']
    rw [heq, abs_mul, abs_of_pos hpos]
  rw [round, hscale, hscale]
  exact mul_le_mul_of_nonneg_right (abs_roundHalfEven_sub_le _ _) hpos.le

/-- A result is rounded by half a unit in the last place at most. -/
theorem abs_round_sub_le_half (q : ℚ) : |round q - q| ≤ ulp q / 2 := by
  have hpos := ulp_pos q
  have heq : round q - q = (roundHalfEven (q / ulp q) - q / ulp q) * ulp q := by
    rw [round, sub_mul, div_mul_cancel₀ _ hpos.ne']
  rw [heq, abs_mul, abs_of_pos hpos]
  linarith [mul_le_mul_of_nonneg_right (abs_roundHalfEven_sub_le_half (q / ulp q)) hpos.le]

/-- A number below one has a last place of `2 ^ -53` at most, and is rounded by half of it. -/
theorem abs_round_sub_le_of_lt_one (h : |q| < 1) : |round q - q| ≤ 1 / 2 ^ 54 := by
  rcases eq_or_ne q 0 with rfl | hq
  · norm_num
  have hlog : Int.log 2 |q| < 0 := (Int.lt_zpow_iff_log_lt (by norm_num) (abs_pos.mpr hq)).mp h
  have hexp : exponent q ≤ -53 := max_le (by omega) (by norm_num)
  calc |round q - q| ≤ ulp q / 2 := abs_round_sub_le_half q
    _ ≤ 2 ^ (-53 : ℤ) / 2 :=
        div_le_div_of_nonneg_right (zpow_le_zpow_right₀ (by norm_num) hexp) (by norm_num)
    _ = 1 / 2 ^ 54 := by norm_num

/-- What is rounded is a number of the format. -/
theorem representable_round (q : ℚ) : Representable (round q) := by
  refine ⟨roundHalfEven (q / ulp q), exponent q, le_max_right _ _, ?_, rfl⟩
  have hlt : |q / ulp q| < 2 ^ 53 := by
    rw [abs_div, abs_of_pos (ulp_pos q), div_lt_iff₀ (ulp_pos q)]
    exact abs_lt_ulp q
  -- the whole number is within a half of one that is below the bound
  have hhalf := abs_roundHalfEven_sub_le_half (q / ulp q)
  have habs : |(roundHalfEven (q / ulp q) : ℚ)| < 2 ^ 53 + 1 := by
    have := abs_sub_abs_le_abs_sub (roundHalfEven (q / ulp q) : ℚ) (q / ulp q)
    linarith
  have hint : |roundHalfEven (q / ulp q)| < 2 ^ 53 + 1 := by exact_mod_cast habs
  omega

/-- A result is rounded to a multiple of its last place that is nearer than half of it. -/
theorem round_eq_of_near {m : ℤ} (h : |q - m * ulp q| < ulp q / 2) : round q = m * ulp q := by
  have hpos := ulp_pos q
  have hscale : q / ulp q - m = (q - m * ulp q) / ulp q := by
    rw [sub_div, mul_div_cancel_right₀ _ hpos.ne']
  rw [round, roundHalfEven_eq (m := m)]
  rw [hscale, abs_div, abs_of_pos hpos, div_lt_iff₀ hpos]
  linarith

/-- No number of the format is nearer to a result than the rounded number. -/
theorem abs_round_sub_le (hf : Representable f) (q : ℚ) : |round q - q| ≤ |f - q| := by
  rcases eq_or_ne q 0 with rfl | hq
  · rw [round_zero, sub_self, abs_zero]
    exact abs_nonneg _
  obtain ⟨m, e, he, hm, rfl⟩ := hf
  rcases le_or_gt (exponent q) e with hle | hlt
  · -- the number is a multiple of the last place
    have hmultiple : (m : ℚ) * 2 ^ e = ((m * 2 ^ (e - exponent q).toNat : ℤ) : ℚ) * ulp q := by
      have hsplit : e = (e - exponent q).toNat + exponent q := by omega
      rw [ulp]
      push_cast
      rw [mul_assoc, ← zpow_natCast, ← zpow_add₀ (by norm_num), ← hsplit]
    rw [hmultiple]
    exact abs_round_sub_le_of_multiple q _
  -- it has a smaller one, so that it is below the power of two under `|q|`
  have hexp : exponent q = Int.log 2 |q| - 52 := by
    have hmax : -1074 ≤ Int.log 2 |q| - 52 := by
      rcases lt_max_iff.mp hlt with hlog | hleast <;> omega
    exact max_eq_left hmax
  have hpower : (2 : ℚ) ^ 52 * ulp q ≤ |q| := by
    have hlog : (2 : ℚ) ^ Int.log 2 |q| ≤ |q| := by
      exact_mod_cast Int.zpow_log_le_self (b := 2) (by norm_num)
        (abs_pos.mpr hq)
    refine le_of_eq_of_le ?_ hlog
    rw [ulp, hexp, ← zpow_natCast, ← zpow_add₀ (by norm_num)]
    congr 1
    omega
  have hsmall : |(m : ℚ) * 2 ^ e| ≤ 2 ^ 52 * ulp q := by
    have hm' : |(m : ℚ)| ≤ 2 ^ 53 := by exact_mod_cast hm
    have htwo : (2 : ℚ) ^ e ≤ 2 ^ (exponent q - 1) :=
      zpow_le_zpow_right₀ (by norm_num) (Int.le_sub_one_of_lt hlt)
    rw [abs_mul, abs_of_pos (zpow_pos (by norm_num : (0 : ℚ) < 2) e)]
    calc |(m : ℚ)| * 2 ^ e ≤ 2 ^ 53 * 2 ^ (exponent q - 1) :=
          mul_le_mul hm' htwo (zpow_nonneg (by norm_num) _) (by norm_num)
      _ = 2 ^ 52 * ulp q := by
          rw [ulp, zpow_sub_one₀ (by norm_num)]
          ring
  -- and that power, with the sign of `q`, is a multiple of the last place in between
  have hbounds := abs_le.mp hsmall
  have hcast : ((2 ^ 52 : ℤ) : ℚ) = 2 ^ 52 := by norm_num
  rcases le_or_gt 0 q with hsign | hsign
  · refine (abs_round_sub_le_of_multiple q (2 ^ 52)).trans ?_
    rw [abs_of_nonneg hsign] at hpower
    rw [hcast, abs_of_nonpos (sub_nonpos.mpr hpower), abs_of_nonpos (by linarith)]
    linarith
  · refine (abs_round_sub_le_of_multiple q (-2 ^ 52)).trans ?_
    rw [abs_of_neg hsign] at hpower
    rw [Int.cast_neg, hcast, neg_mul, abs_of_nonneg (by linarith), abs_of_nonneg (by linarith)]
    linarith

/-- A number of the format stays as it is. -/
theorem round_eq_self (hf : Representable f) : round f = f := by
  have hnear := abs_round_sub_le hf f
  rw [sub_self, abs_zero] at hnear
  exact sub_eq_zero.mp (abs_nonpos_iff.mp hnear)

@[simp]
theorem round_round (q : ℚ) : round (round q) = round q := round_eq_self (representable_round q)

/-- Rounding keeps order. -/
theorem round_mono (h : x ≤ y) : round x ≤ round y := by
  by_contra hlt
  rw [not_le] at hlt
  have hx := abs_round_sub_le (representable_round y) x
  have hy := abs_round_sub_le (representable_round x) y
  -- each is on its own side of the middle between the two numbers
  have hxmid : (round x + round y) / 2 ≤ x := by
    by_contra hbelow
    rw [not_le] at hbelow
    have hlow : round x - x ≤ |round y - x| := (le_abs_self _).trans hx
    rcases abs_cases (round y - x) with ⟨heq, -⟩ | ⟨heq, -⟩ <;> linarith
  have hymid : y ≤ (round x + round y) / 2 := by
    by_contra habove
    rw [not_le] at habove
    have hhigh : y - round y ≤ |round x - y| := by
      rw [← neg_sub]
      exact (neg_le_abs _).trans hy
    rcases abs_cases (round x - y) with ⟨heq, -⟩ | ⟨heq, -⟩ <;> linarith
  -- so that both are in the middle, and rounded alike
  have heq : x = y := le_antisymm h (hymid.trans hxmid)
  exact absurd (congrArg round heq) hlt.ne'

/-- A whole number of no more than 53 bits is a number of the format. -/
theorem representable_natCast {n : ℕ} (h : n ≤ 2 ^ 53) : Representable n := by
  refine ⟨n, 0, by norm_num, ?_, by simp⟩
  rw [Nat.abs_cast]
  exact_mod_cast h

/-- The last place of a number depends on its whole part only, unless that is zero. -/
theorem exponent_natCast_add {n : ℕ} (hn : n ≠ 0) (hx : 0 ≤ x) (hlt : x < 1) :
    exponent (n + x) = Nat.log 2 n - 52 := by
  have hone : (1 : ℚ) ≤ n := by exact_mod_cast Nat.one_le_iff_ne_zero.mpr hn
  have hfloor : ⌊(n : ℚ) + x⌋₊ = n :=
    (Nat.floor_eq_iff (by linarith)).mpr ⟨by linarith, by linarith⟩
  rw [exponent, abs_of_nonneg (by linarith), Int.log_of_one_le_right 2 (by linarith), hfloor]
  exact max_eq_left (by omega)

/-- The least number of the format above zero. -/
def least : ℚ := 2 ^ (-1074 : ℤ)

theorem least_pos : 0 < least := zpow_pos (by norm_num) _

theorem representable_least : Representable least :=
  ⟨1, -1074, le_rfl, by norm_num, by rw [least, Int.cast_one, one_mul]⟩

/-- Every number of the format is a multiple of the least one. -/
theorem Representable.exists_eq_mul_least (hf : Representable f) : ∃ n : ℤ, f = n * least := by
  obtain ⟨m, e, he, -, rfl⟩ := hf
  refine ⟨m * 2 ^ (e + 1074).toNat, ?_⟩
  have hsplit : e = (e + 1074).toNat + (-1074) := by omega
  rw [Int.cast_mul, Int.cast_pow, Int.cast_ofNat, mul_assoc, least, ← zpow_natCast,
    ← zpow_add₀ (by norm_num), ← hsplit]

/-- The difference of two numbers of the format is not rounded to zero. -/
theorem round_pos (hx : Representable x) (hy : Representable y) (h : x < y) :
    0 < round (y - x) := by
  obtain ⟨a, rfl⟩ := hx.exists_eq_mul_least
  obtain ⟨b, rfl⟩ := hy.exists_eq_mul_least
  have hlt : a < b := by exact_mod_cast lt_of_mul_lt_mul_right h least_pos.le
  have hone : (1 : ℚ) ≤ b - a := by
    exact_mod_cast Int.le_sub_left_of_add_le (Int.add_one_le_of_lt hlt)
  calc 0 < least := least_pos
    _ = round least := (round_eq_self representable_least).symm
    _ ≤ round (b * least - a * least) :=
        round_mono (by rw [← sub_mul]; exact le_mul_of_one_le_left least_pos.le hone)

/-! ## Rounding twice -/

/-- Two results that differ by less than from every tie are rounded to the same whole number. -/
theorem roundHalfEven_eq_of_tie (h : ∀ k : ℤ, |x - y| < |x - (k + 1 / 2)|) :
    roundHalfEven x = roundHalfEven y := by
  have hx := abs_le.mp (abs_roundHalfEven_sub_le_half x)
  -- neither of the ties next to the rounded number is between the two
  have hlow := h (roundHalfEven x - 1)
  have hhigh := h (roundHalfEven x)
  generalize roundHalfEven x = m at hx hlow hhigh
  have hbelow : 0 ≤ x - (m - 1 + 1 / 2) := by linarith
  have habove : x - (m + 1 / 2) ≤ 0 := by linarith
  rw [Int.cast_sub, Int.cast_one, abs_of_nonneg hbelow, abs_lt] at hlow
  rw [abs_of_nonpos habove, abs_lt] at hhigh
  refine (roundHalfEven_eq ?_).symm
  rw [abs_lt]
  constructor <;> linarith

/-- Two results with the same last place are rounded alike if they are nearer to each other than
one of them is to a tie. -/
theorem round_eq_round (hexp : exponent x = exponent y)
    (h : ∀ k : ℤ, |x - y| < |x - (k + 1 / 2) * ulp x|) : round x = round y := by
  have hulp : ulp y = ulp x := by rw [ulp, ulp, hexp]
  have hpos := ulp_pos x
  have hties : ∀ k : ℤ, |x / ulp x - y / ulp x| < |x / ulp x - (k + 1 / 2)| := by
    intro k
    have hscale : x / ulp x - (k + 1 / 2) = (x - (k + 1 / 2) * ulp x) / ulp x := by
      rw [sub_div, mul_div_cancel_right₀ _ hpos.ne']
    rw [← sub_div, hscale, abs_div, abs_div, abs_of_pos hpos]
    exact div_lt_div_of_pos_right (h k) hpos
  rw [round, round, hulp, roundHalfEven_eq_of_tie hties]

end Format

end Binary64
