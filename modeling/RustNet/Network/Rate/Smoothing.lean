import Mathlib.Algebra.Order.Archimedean.Basic
import Mathlib.Algebra.Order.Field.Rat
import Mathlib.Tactic.Linarith
import Mathlib.Tactic.NormNum

/-!
# Smoothing of the rates shown

A connection does not show the rate of its tracker as it is. `smooth_rate` takes a higher rate at
once, goes part of the way to a lower one, and lets the rate shown decay when the tracker has none;
what falls below one byte a second is shown as zero.

Rates are rational numbers, without rounding.

## Main definitions

* `smoothed`, `smoothRate`: the rate before and after the cut-off.

## Main results

* `exists_eq_zero_of_decay`: a sequence that decays, and is cut off under a threshold, gets to zero;
* `smoothRate_between`: what is shown next is between zero and the larger of the two rates;
* `exists_smoothRate_iterate_zero`: without traffic zero is shown in the end.
-/

namespace RustNet

/-! ## Decay -/

section Decay

variable {K : Type*} [Field K] [LinearOrder K] [IsStrictOrderedRing K]
variable {x : ℕ → K} {factor threshold : K}

/-- As long as a decaying sequence is not cut off, it is below the powers of the factor. -/
theorem le_pow_mul_of_decay (hfactor : 0 ≤ factor) {n : ℕ}
    (hdecay : ∀ k < n, x (k + 1) ≤ factor * x k) : x n ≤ factor ^ n * x 0 := by
  induction n with
  | zero => simp
  | succ n ih =>
    have hprev := ih fun k hk => hdecay k (hk.trans (Nat.lt_succ_self n))
    calc x (n + 1) ≤ factor * x n := hdecay n (Nat.lt_succ_self n)
      _ ≤ factor * (factor ^ n * x 0) := mul_le_mul_of_nonneg_left hprev hfactor
      _ = factor ^ (n + 1) * x 0 := by ring

/-- A sequence that is cut off to zero under a threshold, and decays by a factor where it is not,
gets to zero. -/
theorem exists_eq_zero_of_decay [Archimedean K] (hfactor : 0 ≤ factor) (hlt : factor < 1)
    (hthreshold : 0 < threshold)
    (hstep : ∀ n, x (n + 1) = 0 ∨ threshold ≤ x (n + 1) ∧ x (n + 1) ≤ factor * x n) :
    ∃ n, x n = 0 := by
  by_contra hnever
  have hcut : ∀ n, threshold ≤ x (n + 1) ∧ x (n + 1) ≤ factor * x n :=
    fun n => (hstep n).resolve_left fun hzero => hnever ⟨n + 1, hzero⟩
  have hpow : ∀ n, threshold ≤ factor ^ (n + 1) * x 0 :=
    fun n => (hcut n).1.trans (le_pow_mul_of_decay hfactor fun k _ => (hcut k).2)
  -- so the sequence starts above zero, and some power brings it below the threshold
  have hstart : 0 < x 0 := by
    have hpos : 0 < factor ^ 1 * x 0 := hthreshold.trans_le (hpow 0)
    exact pos_of_mul_pos_right hpos (pow_nonneg hfactor 1)
  obtain ⟨n, hn⟩ := exists_pow_lt_of_lt_one (div_pos hthreshold hstart) hlt
  have hsmall : factor ^ (n + 1) ≤ factor ^ n :=
    pow_le_pow_of_le_one hfactor hlt.le (Nat.le_succ n)
  have hbelow : factor ^ (n + 1) * x 0 < threshold :=
    (lt_div_iff₀ hstart).mp (hsmall.trans_lt hn)
  exact absurd (hpow n) (not_le.mpr hbelow)

end Decay

/-! ## Smoothing -/

/-- `RATE_DECAY_STOPPED`: what is kept of a shown rate at a refresh when nothing flows any more. -/
def rateDecayStopped : ℚ := 15 / 100

/-- `RATE_BLEND_NEW`: the weight of the measured rate in what is shown next. -/
def rateBlendNew : ℚ := 6 / 10

/-- `RATE_BLEND_PREV`: the weight of the rate that was shown before in what is shown next. -/
def rateBlendPrev : ℚ := 4 / 10

/-- `RATE_ZERO_THRESHOLD`: a smoothed rate below one byte a second is shown as none. -/
def rateZeroThreshold : ℚ := 1

/-- The rate that `smooth_rate` has before the cut-off. -/
def smoothed (raw prev : ℚ) : ℚ :=
  if prev ≤ raw then raw
  else if raw = 0 then prev * rateDecayStopped
  else rateBlendNew * raw + rateBlendPrev * prev

/-- `smooth_rate`, without rounding: the rate that a refresh shows, from the rate that was measured
and the one that was shown before. -/
def smoothRate (raw prev : ℚ) : ℚ :=
  if smoothed raw prev < rateZeroThreshold then 0 else smoothed raw prev

section Smoothing

variable {raw prev : ℚ}

/-- A rate that does not fall is taken at once. -/
theorem smoothed_of_le (h : prev ≤ raw) : smoothed raw prev = raw := if_pos h

/-- Where the traffic stopped, the rate decays. -/
theorem smoothed_of_stopped (h : 0 < prev) : smoothed 0 prev = prev * rateDecayStopped := by
  rw [smoothed, if_neg (not_le.mpr h), if_pos rfl]

/-- A falling rate is between the new one and the one shown, unless the traffic stopped. -/
theorem smoothed_of_falling (hraw : raw ≠ 0) (hfall : raw < prev) :
    raw < smoothed raw prev ∧ smoothed raw prev < prev := by
  rw [smoothed, if_neg (not_le.mpr hfall), if_neg hraw, rateBlendNew, rateBlendPrev]
  constructor <;> linarith

/-- Before the cut-off the rate is between zero and the larger of the two. -/
theorem smoothed_between (hraw : 0 ≤ raw) :
    0 ≤ smoothed raw prev ∧ smoothed raw prev ≤ max raw prev := by
  rcases le_or_gt prev raw with hrise | hfall
  · rw [smoothed_of_le hrise]
    exact ⟨hraw, le_max_left _ _⟩
  · rw [max_eq_right hfall.le]
    rcases eq_or_ne raw 0 with rfl | hne
    · rw [smoothed_of_stopped hfall, rateDecayStopped]
      constructor <;> linarith
    · obtain ⟨hlower, hupper⟩ := smoothed_of_falling hne hfall
      exact ⟨hraw.trans hlower.le, hupper.le⟩

/-- What is shown is zero, or has passed the cut-off as it was. -/
theorem smoothRate_cases (raw prev : ℚ) :
    smoothRate raw prev = 0 ∨
      smoothRate raw prev = smoothed raw prev ∧ rateZeroThreshold ≤ smoothed raw prev := by
  rcases lt_or_ge (smoothed raw prev) rateZeroThreshold with hcut | hshown
  · exact Or.inl (if_pos hcut)
  · exact Or.inr ⟨if_neg (not_lt.mpr hshown), hshown⟩

/-- What is shown next is between zero and the larger of the two rates. -/
theorem smoothRate_between (hraw : 0 ≤ raw) :
    0 ≤ smoothRate raw prev ∧ smoothRate raw prev ≤ max raw prev := by
  rcases smoothRate_cases raw prev with hzero | ⟨heq, -⟩
  · rw [hzero]
    exact ⟨le_rfl, hraw.trans (le_max_left _ _)⟩
  · rw [heq]
    exact smoothed_between hraw

/-- A rate that was zero stays zero without traffic. -/
@[simp]
theorem smoothRate_zero_zero : smoothRate 0 0 = 0 := by
  rw [smoothRate, smoothed_of_le le_rfl]
  exact if_pos zero_lt_one

/-- Without traffic the rate decays, or is cut off. -/
theorem smoothRate_stopped (prev : ℚ) :
    smoothRate 0 prev = 0 ∨
      rateZeroThreshold ≤ smoothRate 0 prev ∧ smoothRate 0 prev ≤ rateDecayStopped * prev := by
  rcases smoothRate_cases 0 prev with hzero | ⟨heq, hshown⟩
  · exact Or.inl hzero
  · -- what passed the cut-off was above zero before
    have hpos : 0 < prev := by
      by_contra hle
      rw [smoothed_of_le (not_lt.mp hle)] at hshown
      exact absurd hshown (by decide)
    refine Or.inr ⟨heq ▸ hshown, ?_⟩
    rw [heq, smoothed_of_stopped hpos, mul_comm]

/-- From any rate shown, refreshes without traffic get to zero and stay there. -/
theorem exists_smoothRate_iterate_zero (start : ℚ) :
    ∃ n, ∀ m, n ≤ m → (smoothRate 0)^[m] start = 0 := by
  have hfactor : 0 ≤ rateDecayStopped := by norm_num [rateDecayStopped]
  have hlt : rateDecayStopped < 1 := by norm_num [rateDecayStopped]
  have hthreshold : 0 < rateZeroThreshold := zero_lt_one
  -- each step shrinks the rate by a factor, or it is below the threshold and zero
  have hstep : ∀ n, (smoothRate 0)^[n + 1] start = 0 ∨
      rateZeroThreshold ≤ (smoothRate 0)^[n + 1] start ∧
        (smoothRate 0)^[n + 1] start ≤ rateDecayStopped * (smoothRate 0)^[n] start := by
    intro n
    rw [Function.iterate_succ_apply']
    exact smoothRate_stopped _
  obtain ⟨n, hn⟩ : ∃ n, (smoothRate 0)^[n] start = 0 :=
    exists_eq_zero_of_decay (x := fun n => (smoothRate 0)^[n] start) hfactor hlt hthreshold hstep
  refine ⟨n, fun m hm => ?_⟩
  obtain ⟨k, rfl⟩ := Nat.exists_eq_add_of_le' hm
  rw [Function.iterate_add_apply, hn]
  exact Function.iterate_fixed smoothRate_zero_zero k

end Smoothing

/-- **The rate shown never leaves the range of the rates it is made from, and without traffic it
gets to zero in the end.** The previous and the new rate are any that are not negative, and the rate
from which it decays is any at all. Once it is at zero it stays there. -/
theorem smoothRate_settles :
    (∀ prev raw : ℚ, 0 ≤ raw → 0 ≤ smoothRate raw prev ∧ smoothRate raw prev ≤ max raw prev) ∧
      ∀ start : ℚ, ∃ n, (smoothRate 0)^[n] start = 0 ∧
        ∀ m, n ≤ m → (smoothRate 0)^[m] start = 0 := by
  refine ⟨fun prev raw => smoothRate_between, fun start => ?_⟩
  obtain ⟨n, hn⟩ := exists_smoothRate_iterate_zero start
  exact ⟨n, hn n le_rfl, hn⟩

/-- From eight bytes a second to three. -/
theorem smoothRate_settles_eight :
    (0 : ℚ) ≤ 3 ∧ 0 ≤ smoothRate 3 8 ∧ smoothRate 3 8 ≤ max 3 8 :=
  ⟨by norm_num, smoothRate_settles.1 8 3 (by norm_num)⟩

end RustNet
