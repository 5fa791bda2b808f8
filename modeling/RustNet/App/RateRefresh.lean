import Mathlib.Data.UInt
import Mathlib.Tactic.Positivity
import RustNet.App.Grouping
import RustNet.Network.Rate.Smoothing
import RustNet.Network.Rate.Window

/-!
# Refreshing the rates

A thread refreshes the rates of all connections in passes, a second apart. It prunes the tracker of
a connection and smooths the rates that it then has. A connection that has been idle for more than
thirty seconds and shows zero is left out.

## Main definitions

* `RatedConnection.refreshRates`, `RatedConnection.refreshPass`: one connection in one pass;
* `RatedConnection.afterPasses`: the connection after some passes.

## Main results

* `RatedConnection.shown_eq_zero_or_one_le`: no rate is shown that is below one byte a second;
* `RatedConnection.shown_refreshPass_of_stale`: without traffic it makes no difference that
  connections are left out;
* `RatedConnection.exists_shown_zero`: a connection without traffic comes to show zero, and is left
  out from then on.
-/

namespace RustNet

/-- The clocks as a pass of the refresh thread reads them for a connection. -/
structure RefreshReading where
  wall : SystemTime
  incomingAt : Instant
  outgoingAt : Instant

namespace RatedConnection

/-- `refresh_rates`: old samples are pruned, and both rates are read and smoothed. Each reading of
the clock is one of its own. -/
def refreshRates (conn : RatedConnection ℚ) (reading : RefreshReading) : RatedConnection ℚ :=
  let rateTracker := conn.rateTracker.prune
  let rawIn := rateTracker.getIncomingRateBpsAt reading.incomingAt
  let rawOut := rateTracker.getOutgoingRateBpsAt reading.outgoingAt
  { conn with
    rateTracker := rateTracker
    currentIncomingRateBps := smoothRate rawIn conn.currentIncomingRateBps
    currentOutgoingRateBps := smoothRate rawOut conn.currentOutgoingRateBps }

/-- `has_nonzero_rates`: either of the rates shown is not zero. -/
def hasNonzeroRates (conn : RatedConnection ℚ) : Bool :=
  decide (conn.currentIncomingRateBps ≠ 0) || decide (conn.currentOutgoingRateBps ≠ 0)

/-- The whole seconds since the last activity. -/
def idleSecs (conn : RatedConnection ℚ) (wall : SystemTime) : ℕ :=
  conn.idleTime wall / 1000000000

/-- The connection in a pass of the refresh thread. -/
def refreshPass (conn : RatedConnection ℚ) (reading : RefreshReading) : RatedConnection ℚ :=
  if conn.idleSecs reading.wall ≤ 30 ∨ conn.hasNonzeroRates then conn.refreshRates reading
  else conn

/-- The connection after the first passes, if no packet comes. -/
def afterPasses (conn : RatedConnection ℚ) (readings : ℕ → RefreshReading) : ℕ → RatedConnection ℚ
  | 0 => conn
  | n + 1 => (conn.afterPasses readings n).refreshPass (readings n)

end RatedConnection

namespace RateDirection

/-- The rate of the direction that is shown. -/
def shown : RateDirection → RatedConnection ℚ → ℚ
  | outgoing => RatedConnection.currentOutgoingRateBps
  | incoming => RatedConnection.currentIncomingRateBps

/-- When the rate of the direction is taken. -/
def readAt : RateDirection → RefreshReading → Instant
  | outgoing => RefreshReading.outgoingAt
  | incoming => RefreshReading.incomingAt

/-- A refresh smooths the rate that the tracker has after a prune. -/
theorem shown_refreshRates (d : RateDirection) (conn : RatedConnection ℚ)
    (reading : RefreshReading) : d.shown (conn.refreshRates reading) =
      smoothRate (d.rateAt conn.rateTracker.prune (d.readAt reading)) (d.shown conn) := by
  rcases d <;> rfl

theorem rateAt_nonneg (d : RateDirection) (t : RateTracker) (now : Instant) :
    0 ≤ d.rateAt t now := by
  rw [d.rateAt_eq, RateTracker.calculateRateFromDeltasAt]
  split
  · exact le_rfl
  split
  -- the newest sample may be too old, and the samples may span no time
  · dsimp only
    split_ifs
    · exact le_rfl
    · exact le_rfl
    · unfold Duration.asSecs
      positivity
  · exact le_rfl

end RateDirection

namespace RateTracker

/-- All samples are too old for a rate. -/
def Stale (t : RateTracker) (now : Instant) : Prop :=
  ∀ sample ∈ t.samples, Duration.asSecs t.windowDuration * (11 / 10) <
    Duration.asSecs (now.durationSince sample.timestamp)

variable {t : RateTracker} {now : Instant}

theorem Stale.prune (h : t.Stale now) : t.prune.Stale now := by
  intro sample hsample
  -- a prune leaves some of the samples
  rw [samples_prune] at hsample
  have hexpired := (SlidingWindow.newest_suffix _ _).subset hsample
  exact h sample ((SlidingWindow.expire_suffix _ _ _).subset hexpired)

/-- A stale tracker has no rate. -/
theorem Stale.rateAt_eq_zero (h : t.Stale now) (d : RateDirection) : d.rateAt t now = 0 := by
  apply RateTracker.rateAt_eq_zero
  rintro ⟨_, newest, -, hnewest, hage, -⟩
  exact absurd hage (not_le.mpr (h newest (List.mem_of_getLast? hnewest)))

end RateTracker

namespace RatedConnection

variable {conn : RatedConnection ℚ} {reading : RefreshReading} {readings : ℕ → RefreshReading}

theorem hasNonzeroRates_eq_false_iff :
    conn.hasNonzeroRates = false ↔ ∀ d : RateDirection, d.shown conn = 0 := by
  constructor
  · intro h d
    simp only [hasNonzeroRates, Bool.or_eq_false_iff, decide_eq_false_iff_not, not_not] at h
    rcases d with _ | _
    · exact h.2
    · exact h.1
  · intro h
    have hin := h .incoming
    have hout := h .outgoing
    simp only [RateDirection.shown] at hin hout
    simp [hasNonzeroRates, hin, hout]

/-! ## Passes -/

/-- A pass refreshes the connection, or leaves it out showing zero. -/
theorem refreshPass_cases (conn : RatedConnection ℚ) (reading : RefreshReading) :
    conn.refreshPass reading = conn.refreshRates reading ∨
      conn.refreshPass reading = conn ∧ conn.hasNonzeroRates = false := by
  unfold refreshPass
  split_ifs with hactive
  · exact Or.inl rfl
  · exact Or.inr ⟨rfl, Bool.eq_false_iff.mpr fun h => hactive (Or.inr h)⟩

/-- No rate is shown that is below one byte a second. -/
theorem shown_eq_zero_or_one_le (d : RateDirection) (readings : ℕ → RefreshReading)
    (h : d.shown conn = 0 ∨ 1 ≤ d.shown conn) (n : ℕ) :
    d.shown (conn.afterPasses readings n) = 0 ∨ 1 ≤ d.shown (conn.afterPasses readings n) := by
  induction n with
  | zero => exact h
  | succ n ih =>
    rw [afterPasses]
    rcases refreshPass_cases (conn.afterPasses readings n) (readings n) with hpass | ⟨hpass, -⟩
    · -- what was shown before does not matter
      rw [hpass, d.shown_refreshRates]
      rcases smoothRate_cases (d.rateAt (conn.afterPasses readings n).rateTracker.prune
        (d.readAt (readings n))) (d.shown (conn.afterPasses readings n)) with hzero | ⟨heq, hone⟩
      · exact Or.inl hzero
      · exact Or.inr (heq ▸ hone)
    · rw [hpass]
      exact ih

/-- A pass shows a rate between zero and the larger of the tracker's and the one shown before. -/
theorem shown_refreshPass_between (d : RateDirection) (hshown : 0 ≤ d.shown conn) :
    0 ≤ d.shown (conn.refreshPass reading) ∧
      d.shown (conn.refreshPass reading) ≤
        max (d.rateAt conn.rateTracker.prune (d.readAt reading)) (d.shown conn) := by
  rcases refreshPass_cases conn reading with hpass | ⟨hpass, -⟩
  · rw [hpass, d.shown_refreshRates]
    exact smoothRate_between (d.rateAt_nonneg _ _)
  · rw [hpass]
    exact ⟨hshown, le_max_right _ _⟩

/-! ## Without traffic -/

theorem stale_afterPasses {now : Instant} (h : conn.rateTracker.Stale now) (n : ℕ) :
    (conn.afterPasses readings n).rateTracker.Stale now := by
  induction n with
  | zero => exact h
  | succ n ih =>
    rw [afterPasses]
    rcases refreshPass_cases (conn.afterPasses readings n) (readings n) with hpass | ⟨hpass, -⟩
    · rw [hpass]
      exact ih.prune
    · rw [hpass]
      exact ih

/-- A pass lets the rates of a stale tracker decay, and it makes no difference that it leaves
connections out. -/
theorem shown_refreshPass_of_stale (d : RateDirection)
    (h : conn.rateTracker.Stale (d.readAt reading)) :
    d.shown (conn.refreshPass reading) = smoothRate 0 (d.shown conn) := by
  rcases refreshPass_cases conn reading with hpass | ⟨hpass, hzero⟩
  · rw [hpass, d.shown_refreshRates, h.prune.rateAt_eq_zero]
  · rw [hpass, hasNonzeroRates_eq_false_iff.mp hzero d, smoothRate_zero_zero]

theorem shown_afterPasses_of_stale (d : RateDirection)
    (h : ∀ n, conn.rateTracker.Stale (d.readAt (readings n))) (n : ℕ) :
    d.shown (conn.afterPasses readings n) = (smoothRate 0)^[n] (d.shown conn) := by
  induction n with
  | zero => rfl
  | succ n ih =>
    rw [afterPasses, shown_refreshPass_of_stale d (stale_afterPasses (h n) n), ih,
      Function.iterate_succ_apply']

/-- Without traffic a connection comes to show zero in both directions, and once it is idle for long
enough, the passes leave it out. -/
theorem exists_shown_zero
    (h : ∀ (d : RateDirection) (n : ℕ), conn.rateTracker.Stale (d.readAt (readings n))) :
    ∃ n, ∀ m, n ≤ m → (conn.afterPasses readings m).hasNonzeroRates = false ∧
      (30 < (conn.afterPasses readings m).idleSecs (readings m).wall →
        conn.afterPasses readings (m + 1) = conn.afterPasses readings m) := by
  -- each direction gets to zero in its own time
  obtain ⟨i, hi⟩ := exists_smoothRate_iterate_zero (RateDirection.shown .incoming conn)
  obtain ⟨o, ho⟩ := exists_smoothRate_iterate_zero (RateDirection.shown .outgoing conn)
  refine ⟨max i o, fun m hm => ?_⟩
  have hzero : (conn.afterPasses readings m).hasNonzeroRates = false := by
    rw [hasNonzeroRates_eq_false_iff]
    intro d
    rw [shown_afterPasses_of_stale d (h d)]
    rcases d with _ | _
    · exact ho m ((le_max_right i o).trans hm)
    · exact hi m ((le_max_left i o).trans hm)
  refine ⟨hzero, fun hidle => ?_⟩
  -- neither reason for a refresh is left
  rw [afterPasses, refreshPass, if_neg]
  rintro (hrecent | hnonzero)
  · exact absurd hidle (not_lt.mpr hrecent)
  · rw [hzero] at hnonzero
    exact absurd hnonzero Bool.false_ne_true

end RatedConnection

end RustNet
