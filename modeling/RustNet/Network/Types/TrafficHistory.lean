import Mathlib.Algebra.Order.Field.Rat
import Mathlib.Order.Monotone.Defs
import Mathlib.Order.Interval.Set.Defs
import Mathlib.Tactic.Linarith
import Mathlib.Tactic.NormNum
import Mathlib.Tactic.Positivity
import RustNet.Network.Types.Basic

/-!
# The traffic history

`TrafficHistory` keeps the last samples of the traffic for the graphs. A sample's packet loss is
computed in single precision; of its rounding only what the bounds need is assumed.

## Main results

* `TrafficSample.lossPct_mem_Icc`: the loss is a percentage if no more packets were retransmitted
  than processed.
-/

namespace RustNet

/-- The rounding to an `f32`, without overflow: it keeps the order, and the small integers
are exact. -/
class SinglePrecision where
  toF32 : ℚ → ℚ
  toF32_mono : Monotone toF32
  toF32_zero : toF32 0 = 0
  toF32_one : toF32 1 = 1
  toF32_hundred : toF32 100 = 100

/-- Arithmetic without rounding, which has all the properties that a rounding must have. -/
abbrev SinglePrecision.exact : SinglePrecision := ⟨id, monotone_id, rfl, rfl, rfl⟩

/-- `TrafficSample`: the rates of all connections together at one time, their number, the share of
packets that were lost and the average round trip. -/
structure TrafficSample where
  timestamp : Instant
  rxBytesPerSec : UInt64
  txBytesPerSec : UInt64
  connectionCount : ℕ
  packetsPerSec : UInt64
  packetLossPct : ℚ
  avgRttMs : Option ℚ

/-- `TrafficHistory`: a ring buffer of samples, oldest first. -/
structure TrafficHistory where
  samples : List TrafficSample
  maxSamples : ℕ

section Loss

variable [SinglePrecision]

open SinglePrecision

/-- The packet loss of a sample. -/
def TrafficSample.lossPct (totalPackets retransmitCount : UInt64) : ℚ :=
  if 0 < totalPackets then
    toF32 (toF32 (toF32 retransmitCount.toNat / toF32 totalPackets.toNat) * 100)
  else 0

theorem toF32_nonneg {q : ℚ} (h : 0 ≤ q) : 0 ≤ toF32 q := by
  simpa only [toF32_zero] using toF32_mono h

theorem toF32_le_one {q : ℚ} (h : q ≤ 1) : toF32 q ≤ 1 := by
  simpa only [toF32_one] using toF32_mono h

theorem toF32_le_hundred {q : ℚ} (h : q ≤ 100) : toF32 q ≤ 100 := by
  simpa only [toF32_hundred] using toF32_mono h

/-- With no more retransmissions than packets, the loss lies between 0 and 100 percent. -/
theorem TrafficSample.lossPct_mem_Icc {totalPackets retransmitCount : UInt64}
    (h : retransmitCount ≤ totalPackets) :
    lossPct totalPackets retransmitCount ∈ Set.Icc 0 100 := by
  unfold lossPct
  split_ifs
  · have hretransmits : 0 ≤ toF32 (retransmitCount.toNat : ℚ) := toF32_nonneg (Nat.cast_nonneg _)
    have hpackets : 0 ≤ toF32 (totalPackets.toNat : ℚ) := toF32_nonneg (Nat.cast_nonneg _)
    have hle : toF32 (retransmitCount.toNat : ℚ) ≤ toF32 (totalPackets.toNat : ℚ) := by
      apply toF32_mono
      exact_mod_cast UInt64.le_iff_toNat_le.mp h
    -- the quotient lies between 0 and 1, and rounding keeps it there
    have hlow := toF32_nonneg (div_nonneg hretransmits hpackets)
    have hhigh := toF32_le_one (div_le_one_of_le₀ hle hpackets)
    constructor
    · apply toF32_nonneg
      positivity
    · apply toF32_le_hundred
      linarith
  · simp

end Loss

namespace TrafficHistory

/-- `TrafficHistory::new`: no sample is held yet. -/
def new (maxSamples : ℕ) : TrafficHistory := ⟨[], maxSamples⟩

/-- `TrafficHistory::clear`: no sample is held any more, and the bound stays. -/
def clear (history : TrafficHistory) : TrafficHistory := { history with samples := [] }

variable [SinglePrecision]

/-- `TrafficHistory::add_sample`. The oldest sample makes room in a full buffer. -/
def addSample (history : TrafficHistory) (now : Instant) (rxBytesPerSec txBytesPerSec : UInt64)
    (connectionCount : ℕ) (totalPackets retransmitCount : UInt64) (avgRttMs : Option ℚ) :
    TrafficHistory :=
  let sample : TrafficSample :=
    { timestamp := now
      rxBytesPerSec := rxBytesPerSec
      txBytesPerSec := txBytesPerSec
      connectionCount := connectionCount
      packetsPerSec := totalPackets
      packetLossPct := TrafficSample.lossPct totalPackets retransmitCount
      avgRttMs := avgRttMs }
  -- the oldest sample makes room for the new one
  let samples :=
    if history.maxSamples ≤ history.samples.length then history.samples.tail else history.samples
  { history with samples := samples ++ [sample] }

/-- A sample of the history was there before, or is the one just added. -/
theorem mem_addSample {history : TrafficHistory} {now : Instant}
    {rxBytesPerSec txBytesPerSec : UInt64} {connectionCount : ℕ}
    {totalPackets retransmitCount : UInt64} {avgRttMs : Option ℚ} {sample : TrafficSample}
    (h : sample ∈ (history.addSample now rxBytesPerSec txBytesPerSec connectionCount totalPackets
      retransmitCount avgRttMs).samples) :
    sample ∈ history.samples ∨
      sample.packetLossPct = TrafficSample.lossPct totalPackets retransmitCount := by
  rcases List.mem_append.mp h with hold | hnew
  · left
    split_ifs at hold with hfull
    · exact List.mem_of_mem_tail hold
    · exact hold
  · right
    rw [List.mem_singleton.mp hnew]

end TrafficHistory

end RustNet
