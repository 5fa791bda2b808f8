import Mathlib.Algebra.CharP.Defs
import Mathlib.Data.UInt
import Mathlib.Tactic.NormNum
import RustNet.Foundations.Run
import RustNet.Foundations.SlidingWindow
import RustNet.Network.Types.Measurement

/-!
# The window of a rate tracker

A `RateTracker` pushes a sample with each update, the bytes counted since the update before.
`update_at` takes out the oldest samples over the cap, `prune` also those that are older than the
window, back from the last update. The samples kept are the end of all that were pushed, and those
add up to what the counters have gone up by.

## Main definitions

* `RateTracker.prune`, `RateTracker.calculateRateFromDeltasAt`;
* `RateTracker.step`: one event of a run, an update or a prune;
* `RateTracker.pushed`: the samples that a run pushes.

## Main results

* `Keeps.run`: what a tracker has of the samples pushed;
* `last_add_sum_pushed`: the deltas add up;
* `accounts`: both, from the start of a tracker;
* `rateAt_eq_of_measures`: the rate is what the samples kept add up to, over the time they span.
-/

namespace RustNet

/-- `Instant::duration_since`, which saturates at zero. -/
def Instant.durationSince (now earlier : Instant) : ℕ := (now.nanos - earlier.nanos).toNat

/-- `Duration::as_secs_f64`, without rounding: a duration is a number of nanoseconds here. -/
def Duration.asSecs (d : ℕ) : ℚ := d / 1000000000

namespace RateTracker

/-- `prune`: take out the samples older than the window, then the oldest over the cap. -/
def prune (t : RateTracker) : RateTracker :=
  let cutoffTime := t.lastUpdate.nanos - t.windowDuration
  let samples := t.samples.dropWhile fun oldest => decide (oldest.timestamp.nanos < cutoffTime)
  { t with samples := samples.drop (samples.length - t.maxSamples) }

/-- `calculate_rate_from_deltas_at`, without rounding. The sum wraps, as it does in a release
build. -/
def calculateRateFromDeltasAt (t : RateTracker) (now : Instant)
    (deltaGetter : RateSample → UInt64) : ℚ :=
  if t.samples.length ≤ 1 then 0
  else
    match t.samples.head?, t.samples.getLast? with
    | some oldest, some newest =>
      let ageOfNewest := now.durationSince newest.timestamp
      -- nothing has come for longer than the window, and a tenth of it
      if Duration.asSecs t.windowDuration * (11 / 10) < Duration.asSecs ageOfNewest then 0
      else
        let timeSpan := newest.timestamp.durationSince oldest.timestamp
        -- too short to measure
        if Duration.asSecs timeSpan < 1 then 0
        else ((t.samples.map deltaGetter).sum.toNat : ℚ) / Duration.asSecs timeSpan
    | _, _ => 0

/-- `get_incoming_rate_bps_at`: the rate over the bytes that were received. -/
def getIncomingRateBpsAt (t : RateTracker) (now : Instant) : ℚ :=
  t.calculateRateFromDeltasAt now RateSample.deltaReceived

/-- `get_outgoing_rate_bps_at`: the rate over the bytes that were sent. -/
def getOutgoingRateBpsAt (t : RateTracker) (now : Instant) : ℚ :=
  t.calculateRateFromDeltasAt now RateSample.deltaSent

end RateTracker

/-! ## The two directions -/

/-- A direction of a connection. -/
inductive RateDirection
  | outgoing
  | incoming

namespace RateDirection

/-- What a sample has of the direction. -/
def delta : RateDirection → RateSample → UInt64
  | outgoing => RateSample.deltaSent
  | incoming => RateSample.deltaReceived

/-- The counter of the direction at the last update. -/
def last : RateDirection → RateTracker → UInt64
  | outgoing => RateTracker.lastBytesSent
  | incoming => RateTracker.lastBytesReceived

/-- The rate of the direction. -/
def rateAt : RateDirection → RateTracker → Instant → ℚ
  | outgoing => RateTracker.getOutgoingRateBpsAt
  | incoming => RateTracker.getIncomingRateBpsAt

theorem rateAt_eq (d : RateDirection) (t : RateTracker) (now : Instant) :
    d.rateAt t now = t.calculateRateFromDeltasAt now d.delta := by
  cases d <;> rfl

end RateDirection

/-! ## Runs -/

/-- What happens to a tracker. -/
inductive RateEvent
  | update (now : Instant) (bytesSent bytesReceived : UInt64)
  | prune

/-- The counter of a direction, where an update gives it. -/
def RateEvent.count : RateEvent → RateDirection → Option UInt64
  | update _ bytesSent _, .outgoing => some bytesSent
  | update _ _ bytesReceived, .incoming => some bytesReceived
  | prune, _ => none

/-- The last counter of a direction that the events give, or else `initial`. -/
def lastCount (d : RateDirection) (initial : UInt64) (events : List RateEvent) : UInt64 :=
  events.foldl (fun count event => (event.count d).getD count) initial

namespace RateTracker

/-- One event at the tracker: an update with the counts at its time, or a pruning. -/
def step (t : RateTracker) : RateEvent → RateTracker
  | .update now bytesSent bytesReceived => t.updateAt now bytesSent bytesReceived
  | .prune => t.prune

/-- The samples that an event pushes: what `push_back` puts behind those that are there, whatever
the guards then take out at the front. -/
def pushedBy (t : RateTracker) : RateEvent → List RateSample
  | .update now bytesSent bytesReceived =>
    (t.pushBack now bytesSent bytesReceived).samples.drop t.samples.length
  | .prune => []

/-- The samples that a run pushes, oldest first. -/
def pushed (t : RateTracker) (events : List RateEvent) : List RateSample :=
  (Run.outputs step pushedBy t events).flatten

/-- Neither the clock nor a counter goes back. -/
def InOrder (t : RateTracker) : RateEvent → Prop
  | .update now bytesSent bytesReceived =>
    t.lastUpdate.nanos ≤ now.nanos ∧ t.lastBytesSent ≤ bytesSent ∧
      t.lastBytesReceived ≤ bytesReceived
  | .prune => True

instance (t : RateTracker) : (event : RateEvent) → Decidable (t.InOrder event)
  | .update _ _ _ => inferInstanceAs (Decidable (_ ∧ _ ∧ _))
  | .prune => inferInstanceAs (Decidable True)

/-- Where the window starts: its duration before the latest update. Older samples are pruned. -/
def cutoff (t : RateTracker) : ℤ := t.lastUpdate.nanos - t.windowDuration

variable {t : RateTracker} {event : RateEvent} {events : List RateEvent} {prior : List RateSample}

@[simp]
theorem pushed_nil (t : RateTracker) : t.pushed [] = [] := rfl

@[simp]
theorem pushed_cons (t : RateTracker) (event : RateEvent) (events : List RateEvent) :
    t.pushed (event :: events) = t.pushedBy event ++ (t.step event).pushed events := by
  rw [pushed, Run.outputs, List.flatten_cons, pushed]

/-! ## What an event changes -/

@[simp]
theorem step_windowDuration (t : RateTracker) (event : RateEvent) :
    (t.step event).windowDuration = t.windowDuration := by
  cases event <;> rfl

@[simp]
theorem step_maxSamples (t : RateTracker) (event : RateEvent) :
    (t.step event).maxSamples = t.maxSamples := by
  cases event <;> rfl

@[simp]
theorem last_step (d : RateDirection) (t : RateTracker) (event : RateEvent) :
    d.last (t.step event) = (event.count d).getD (d.last t) := by
  cases event <;> cases d <;> rfl

/-- An update pushes one sample, that of the deltas. -/
@[simp]
theorem pushedBy_update (t : RateTracker) (now : Instant) (bytesSent bytesReceived : UInt64) :
    t.pushedBy (.update now bytesSent bytesReceived) =
      [t.sampleAt now bytesSent bytesReceived] :=
  List.drop_left

theorem samples_updateAt (t : RateTracker) (now : Instant) (bytesSent bytesReceived : UInt64) :
    (t.updateAt now bytesSent bytesReceived).samples =
      SlidingWindow.newest t.maxSamples
        (t.samples ++ t.pushedBy (.update now bytesSent bytesReceived)) := by
  rw [pushedBy_update]
  rfl

theorem samples_prune (t : RateTracker) :
    t.prune.samples = SlidingWindow.newest t.maxSamples
      (SlidingWindow.expire (fun sample => sample.timestamp.nanos) t.cutoff t.samples) := rfl

theorem windowDuration_run (t : RateTracker) (events : List RateEvent) :
    (events.foldl step t).windowDuration = t.windowDuration := by
  induction events generalizing t with
  | nil => rfl
  | cons event events ih => rw [List.foldl_cons, ih, step_windowDuration]

theorem maxSamples_run (t : RateTracker) (events : List RateEvent) :
    (events.foldl step t).maxSamples = t.maxSamples := by
  induction events generalizing t with
  | nil => rfl
  | cons event events ih => rw [List.foldl_cons, ih, step_maxSamples]

theorem last_run (d : RateDirection) (t : RateTracker) (events : List RateEvent) :
    d.last (events.foldl step t) = lastCount d (d.last t) events := by
  induction events generalizing t with
  | nil => rfl
  | cons event events ih =>
    rw [List.foldl_cons, ih, last_step, lastCount, lastCount, List.foldl_cons]

/-! ## The samples kept -/

/-- What a tracker has of the samples pushed so far. -/
structure Keeps (t : RateTracker) (pushed : List RateSample) : Prop where
  holds : SlidingWindow.Holds (fun sample => sample.timestamp.nanos) t.maxSamples t.cutoff pushed
    t.samples
  pairwise : pushed.Pairwise fun a b => a.timestamp.nanos ≤ b.timestamp.nanos
  le_lastUpdate : ∀ sample ∈ pushed, sample.timestamp.nanos ≤ t.lastUpdate.nanos

namespace Keeps

/-- An update pushes a sample. -/
theorem updateAt (h : t.Keeps prior) {now : Instant} {bytesSent bytesReceived : UInt64}
    (hnow : t.lastUpdate.nanos ≤ now.nanos) :
    (t.updateAt now bytesSent bytesReceived).Keeps
      (prior ++ t.pushedBy (.update now bytesSent bytesReceived)) := by
  -- time moves on, and the window with it
  have hcutoff : t.cutoff ≤ (t.updateAt now bytesSent bytesReceived).cutoff :=
    sub_le_sub_right hnow _
  have hle : ∀ sample ∈ prior, sample.timestamp.nanos ≤ now.nanos :=
    fun sample hsample => (h.le_lastUpdate sample hsample).trans hnow
  refine ⟨?_, ?_, ?_⟩
  · rw [samples_updateAt, pushedBy_update]
    exact (h.holds.mono hcutoff).push _
  · -- the new sample is the latest
    rw [pushedBy_update]
    refine List.pairwise_append.mpr ⟨h.pairwise, List.pairwise_singleton _ _, ?_⟩
    rintro a ha b hb
    rw [List.mem_singleton.mp hb]
    exact hle a ha
  · intro sample hsample
    rcases List.mem_append.mp hsample with hsample | hsample
    · exact hle sample hsample
    · rw [pushedBy_update] at hsample
      rw [List.mem_singleton.mp hsample]
      exact le_rfl

/-- A prune pushes none. -/
theorem prune (h : t.Keeps prior) : t.prune.Keeps prior := by
  refine ⟨?_, h.pairwise, h.le_lastUpdate⟩
  -- what was under the cap still is
  have hexpire := h.holds.expire
  rw [samples_prune, SlidingWindow.newest_of_length_le hexpire.length_le]
  exact hexpire

theorem step (h : t.Keeps prior) (horder : t.InOrder event) :
    (t.step event).Keeps (prior ++ t.pushedBy event) := by
  cases event with
  | update now bytesSent bytesReceived => exact h.updateAt horder.1
  | prune =>
    rw [pushedBy, List.append_nil]
    exact h.prune

/-- What a tracker has of the samples of a run. -/
theorem run (h : t.Keeps prior) (horder : Run.Along RateTracker.step InOrder t events) :
    (events.foldl RateTracker.step t).Keeps (prior ++ t.pushed events) := by
  induction events generalizing t prior with
  | nil => simpa using h
  | cons event events ih =>
    rw [pushed_cons, ← List.append_assoc]
    exact ih (h.step horder.1) horder.2

/-- After a prune no sample is older than the window. -/
theorem cutoff_le (h : t.Keeps prior) {sample : RateSample} (hsample : sample ∈ t.prune.samples) :
    t.cutoff ≤ sample.timestamp.nanos := by
  rw [samples_prune] at hsample
  exact SlidingWindow.le_of_mem_expire (h.pairwise.sublist h.holds.suffix.sublist)
    ((SlidingWindow.newest_suffix _ _).subset hsample)

end Keeps

/-! ## The sum of the deltas -/

theorem toNat_saturatingSub_add {a b : UInt64} (h : b ≤ a) :
    b.toNat + (saturatingSub a b).toNat = a.toNat := by
  rw [saturatingSub, if_pos h, UInt64.toNat_sub_of_le a b h]
  have := UInt64.le_iff_toNat_le.mp h
  omega

/-- An event pushes what its counter has gone up by. -/
theorem last_add_sum_pushedBy (d : RateDirection) (horder : t.InOrder event) :
    (d.last t).toNat + ((t.pushedBy event).map fun sample => (d.delta sample).toNat).sum =
      (d.last (t.step event)).toNat := by
  cases event with
  | prune => cases d <;> rfl
  | update now bytesSent bytesReceived =>
    obtain ⟨-, hsent, hreceived⟩ := horder
    cases d with
    | outgoing =>
      rw [last_step]
      simpa [sampleAt, RateDirection.delta, RateDirection.last, RateEvent.count] using
        toNat_saturatingSub_add hsent
    | incoming =>
      rw [last_step]
      simpa [sampleAt, RateDirection.delta, RateDirection.last, RateEvent.count] using
        toNat_saturatingSub_add hreceived

/-- The deltas of a run add up to what its counter has gone up by. -/
theorem last_add_sum_pushed (d : RateDirection) (horder : Run.Along step InOrder t events) :
    (d.last t).toNat + ((t.pushed events).map fun sample => (d.delta sample).toNat).sum =
      (d.last (events.foldl step t)).toNat := by
  induction events generalizing t with
  | nil => rfl
  | cons event events ih =>
    -- the counter after the first event is the one that the others start from
    rw [pushed_cons, List.map_append, List.sum_append, ← Nat.add_assoc,
      last_add_sum_pushedBy d horder.1, ih horder.2, List.foldl_cons]

/-! ## From the start of a tracker -/

/-- A new tracker with the counts of its connection. -/
def start (windowDuration : ℕ) (created : Instant) (bytesSent bytesReceived : UInt64) :
    RateTracker :=
  (withWindowDuration windowDuration created).initializeWithCounts bytesSent bytesReceived

theorem keeps_start (windowDuration : ℕ) (created : Instant) (bytesSent bytesReceived : UInt64) :
    (start windowDuration created bytesSent bytesReceived).Keeps [] :=
  ⟨SlidingWindow.Holds.nil _ _ _, List.Pairwise.nil, by simp⟩

/-- What is to hold after `events`, which a new tracker `t` starts with. -/
structure Accounts (t : RateTracker) (events : List RateEvent) : Prop where
  /-- Every update of the run puts one sample behind those that are there, and only then takes out
  the oldest over the cap. -/
  updated : ∀ before now bytesSent bytesReceived after,
    events = before ++ .update now bytesSent bytesReceived :: after →
      ∃ sample, (before.foldl step t).pushedBy (.update now bytesSent bytesReceived) = [sample] ∧
        ((before ++ [.update now bytesSent bytesReceived]).foldl step t).samples =
          SlidingWindow.newest t.maxSamples ((before.foldl step t).samples ++ [sample])
  /-- The deltas pushed add up, in both directions. -/
  sum_eq : ∀ d : RateDirection,
    (((t.pushed events).map fun sample => (d.delta sample).toNat).sum : ℤ) =
      (lastCount d (d.last t) events).toNat - (d.last t).toNat
  /-- The samples kept are the end of those pushed. -/
  suffix : (events.foldl step t).samples <:+ t.pushed events
  length_le : (events.foldl step t).samples.length ≤ t.maxSamples
  /-- A prune that comes next leaves none older than the window. -/
  cutoff_le : ∀ sample ∈ (events.foldl step t).prune.samples,
    (events.foldl step t).lastUpdate.nanos - t.windowDuration ≤ sample.timestamp.nanos

/-- **The samples of a tracker account for its counters, and what is kept is the end of them.** The
counts at the start, the window and the times are any; the run is of updates and prunes at which
neither the clock nor a counter goes back (`horder`). What an update pushes is read off the samples
before the cap takes any out, so the sum is over the whole run. -/
theorem accounts (windowDuration : ℕ) (created : Instant) (bytesSent bytesReceived : UInt64)
    (events : List RateEvent)
    (horder : Run.Along step InOrder
      (start windowDuration created bytesSent bytesReceived) events) :
    Accounts (start windowDuration created bytesSent bytesReceived) events := by
  have hkeeps := (keeps_start windowDuration created bytesSent bytesReceived).run horder
  rw [List.nil_append] at hkeeps
  refine ⟨?_, fun d => ?_, hkeeps.holds.suffix, ?_, fun sample hsample => ?_⟩
  · intro before now sent received after _
    refine ⟨_, pushedBy_update _ now sent received, ?_⟩
    rw [List.foldl_append, ← pushedBy_update, ← maxSamples_run _ before]
    exact samples_updateAt _ now sent received
  · have hsum := last_add_sum_pushed d horder
    rw [last_run] at hsum
    omega
  -- neither the cap nor the window changes on the way
  · rw [← maxSamples_run _ events]
    exact hkeeps.holds.length_le
  · rw [← windowDuration_run _ events]
    exact hkeeps.cutoff_le hsample

theorem accounts_three : Accounts (start (Duration.fromSecs 10) ⟨0⟩ 100 7)
    [.update ⟨5000000000⟩ 150 7, .prune, .update ⟨20000000000⟩ 400 9] :=
  accounts _ _ _ _ _ (by decide)

/-! ## The rate -/

/-- The newest sample is recent enough, and the samples span a second, so that there is a rate. -/
def Measures (t : RateTracker) (now : Instant) : Prop :=
  ∃ oldest newest, t.samples.head? = some oldest ∧ t.samples.getLast? = some newest ∧
    Duration.asSecs (now.durationSince newest.timestamp) ≤
      Duration.asSecs t.windowDuration * (11 / 10) ∧
    1 ≤ Duration.asSecs (newest.timestamp.durationSince oldest.timestamp)

variable {now : Instant} {oldest newest : RateSample}

theorem rateAt_eq_ite (d : RateDirection) (hlen : ¬ t.samples.length ≤ 1)
    (holdest : t.samples.head? = some oldest) (hnewest : t.samples.getLast? = some newest) :
    d.rateAt t now =
      if Duration.asSecs t.windowDuration * (11 / 10) <
          Duration.asSecs (now.durationSince newest.timestamp) then 0
      else if Duration.asSecs (newest.timestamp.durationSince oldest.timestamp) < 1 then 0
      else ((t.samples.map d.delta).sum.toNat : ℚ) /
        Duration.asSecs (newest.timestamp.durationSince oldest.timestamp) := by
  rw [RateDirection.rateAt_eq, calculateRateFromDeltasAt, if_neg hlen, holdest, hnewest]

/-- Without that the rate is zero. -/
theorem rateAt_eq_zero (d : RateDirection) (h : ¬ t.Measures now) : d.rateAt t now = 0 := by
  -- with a single sample there is no time to divide by
  by_cases hlen : t.samples.length ≤ 1
  · rw [RateDirection.rateAt_eq, calculateRateFromDeltasAt, if_pos hlen]
  have hne : t.samples ≠ [] := by
    intro hnil
    simp [hnil] at hlen
  have holdest := List.head?_eq_some_head hne
  have hnewest := List.getLast?_eq_some_getLast hne
  rw [rateAt_eq_ite d hlen holdest hnewest]
  split_ifs with hage hspan
  · rfl
  · rfl
  · -- both tests passed
    exact absurd ⟨_, _, holdest, hnewest, not_lt.mp hage, not_lt.mp hspan⟩ h

theorem toNat_sum {l : List UInt64} (h : (l.map UInt64.toNat).sum < 2 ^ 64) :
    l.sum.toNat = (l.map UInt64.toNat).sum := by
  induction l with
  | nil => rfl
  | cons a l ih =>
    rw [List.map_cons, List.sum_cons] at h ⊢
    rw [List.sum_cons, UInt64.toNat_add, ih (by omega), Nat.mod_eq_of_lt h]

/-- With it, the rate is what the samples kept add up to, over the time they span. -/
theorem rateAt_eq_of_measures (d : RateDirection)
    (hsum : ((t.samples.map fun sample => (d.delta sample).toNat)).sum < 2 ^ 64)
    (holdest : t.samples.head? = some oldest) (hnewest : t.samples.getLast? = some newest)
    (h : t.Measures now) :
    d.rateAt t now = ((t.samples.map fun sample => (d.delta sample).toNat).sum : ℚ) /
      Duration.asSecs (newest.timestamp.durationSince oldest.timestamp) := by
  obtain ⟨oldest', newest', holdest', hnewest', hage, hspan⟩ := h
  obtain rfl := Option.some.inj (holdest.symm.trans holdest')
  obtain rfl := Option.some.inj (hnewest.symm.trans hnewest')
  have hlen : ¬ t.samples.length ≤ 1 := by
    -- one sample alone would span no time
    intro hlen
    obtain ⟨rest, hrest⟩ := List.head?_eq_some_iff.mp holdest
    obtain rfl : rest = [] := by
      rw [hrest, List.length_cons] at hlen
      exact List.eq_nil_of_length_eq_zero (by omega)
    rw [hrest] at hnewest
    obtain rfl := Option.some.inj hnewest
    simp [Instant.durationSince, Duration.asSecs] at hspan
    exact absurd hspan (by norm_num)
  rw [rateAt_eq_ite d hlen holdest hnewest, if_neg (not_lt.mpr hage), if_neg (not_lt.mpr hspan),
    toNat_sum (by rwa [List.map_map]), List.map_map]
  rfl

/-- The samples kept add up to no more than the counter. -/
theorem sum_samples_lt (d : RateDirection)
    (hsuffix : (events.foldl step t).samples <:+ t.pushed events)
    (horder : Run.Along step InOrder t events) :
    ((events.foldl step t).samples.map fun sample => (d.delta sample).toNat).sum < 2 ^ 64 := by
  obtain ⟨dropped, hdropped⟩ := hsuffix
  -- they are part of all that were pushed, and the counter is of 64 bits
  have hsum := last_add_sum_pushed d horder
  rw [← hdropped, List.map_append, List.sum_append] at hsum
  have hlast := (d.last (events.foldl step t)).toNat_lt
  omega

end RateTracker

end RustNet
