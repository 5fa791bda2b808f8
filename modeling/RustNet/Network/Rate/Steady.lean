import Mathlib.Tactic.FieldSimp
import Mathlib.Tactic.Positivity
import Mathlib.Tactic.Ring
import RustNet.Network.Rate.Window

/-!
# The rate of a steady stream

Counters that go up by the same number of bytes at a fixed interval. The samples kept span one
interval less than there are samples, and the rate is what all of them have over that span. The
oldest is one too many: only if it has no bytes, as the first sample of a stream has when the
counters stand still before it, is the rate the true one.

## Main definitions

* `SteadyStream`: the stream, and the tracker it is counted by;
* `SteadyStream.trueRate`: the bytes of an interval over its length.

## Main results

* `SteadyStream.samples_tracker`: the samples kept are consecutive ones of the stream;
* `SteadyStream.rateAt_tracker`: the rate, wherever one is measured;
* `SteadyStream.rateAt_eq_trueRate_iff`: when it is the true one.
-/

namespace RustNet

open RateTracker

/-- A stream of counter updates at a fixed interval, with a fixed number of bytes an interval, and
the tracker that is updated. -/
structure SteadyStream where
  windowDuration : ℕ
  created : Instant
  /-- The counts that the tracker is initialized with. -/
  initial : RateDirection → UInt64
  start : Instant
  created_le : created.nanos ≤ start.nanos
  interval : ℕ
  interval_pos : 0 < interval
  /-- The counts of the first update. -/
  first : RateDirection → ℕ
  initial_le : ∀ d, (initial d).toNat ≤ first d
  perInterval : RateDirection → ℕ

/-- One of the stream's updates, or a prune. -/
inductive StreamEvent
  | update
  | prune
deriving DecidableEq

namespace SteadyStream

/-- When update `k` of the stream comes: the updates keep the same distance from one another. -/
def time (stream : SteadyStream) (k : ℕ) : Instant :=
  ⟨stream.start.nanos + (k * stream.interval : ℕ)⟩

/-- The counts of update `k`. -/
def count (stream : SteadyStream) (k : ℕ) (d : RateDirection) : UInt64 :=
  UInt64.ofNat (stream.first d + k * stream.perInterval d)

/-- The counts before update `k`. -/
def countBefore (stream : SteadyStream) : ℕ → RateDirection → UInt64
  | 0 => stream.initial
  | k + 1 => stream.count k

/-- The events of the tracker, from update `k` on. -/
def events (stream : SteadyStream) : ℕ → List StreamEvent → List RateEvent
  | _, [] => []
  | k, .update :: ops =>
    .update (stream.time k) (stream.count k .outgoing) (stream.count k .incoming) ::
      stream.events (k + 1) ops
  | k, .prune :: ops => .prune :: stream.events k ops

/-- The tracker before the first update. -/
def origin (stream : SteadyStream) : RateTracker :=
  RateTracker.start stream.windowDuration stream.created (stream.initial .outgoing)
    (stream.initial .incoming)

/-- The tracker after updates and prunes. -/
def tracker (stream : SteadyStream) (ops : List StreamEvent) : RateTracker :=
  (stream.events 0 ops).foldl step stream.origin

/-- The counts of all updates fit a counter. -/
def Fits (stream : SteadyStream) (ops : List StreamEvent) : Prop :=
  ∀ d, ∀ k < ops.count .update, stream.first d + k * stream.perInterval d < 2 ^ 64

/-- The bytes of an interval over its length. -/
def trueRate (stream : SteadyStream) (d : RateDirection) : ℚ :=
  stream.perInterval d / Duration.asSecs stream.interval

/-- The sample that update `k` pushes. -/
def sample (stream : SteadyStream) (k : ℕ) : RateSample where
  timestamp := stream.time k
  deltaSent := saturatingSub (stream.count k .outgoing) (stream.countBefore k .outgoing)
  deltaReceived := saturatingSub (stream.count k .incoming) (stream.countBefore k .incoming)

variable {stream : SteadyStream} {ops : List StreamEvent} {d : RateDirection} {t : RateTracker}
  {j k n : ℕ}

/-! ## The samples of the stream -/

theorem toNat_count (h : stream.first d + k * stream.perInterval d < 2 ^ 64) :
    (stream.count k d).toNat = stream.first d + k * stream.perInterval d :=
  UInt64.toNat_ofNat_of_lt' h

theorem countBefore_le (h : stream.first d + k * stream.perInterval d < 2 ^ 64) :
    stream.countBefore k d ≤ stream.count k d := by
  rw [UInt64.le_iff_toNat_le, toNat_count h]
  cases k with
  | zero =>
    have := stream.initial_le d
    simpa [countBefore] using this
  | succ k =>
    have hle : k * stream.perInterval d ≤ (k + 1) * stream.perInterval d :=
      Nat.mul_le_mul_right _ k.le_succ
    rw [countBefore, toNat_count (by omega)]
    omega

theorem delta_sample (stream : SteadyStream) (k : ℕ) (d : RateDirection) :
    d.delta (stream.sample k) = saturatingSub (stream.count k d) (stream.countBefore k d) := by
  cases d <;> rfl

/-- Every sample but the first has the bytes of an interval. -/
theorem toNat_delta_sample_succ (h : stream.first d + (k + 1) * stream.perInterval d < 2 ^ 64) :
    (d.delta (stream.sample (k + 1))).toNat = stream.perInterval d := by
  have hsum := toNat_saturatingSub_add (countBefore_le h)
  rw [← delta_sample, toNat_count h, countBefore, toNat_count (by rw [Nat.succ_mul] at h; omega),
    Nat.succ_mul] at hsum
  omega

/-- The run pushes the samples of the stream, in order. -/
theorem pushed_events (hlast : ∀ d, d.last t = stream.countBefore k d) :
    t.pushed (stream.events k ops) = (List.range' k (ops.count .update)).map stream.sample := by
  induction ops generalizing t k with
  | nil => rfl
  | cons op ops ih =>
    cases op with
    | update =>
      -- the counts before the next update are those of this one
      rw [events, pushed_cons, ih (k := k + 1) (fun d => by cases d <;> rfl),
        List.count_cons_self, List.range'_succ, List.map_cons]
      have hsent : t.lastBytesSent = _ := hlast .outgoing
      have hreceived : t.lastBytesReceived = _ := hlast .incoming
      rw [pushedBy_update, sampleAt, hsent, hreceived]
      rfl
    | prune =>
      have hlast' : ∀ d : RateDirection, d.last (t.step .prune) = stream.countBefore k d :=
        fun d => (last_step d t .prune).trans (hlast d)
      rw [events, pushed_cons, ih hlast', List.count_cons_of_ne (by decide)]
      rfl

/-- Neither the clock nor a counter of the stream goes back. -/
theorem inOrder_events (hlast : ∀ d, d.last t = stream.countBefore k d)
    (htime : t.lastUpdate.nanos ≤ (stream.time k).nanos)
    (hfits : ∀ d, ∀ i < k + ops.count .update, stream.first d + i * stream.perInterval d < 2 ^ 64) :
    Run.Along step InOrder t (stream.events k ops) := by
  induction ops generalizing t k with
  | nil => trivial
  | cons op ops ih =>
    cases op with
    -- the counts fit, so that they rise with the time
    | update =>
      rw [List.count_cons_self] at hfits
      have hle : ∀ d : RateDirection, d.last t ≤ stream.count k d := fun d => by
        rw [hlast d]
        exact countBefore_le (hfits d k (by omega))
      refine ⟨⟨htime, hle .outgoing, hle .incoming⟩, ?_⟩
      refine ih (k := k + 1) (fun d => by cases d <;> rfl) ?_ fun d i hi => hfits d i (by omega)
      show (stream.time k).nanos ≤ _
      simp only [time]
      have : k * stream.interval ≤ (k + 1) * stream.interval := Nat.mul_le_mul_right _ k.le_succ
      omega
    -- a pruning leaves the counts and the time alone
    | prune =>
      rw [List.count_cons_of_ne (by decide)] at hfits
      exact ⟨trivial, ih (fun d => (last_step d t .prune).trans (hlast d)) htime hfits⟩

theorem last_origin (stream : SteadyStream) (d : RateDirection) :
    d.last stream.origin = stream.countBefore 0 d := by
  cases d <;> rfl

theorem inOrder_origin (hfits : stream.Fits ops) :
    Run.Along step InOrder stream.origin (stream.events 0 ops) := by
  refine inOrder_events stream.last_origin ?_ fun d i hi => hfits d i (by omega)
  have hcreated := stream.created_le
  show stream.created.nanos ≤ _
  simp only [time]
  omega

theorem suffix_pushed (hfits : stream.Fits ops) :
    (stream.tracker ops).samples <:+ stream.origin.pushed (stream.events 0 ops) :=
  ((keeps_start _ _ _ _).run (inOrder_origin hfits)).holds.suffix

/-- The samples kept are consecutive ones of the stream. -/
theorem samples_tracker (hfits : stream.Fits ops) :
    ∃ j n, j + n = ops.count .update ∧
      (stream.tracker ops).samples = (List.range' j n).map stream.sample := by
  have hsuffix := suffix_pushed hfits
  rw [pushed_events stream.last_origin] at hsuffix
  have hlen := hsuffix.length_le
  rw [List.length_map, List.length_range'] at hlen
  rw [List.suffix_iff_eq_drop, ← List.map_drop, List.drop_range', List.length_map,
    List.length_range'] at hsuffix
  refine ⟨_, _, ?_, hsuffix⟩
  omega

/-! ## The rate -/

/-- Consecutive samples have the bytes of an interval each, from the second on. -/
theorem sum_delta (hfits : ∀ i < j + (n + 1), stream.first d + i * stream.perInterval d < 2 ^ 64) :
    (((List.range' j (n + 1)).map stream.sample).map fun sample => (d.delta sample).toNat).sum =
      (d.delta (stream.sample j)).toNat + n * stream.perInterval d := by
  rw [List.range'_succ, List.map_cons, List.map_cons, List.sum_cons]
  congr 1
  rw [List.map_map]
  calc ((List.range' (j + 1) n).map _).sum
      = ((List.range' (j + 1) n).map fun _ => stream.perInterval d).sum := by
        congr 1
        refine List.map_congr_left fun i hi => ?_
        obtain ⟨hle, hlt⟩ := List.mem_range'_1.mp hi
        obtain ⟨i, rfl⟩ : ∃ m, i = m + 1 := ⟨i - 1, by omega⟩
        exact toNat_delta_sample_succ (hfits (i + 1) (by omega))
    _ = n * stream.perInterval d := by simp

theorem asSecs_durationSince_time (stream : SteadyStream) (j n : ℕ) :
    Duration.asSecs ((stream.time (j + n)).durationSince (stream.time j)) =
      n * Duration.asSecs stream.interval := by
  have hnanos : (stream.time (j + n)).durationSince (stream.time j) = n * stream.interval := by
    simp only [Instant.durationSince, time, Nat.add_mul]
    omega
  rw [hnanos, Duration.asSecs, Duration.asSecs]
  push_cast
  ring

theorem asSecs_interval_pos (stream : SteadyStream) : 0 < Duration.asSecs stream.interval := by
  have : (0 : ℚ) < stream.interval := by exact_mod_cast stream.interval_pos
  unfold Duration.asSecs
  positivity

/-- The rate, wherever one is measured: the bytes of the oldest sample kept are counted on top of
those of the intervals between the samples. -/
theorem rateAt_tracker (hfits : stream.Fits ops) (htwo : 2 ≤ (stream.tracker ops).samples.length)
    {oldest : RateSample} (holdest : (stream.tracker ops).samples.head? = some oldest)
    {now : Instant} (hmeasures : (stream.tracker ops).Measures now) :
    d.rateAt (stream.tracker ops) now = stream.trueRate d + (d.delta oldest).toNat /
      (((stream.tracker ops).samples.length - 1 : ℕ) * Duration.asSecs stream.interval) := by
  obtain ⟨j, n, hcount, hsamples⟩ := samples_tracker hfits
  rw [hsamples, List.length_map, List.length_range'] at htwo ⊢
  obtain ⟨n, rfl⟩ : ∃ m, n = m + 2 := ⟨n - 2, by omega⟩
  have hhead : oldest = stream.sample j := by
    rw [hsamples, List.range'_succ, List.map_cons] at holdest
    exact (Option.some.inj holdest).symm
  -- from the oldest to the newest there is one interval less than there are samples
  have hnewest : (stream.tracker ops).samples.getLast? = some (stream.sample (j + (n + 1))) := by
    rw [hsamples, List.getLast?_map, List.getLast?_range']
    simp
  have hlt : ((stream.tracker ops).samples.map fun sample => (d.delta sample).toNat).sum < 2 ^ 64 :=
    sum_samples_lt d (suffix_pushed hfits) (inOrder_origin hfits)
  have hspan : Duration.asSecs ((stream.sample (j + (n + 1))).timestamp.durationSince
      (stream.sample j).timestamp) = (n + 1 : ℕ) * Duration.asSecs stream.interval :=
    stream.asSecs_durationSince_time j (n + 1)
  rw [rateAt_eq_of_measures d hlt holdest hnewest hmeasures, hsamples,
    sum_delta fun i hi => hfits d i (by omega), hhead, hspan, trueRate]
  have hinterval := stream.asSecs_interval_pos
  have hn : (0 : ℚ) < (n + 1 : ℕ) := by positivity
  rw [show n + 2 - 1 = n + 1 from rfl]
  push_cast at hn ⊢
  field_simp
  ring

/-- **The rate is the true one exactly if the oldest sample kept has no bytes, where a rate is
measured, and otherwise only if there are none at all.**

The stream sends the same bytes at a fixed interval, among prunes at any times; its counts fit a
counter (`hfits`), and two samples are kept (`htwo`). The rate adds the bytes of all samples, but
the time it divides by starts at the oldest of them. -/
theorem rateAt_eq_trueRate_iff (stream : SteadyStream) (ops : List StreamEvent)
    (hfits : stream.Fits ops) (htwo : 2 ≤ (stream.tracker ops).samples.length) (d : RateDirection)
    (now : Instant) :
    d.rateAt (stream.tracker ops) now = stream.trueRate d ↔
      ((stream.tracker ops).Measures now →
        ∀ oldest ∈ (stream.tracker ops).samples.head?, d.delta oldest = 0) ∧
      (¬ (stream.tracker ops).Measures now → stream.perInterval d = 0) := by
  have hinterval := stream.asSecs_interval_pos
  by_cases hmeasures : (stream.tracker ops).Measures now
  · obtain ⟨oldest, -, holdest, -⟩ := id hmeasures
    have hlen : (0 : ℚ) < ((stream.tracker ops).samples.length - 1 : ℕ) := by
      exact_mod_cast Nat.sub_pos_of_lt htwo
    -- the excess is that of the oldest sample
    rw [rateAt_tracker hfits htwo holdest hmeasures, add_eq_left, div_eq_zero_iff,
      or_iff_left (mul_pos hlen hinterval).ne', Nat.cast_eq_zero]
    simp only [hmeasures, forall_const, not_true_eq_false, false_imp_iff, and_true, holdest,
      Option.mem_some_iff, forall_eq']
    exact ⟨fun h => UInt64.toNat_inj.mp h, fun h => by rw [h]; rfl⟩
  · -- the rate is zero
    rw [rateAt_eq_zero d hmeasures, trueRate, eq_comm, div_eq_zero_iff, or_iff_left hinterval.ne',
      Nat.cast_eq_zero]
    simp only [hmeasures, false_imp_iff, not_false_eq_true, forall_const, true_and]

/-- 100 bytes a second each way, from counters that stand at zero before. -/
def hundredPerSecond : SteadyStream where
  windowDuration := Duration.fromSecs 10
  created := ⟨0⟩
  initial := fun _ => 0
  start := ⟨0⟩
  created_le := le_rfl
  interval := 1000000000
  interval_pos := by decide
  first := fun _ => 0
  initial_le := fun _ => le_rfl
  perInterval := fun _ => 100

theorem fits_hundredPerSecond {ops : List StreamEvent} (h : ops.count .update < 2 ^ 32) :
    hundredPerSecond.Fits ops := by
  intro d k hk
  show 0 + k * 100 < _
  omega

theorem rateAt_eq_trueRate_iff_two :
    RateDirection.outgoing.rateAt (hundredPerSecond.tracker [.update, .update]) ⟨1000000000⟩ =
        hundredPerSecond.trueRate .outgoing ↔
      ((hundredPerSecond.tracker [.update, .update]).Measures ⟨1000000000⟩ →
        ∀ oldest ∈ (hundredPerSecond.tracker [.update, .update]).samples.head?,
          RateDirection.outgoing.delta oldest = 0) ∧
      (¬ (hundredPerSecond.tracker [.update, .update]).Measures ⟨1000000000⟩ →
        hundredPerSecond.perInterval .outgoing = 0) :=
  rateAt_eq_trueRate_iff hundredPerSecond [.update, .update] (fits_hundredPerSecond (by decide))
    (by decide) .outgoing ⟨1000000000⟩

/-- When the first samples have left the window, eleven are there that span ten seconds and have
1100 bytes. -/
theorem not_rateAt_eq_trueRate :
    ¬ ∀ (stream : SteadyStream) (ops : List StreamEvent), stream.Fits ops →
      2 ≤ (stream.tracker ops).samples.length → ∀ (d : RateDirection) (now : Instant),
        d.rateAt (stream.tracker ops) now = stream.trueRate d := by
  intro h
  have hrate := h hundredPerSecond (List.replicate 13 .update ++ [.prune])
    (fits_hundredPerSecond (by decide)) (by decide) .outgoing ⟨12000000000⟩
  have h110 : RateDirection.outgoing.rateAt
      (hundredPerSecond.tracker (List.replicate 13 .update ++ [.prune])) ⟨12000000000⟩ = 110 := by
    decide +kernel
  have h100 : hundredPerSecond.trueRate .outgoing = 100 := by decide +kernel
  rw [h110, h100] at hrate
  exact absurd hrate (by decide)

end SteadyStream

end RustNet
