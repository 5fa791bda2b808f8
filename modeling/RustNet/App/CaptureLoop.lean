import RustNet.Foundations.Run
import RustNet.Network.Types.Basic

/-!
# The capture loop

The loop of `start_capture_thread`: it collects packets in a batch, hands the batch to the packet
processors over a bounded channel, and once a second reads the statistics of the capture. A batch
that the full channel rejects is added to the shared counter `packets_dropped`; the statistics are
stored in the same counter. What the capture, the channel and the clock answer is part of the
event. The log lines and the PCAP export are left out.

## Main definitions

* `CaptureLoop`, `CaptureLoop.step`: the state of the loop, and the way to its next write;
* `CaptureLoop.DropsAccounted`: the counter never falls, and covers the rejected packets.

## Main results

* `dropsAccounted_iff`: the drops are accounted for exactly if no statistic is stored that is below
  the counter, and no addition wraps.
-/

namespace RustNet

/-- The part of `CaptureStats` that the loop stores. -/
structure CaptureStats where
  dropped : UInt32

/-- The result of `try_send` on the bounded channel to the packet processors: `full` and
`disconnected` are its two errors. -/
inductive TrySend
  | sent | full | disconnected
deriving DecidableEq

/-- What the environment answers on the way to the next write: the stop flag, the capture, the
channel, the capture's statistics if they can be read, and the clock before and after. -/
structure CaptureEvent where
  shouldStop : Bool
  nextPacket : Except String (Option (List UInt8))
  trySend : TrySend
  stats : Option CaptureStats
  now : Instant
  later : Instant

/-- Where the loop is between two of its writes. All that lies between two of these points is one
step. -/
inductive LoopPoint
  /-- At the top, before `next_packet`. -/
  | reading
  /-- After a timeout, before the statistics are checked. -/
  | checkingStats
  /-- The loop has been left. -/
  | stopped
deriving DecidableEq

/-- The capacity of a batch. -/
def batchCapacity : ℕ := 100

/-- How long a batch may wait: `Duration::from_millis(100)`. -/
def batchInterval : ℕ := 100000000

/-- The variables of the loop, and the shared counter. -/
structure CaptureLoop where
  point : LoopPoint
  batch : List (List UInt8)
  /-- A batch is sent as soon as it is full. -/
  batch_lt : batch.length < batchCapacity
  batchDeadline : Instant
  lastStatsCheck : Instant
  /-- `AppStats::packets_dropped`. -/
  packetsDropped : UInt64
  /-- The packets in rejected batches, counted for the specification only. -/
  rejected : ℕ

namespace CaptureLoop

/-- Before the first iteration, `now` on the clock. -/
def start (now : Instant) : CaptureLoop where
  point := .reading
  batch := []
  batch_lt := by decide
  batchDeadline := ⟨now.nanos + batchInterval⟩
  lastStatsCheck := now
  packetsDropped := 0
  rejected := 0

/-- The batch has waited long enough: `Instant::now() >= batch_deadline`, with the reading of the
event. -/
def DeadlineReached (s : CaptureLoop) (e : CaptureEvent) : Prop :=
  s.batchDeadline.nanos ≤ e.now.nanos

/-- The statistics are read again: `last_stats_check.elapsed() > Duration::from_secs(1)`, with the
reading of the event. -/
def StatsDue (s : CaptureLoop) (e : CaptureEvent) : Prop :=
  Duration.fromSecs 1 < (e.now.nanos - s.lastStatsCheck.nanos).toNat

instance (s : CaptureLoop) (e : CaptureEvent) : Decidable (s.DeadlineReached e) := by
  unfold DeadlineReached
  infer_instance

instance (s : CaptureLoop) (e : CaptureEvent) : Decidable (s.StatsDue e) := by
  unfold StatsDue
  infer_instance

/-- Hand `toSend` to the packet processors and go on with an empty batch at `point`. A batch that
the full channel rejects is counted; a closed channel ends the loop. -/
def sendBatch (s : CaptureLoop) (toSend : List (List UInt8)) (point : LoopPoint)
    (e : CaptureEvent) : CaptureLoop :=
  let batchSize := toSend.length
  let s := { s with batch := [], batch_lt := by decide }
  let rearmed := ⟨e.later.nanos + batchInterval⟩
  match e.trySend with
  | .sent => { s with point := point, batchDeadline := rearmed }
  -- the processors are behind, so that the batch is lost and counted
  | .full =>
    { s with
      point := point
      batchDeadline := rearmed
      packetsDropped := s.packetsDropped + UInt64.ofNat batchSize
      rejected := s.rejected + batchSize }
  -- all processors are gone, which ends the loop
  | .disconnected => { s with point := .stopped }

/-- From the top of the loop to the next iteration, or to the check of the statistics. -/
def read (s : CaptureLoop) (e : CaptureEvent) : CaptureLoop :=
  if e.shouldStop then { s with point := .stopped }
  else
    match e.nextPacket with
    | .ok (some packet) =>
      let batch := s.batch ++ [packet]
      if h : batchCapacity ≤ batch.length ∨ s.DeadlineReached e then s.sendBatch batch .reading e
      else { s with batch := batch, batch_lt := by omega }
    | .ok none =>
      -- a timeout flushes a partial batch whose deadline has come
      if s.batch ≠ [] ∧ s.DeadlineReached e then s.sendBatch s.batch .checkingStats e
      else { s with point := .checkingStats }
    | .error _ => { s with point := .stopped }

/-- The check of the statistics, after a timeout. -/
def checkStats (s : CaptureLoop) (e : CaptureEvent) : CaptureLoop :=
  if s.StatsDue e then
    let s := match e.stats with
      | some stats => { s with packetsDropped := stats.dropped.toUInt64 }
      | none => s
    { s with point := .reading, lastStatsCheck := e.later }
  else { s with point := .reading }

/-- The way to the next write of the counter. -/
def step (s : CaptureLoop) (e : CaptureEvent) : CaptureLoop :=
  match s.point with
  | .reading => s.read e
  | .checkingStats => s.checkStats e
  | .stopped => s

/-! ## What a step does to the counter -/

/-- The batch that a step hands to the channel. -/
def toSend (s : CaptureLoop) (e : CaptureEvent) : Option (List (List UInt8)) :=
  match s.point, e.shouldStop, e.nextPacket with
  | .reading, false, .ok (some packet) =>
    if batchCapacity ≤ (s.batch ++ [packet]).length ∨ s.DeadlineReached e then
      some (s.batch ++ [packet])
    else none
  | .reading, false, .ok none =>
    if s.batch ≠ [] ∧ s.DeadlineReached e then some s.batch else none
  | _, _, _ => none

/-- The number of packets that a step finds rejected. -/
def rejects (s : CaptureLoop) (e : CaptureEvent) : ℕ :=
  if e.trySend = .full then ((s.toSend e).map List.length).getD 0 else 0

/-- The statistics that a step stores. -/
def stores (s : CaptureLoop) (e : CaptureEvent) : Option CaptureStats :=
  if s.point = .checkingStats ∧ s.StatsDue e then e.stats else none

variable (s : CaptureLoop) (e : CaptureEvent)

theorem sendBatch_packetsDropped (toSend : List (List UInt8)) (point : LoopPoint) :
    (s.sendBatch toSend point e).packetsDropped =
      s.packetsDropped + UInt64.ofNat (if e.trySend = .full then toSend.length else 0) := by
  unfold sendBatch
  cases e.trySend with
  | full => rfl
  | sent => exact (UInt64.add_zero _).symm
  | disconnected => exact (UInt64.add_zero _).symm

theorem sendBatch_rejected (toSend : List (List UInt8)) (point : LoopPoint) :
    (s.sendBatch toSend point e).rejected =
      s.rejected + if e.trySend = .full then toSend.length else 0 := by
  unfold sendBatch
  cases e.trySend with
  | full => rfl
  | sent => rfl
  | disconnected => rfl

/-- From the top of the loop, a step hands a batch over, or leaves both counts alone. -/
theorem read_cases (hpoint : s.point = .reading) :
    (∃ batch point, s.toSend e = some batch ∧ s.read e = s.sendBatch batch point e) ∨
      s.toSend e = none ∧ (s.read e).packetsDropped = s.packetsDropped ∧
        (s.read e).rejected = s.rejected := by
  unfold read toSend
  rw [hpoint]
  cases e.shouldStop with
  | true => exact Or.inr ⟨rfl, rfl, rfl⟩
  | false =>
    rcases e.nextPacket with message | _ | packet
    · exact Or.inr ⟨rfl, rfl, rfl⟩
    -- a timeout
    · by_cases hflush : s.batch ≠ [] ∧ s.DeadlineReached e
      · exact Or.inl ⟨s.batch, .checkingStats, by simp [hflush], by simp [hflush]⟩
      · exact Or.inr (by simp [hflush])
    -- a packet
    · by_cases hsend : batchCapacity ≤ (s.batch ++ [packet]).length ∨ s.DeadlineReached e
      · exact Or.inl ⟨s.batch ++ [packet], .reading, if_pos hsend, dif_pos hsend⟩
      · refine Or.inr ⟨if_neg hsend, ?_⟩
        simp only [Bool.false_eq_true, if_false, dif_neg hsend, and_self]

/-- A batch has at most one packet over what may wait. -/
theorem length_toSend_le {batch : List (List UInt8)} (h : s.toSend e = some batch) :
    batch.length ≤ batchCapacity := by
  have hlt := s.batch_lt
  unfold toSend at h
  split at h
  -- a packet makes the batch longer by one, and the batch was below its capacity
  next packet _ _ _ =>
    split at h
    · obtain rfl := Option.some.inj h
      rw [List.length_append, List.length_singleton]
      exact hlt
    · cases h
  next =>
    split at h
    · obtain rfl := Option.some.inj h
      exact hlt.le
    · cases h
  next => cases h

theorem rejects_of_toSend_eq_some {batch : List (List UInt8)} (h : s.toSend e = some batch) :
    s.rejects e = if e.trySend = .full then batch.length else 0 := by
  rw [rejects, h]
  rfl

theorem rejects_of_toSend_eq_none (h : s.toSend e = none) : s.rejects e = 0 := by
  rw [rejects, h]
  exact ite_self 0

theorem stores_of_point_ne (h : s.point ≠ .checkingStats) : s.stores e = none :=
  if_neg fun hstores => h hstores.1

theorem rejects_of_point_ne (h : s.point ≠ .reading) : s.rejects e = 0 := by
  refine s.rejects_of_toSend_eq_none e ?_
  unfold toSend
  split
  next hpoint _ _ => exact absurd hpoint h
  next hpoint _ _ => exact absurd hpoint h
  next => rfl

/-- What a step does to the counts: statistics replace the counter, and otherwise what a step finds
rejected is added to both counts. -/
theorem step_counts :
    (s.step e).rejected = s.rejected + s.rejects e ∧
      (s.step e).packetsDropped = match s.stores e with
        | some stats => stats.dropped.toUInt64
        | none => s.packetsDropped + UInt64.ofNat (s.rejects e) := by
  unfold step
  cases hpoint : s.point with
  | reading =>
    rw [s.stores_of_point_ne e (by rw [hpoint]; decide)]
    dsimp only
    rcases s.read_cases e hpoint with ⟨batch, point, hbatch, hread⟩ | ⟨hbatch, hcounter, hrejected⟩
    · rw [hread, sendBatch_rejected, sendBatch_packetsDropped,
        s.rejects_of_toSend_eq_some e hbatch]
      exact ⟨rfl, rfl⟩
    · rw [hcounter, hrejected, s.rejects_of_toSend_eq_none e hbatch]
      exact ⟨rfl, (UInt64.add_zero _).symm⟩
  | checkingStats =>
    -- only here is the counter overwritten
    rw [s.rejects_of_point_ne e (by rw [hpoint]; decide)]
    dsimp only
    unfold checkStats stores
    by_cases hdue : s.StatsDue e
    · rw [if_pos hdue, if_pos ⟨hpoint, hdue⟩]
      cases e.stats with
      | some stats => exact ⟨rfl, rfl⟩
      | none => exact ⟨rfl, (UInt64.add_zero _).symm⟩
    · rw [if_neg hdue, if_neg fun h => hdue h.2]
      exact ⟨rfl, (UInt64.add_zero _).symm⟩
  | stopped =>
    rw [s.rejects_of_point_ne e (by rw [hpoint]; decide),
      s.stores_of_point_ne e (by rw [hpoint]; decide)]
    exact ⟨rfl, (UInt64.add_zero _).symm⟩

/-- A step does not both reject a batch and store statistics. -/
theorem rejects_of_stores {stats : CaptureStats} (h : s.stores e = some stats) :
    s.rejects e = 0 := by
  refine s.rejects_of_point_ne e fun hpoint => ?_
  rw [s.stores_of_point_ne e (by rw [hpoint]; decide)] at h
  cases h

theorem rejects_le : s.rejects e ≤ batchCapacity := by
  cases h : s.toSend e with
  | none =>
    rw [s.rejects_of_toSend_eq_none e h]
    exact Nat.zero_le _
  | some batch =>
    rw [s.rejects_of_toSend_eq_some e h]
    split
    · exact s.length_toSend_le e h
    · exact Nat.zero_le _

/-! ## The accounting over a run -/

/-- The counter never falls, and is at least the number of packets rejected so far. -/
def DropsAccounted (s : CaptureLoop) (events : List CaptureEvent) : Prop :=
  (∀ before part after, events = before ++ part ++ after →
      (before.foldl step s).packetsDropped.toNat ≤
        ((before ++ part).foldl step s).packetsDropped.toNat) ∧
    Run.Always step (fun s => s.rejected ≤ s.packetsDropped.toNat) s events

/-- A step that stores no statistics below the counter, and does not take the counter past its
end. -/
def CountsOn (s : CaptureLoop) (e : CaptureEvent) : Prop :=
  s.packetsDropped.toNat + s.rejects e < 2 ^ 64 ∧
    ∀ stats ∈ s.stores e, s.packetsDropped ≤ stats.dropped.toUInt64

/-- One step: with the rejected packets covered so far, it keeps the counter from falling and the
rejected packets covered exactly if it counts on. -/
theorem step_accounted_iff (hs : s.rejected ≤ s.packetsDropped.toNat) :
    (s.packetsDropped.toNat ≤ (s.step e).packetsDropped.toNat ∧
        (s.step e).rejected ≤ (s.step e).packetsDropped.toNat) ↔ s.CountsOn e := by
  obtain ⟨hrejected, hcounter⟩ := s.step_counts e
  rw [hrejected, hcounter, CountsOn]
  cases hstores : s.stores e with
  | some stats =>
    have hlt := s.packetsDropped.toNat_lt
    rw [s.rejects_of_stores e hstores]
    constructor
    · rintro ⟨hle, -⟩
      refine ⟨hlt, fun stats' hstats' => ?_⟩
      obtain rfl := Option.some.inj hstats'
      exact UInt64.le_iff_toNat_le.mpr hle
    · rintro ⟨-, hstored⟩
      have hle := UInt64.le_iff_toNat_le.mp (hstored stats rfl)
      exact ⟨hle, hs.trans hle⟩
  | none =>
    have hle := s.rejects_le e
    have hcapacity : batchCapacity < 2 ^ 64 := by decide
    -- a sum that wraps is below its first summand
    have hsum : (s.packetsDropped + UInt64.ofNat (s.rejects e)).toNat =
        (s.packetsDropped.toNat + s.rejects e) % 2 ^ 64 := by
      rw [UInt64.toNat_add, UInt64.toNat_ofNat_of_lt' (hle.trans_lt hcapacity)]
    have hlt := s.packetsDropped.toNat_lt
    dsimp only
    rw [hsum]
    constructor
    · rintro ⟨hkept, -⟩
      refine ⟨?_, fun _ h => nomatch h⟩
      omega
    · rintro ⟨hroom, -⟩
      rw [Nat.mod_eq_of_lt hroom]
      omega

/-- The drops are accounted for throughout a run exactly if no step stores statistics below the
counter, and no addition takes the counter past its end. A run is any list of events: what the
capture handle gives, what the clock shows, whether the channel takes the batch. The counter has 64
bits, and the statistics of libpcap, which it is set to, have 32. -/
theorem dropsAccounted_iff (now : Instant) (events : List CaptureEvent) :
    (start now).DropsAccounted events ↔ Run.Along step CountsOn (start now) events := by
  let covered : CaptureLoop → Prop := fun s => s.rejected ≤ s.packetsDropped.toNat
  -- nothing has been rejected at the start
  have hstart : covered (start now) := Nat.zero_le _
  have hcovered : Run.Always step covered (start now) events ↔
      Run.Along step (fun s e => covered (s.step e)) (start now) events :=
    Run.always_iff_along (fun _ _ _ => Iff.rfl) hstart
  -- where the rejections are covered, a step keeps that exactly if it counts them
  have hcounts : Run.Along step (fun s e =>
      s.packetsDropped.toNat ≤ (s.step e).packetsDropped.toNat ∧ covered (s.step e))
      (start now) events ↔ Run.Along step CountsOn (start now) events :=
    Run.along_congr (I := covered) (P := fun _ => True)
      (fun s e hs _ => s.step_accounted_iff e hs) (fun _ _ _ _ h => h.2) hstart fun _ _ => trivial
  have hfalls := @Run.monotone_iff_along _ _ _ step (start now) events _
    fun s => s.packetsDropped.toNat
  rw [← hcounts]
  constructor
  · rintro ⟨hkept, hcover⟩
    exact (hfalls.mp hkept).and (hcovered.mp hcover)
  · intro h
    exact ⟨hfalls.mpr (h.mono fun _ _ => And.left), hcovered.mpr (h.mono fun _ _ => And.right)⟩

/-- A batch of one packet is rejected between two readings of the statistics, and the kernel has
dropped nothing. -/
def rejectedBatch : List CaptureEvent :=
  let timeout (nanos : ℤ) : CaptureEvent := ⟨false, .ok none, .sent, some ⟨0⟩, ⟨nanos⟩, ⟨nanos⟩⟩
  [timeout 2000000000, timeout 2000000000,
    ⟨false, .ok (some [0x45]), .full, none, ⟨3000000000⟩, ⟨3000000000⟩⟩,
    timeout 4000000000, timeout 4000000000]

/-- The second reading takes the rejected packet off the counter. -/
theorem rejectedBatch_not_accounted :
    (rejectedBatch.filterMap fun e => e.stats.map CaptureStats.dropped).Pairwise (· ≤ ·) ∧
      ((rejectedBatch.take 3).foldl step (start ⟨0⟩)).packetsDropped = 1 ∧
      (rejectedBatch.foldl step (start ⟨0⟩)).packetsDropped = 0 ∧
      (rejectedBatch.foldl step (start ⟨0⟩)).rejected = 1 ∧
      ¬ (start ⟨0⟩).DropsAccounted rejectedBatch := by
  refine ⟨by decide +kernel, by decide +kernel, by decide +kernel, by decide +kernel, fun h => ?_⟩
  exact absurd h.2.last (by decide +kernel)

end CaptureLoop

end RustNet
