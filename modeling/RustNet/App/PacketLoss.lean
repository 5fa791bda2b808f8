import RustNet.Foundations.Threads
import RustNet.Network.Tracker.Analytics
import RustNet.Network.Types.TrafficHistory

/-!
# Packet loss

The packet processors count every retransmission as they find it, and the packets of a batch when
the batch is done. Once a second the traffic history thread reads the two counters, one after the
other, and adds a sample with what each has gained. The user may clear everything, which resets the
counters one by one and leaves what the history thread has read last.

The threads take turns in any order. The ingest of a packet is one step with the addition to the
totals, and each other access to a counter is a step of its own. The packets that a batch holds and
what parsing makes of them are part of the event, as are the readings of the clocks.

## Main definitions

* `LossMonitor`, `LossMonitor.step`: the counters and the threads, and their steps;
* `LossMonitor.LossBounded`: no sample has gained more retransmissions than packets;
* `LossMonitor.Synchronized`: the steps that keep the two counters in line.

## Main results

* `covered_step`: such a step keeps the retransmissions that a sample will find covered by packets;
* `always_lossBounded_of_along`: in a run of such steps the reported loss is a percentage.
-/

namespace RustNet

/-- A batch that a packet processor works on. -/
structure Batch where
  /-- `batch.len()`. -/
  size : ℕ
  /-- What parsing makes of the packets still to come; `none` also where it panics. -/
  rest : List (Option ParsedPacket)
  /-- The retransmissions found so far, counted for the specification only. -/
  counted : ℕ
  /-- A packet counts for one retransmission at most. -/
  counted_le : counted + rest.length ≤ size

/-- Where a packet processor is. -/
inductive ProcessorPoint
  /-- Before `recv_timeout`. -/
  | waiting
  /-- With a batch. -/
  | processing (batch : Batch)

/-- The retransmissions that a processor has counted and whose packets it has not. -/
def ProcessorPoint.counted : ProcessorPoint → ℕ
  | .waiting => 0
  | .processing batch => batch.counted

@[simp]
theorem ProcessorPoint.counted_waiting : ProcessorPoint.waiting.counted = 0 := rfl

@[simp]
theorem ProcessorPoint.counted_processing (batch : Batch) :
    (ProcessorPoint.processing batch).counted = batch.counted := rfl

/-- Where `clear_all_connections` is: each store into a counter is a step of its own. -/
inductive ClearPoint
  | idle
  /-- Before the traffic history is cleared, and so on in the order of the source. -/
  | clearingHistory
  | resettingPackets
  | resettingRetransmits
  | resettingOutOfOrder
  | resettingFastRetransmits
deriving DecidableEq

/-- Where the traffic history thread is. -/
inductive SamplerPoint
  /-- Before `packets_processed` is read. -/
  | idle
  /-- Before `total_tcp_retransmits` is read. -/
  | loaded (currentPackets : UInt64)
  /-- With both deltas, before the sample is added. -/
  | computed (packetsDelta retransmitsDelta : UInt64)

/-- The history thread has read the one counter and not yet the other. -/
def SamplerPoint.isLoaded : SamplerPoint → Bool
  | .loaded _ => true
  | _ => false

/-- The history thread has read neither counter. -/
def SamplerPoint.isIdle : SamplerPoint → Bool
  | .idle => true
  | _ => false

/-- What the history thread reads besides the counters: the rates of the interfaces, the size of the
snapshot and the clock. -/
structure SamplerReading where
  totalRx : UInt64
  totalTx : UInt64
  connectionCount : ℕ
  now : Instant

/-- The counters, and the threads that share them. -/
structure LossMonitor (ι : Type*) where
  tracker : ConnectionTracker
  /-- The TCP totals of `AppStats`. -/
  stats : AppStats
  /-- `AppStats::packets_processed`. -/
  packetsProcessed : UInt64
  trafficHistory : TrafficHistory
  processors : ι → ProcessorPoint
  clearing : ClearPoint
  sampler : SamplerPoint
  prevPackets : UInt64
  prevRetransmits : UInt64
  /-- The deltas of packets and retransmissions of all samples, for the specification only. -/
  added : List (UInt64 × UInt64)
  /-- `packets_processed` was reset after it was last read, for the specification only. -/
  reset : Bool

/-- A step of a thread, with what the environment decides for it. -/
inductive LossEvent (ι : Type*)
  /-- A processor receives a batch. -/
  | receive (i : ι) (packets : List (Option ParsedPacket))
  /-- A processor takes the next packet of its batch, or ends the batch. -/
  | process (i : ι) (now : SystemTime) (clock : ClockReading)
  /-- The cleanup thread sweeps. -/
  | cleanup (now : SystemTime) (order : IterOrder String) (clock : ClockReading)
  /-- The user clears everything, or the clearing goes on. -/
  | clear
  /-- The history thread goes on. -/
  | sample (reading : SamplerReading)

/-! ## The counters as numbers -/

/-- The two counters, what was read of them last, and the retransmissions counted ahead of their
packets. -/
structure LossTally where
  packets : ℕ
  retransmits : ℕ
  prevPackets : ℕ
  prevRetransmits : ℕ
  counted : ℕ
  /-- The packets were reset after they were last read. -/
  reset : Bool
  /-- The packets are reset, and the retransmissions are about to be. -/
  erasing : Bool

namespace LossTally

/-- The retransmissions gained since the last sample are covered by the packets gained. After a
reset the next sample finds none. -/
def Balanced (t : LossTally) : Prop :=
  if t.reset then t.erasing = true ∨ t.retransmits ≤ t.prevRetransmits
  else t.retransmits + t.prevPackets ≤ t.prevRetransmits + t.packets + t.counted

/-- The deltas that the history thread computes, or has computed, are in order. -/
def Covered (t : LossTally) : SamplerPoint → Prop
  | .idle => t.Balanced
  | .loaded currentPackets =>
    t.retransmits - t.prevRetransmits ≤ currentPackets.toNat - t.prevPackets ∧
      (t.reset = false → currentPackets.toNat ≤ t.packets)
  | .computed packetsDelta retransmitsDelta => t.Balanced ∧ retransmitsDelta ≤ packetsDelta

variable {t : LossTally} {point : SamplerPoint}

/-- The end of a batch counts its packets, which are at least as many as its retransmissions. -/
theorem Covered.addPackets (h : t.Covered point) {size counted : ℕ}
    (hcounted : t.counted ≤ counted + size) :
    ({ t with packets := t.packets + size, counted := counted } : LossTally).Covered point := by
  have hbalanced : t.Balanced →
      ({ t with packets := t.packets + size, counted := counted } : LossTally).Balanced := by
    unfold Balanced
    split_ifs
    · exact id
    · dsimp only
      omega
  cases point with
  | idle => exact hbalanced h
  | loaded currentPackets => exact ⟨h.1, fun hreset => (h.2 hreset).trans (Nat.le_add_right _ _)⟩
  | computed packetsDelta retransmitsDelta => exact ⟨hbalanced h.1, h.2⟩

/-- A retransmission is counted ahead of its packet. -/
theorem Covered.addRetransmit (h : t.Covered point) (hpoint : point.isLoaded = false)
    (hreset : t.reset = true → t.erasing = true ∨ t.retransmits < t.prevRetransmits) :
    ({ t with retransmits := t.retransmits + 1, counted := t.counted + 1 } : LossTally).Covered
      point := by
  have hbalanced : t.Balanced →
      ({ t with retransmits := t.retransmits + 1, counted := t.counted + 1 } :
        LossTally).Balanced := by
    unfold Balanced
    split_ifs with hset
    · exact fun _ => hreset hset
    · dsimp only
      omega
  -- by `hpoint` the sampler is not between its two loads
  cases point with
  | idle => exact hbalanced h
  | loaded currentPackets => exact absurd hpoint (by simp [SamplerPoint.isLoaded])
  | computed packetsDelta retransmitsDelta => exact ⟨hbalanced h.1, h.2⟩

/-- The packets are reset, and the retransmissions are about to be. -/
theorem Covered.resetPackets (h : t.Covered point) :
    ({ t with packets := 0, reset := true, erasing := true } : LossTally).Covered point := by
  cases point with
  -- nothing is claimed of the retransmissions until they are reset too
  | idle => simp [Covered, Balanced]
  | loaded currentPackets => exact ⟨h.1, fun hreset => absurd hreset (by simp)⟩
  | computed packetsDelta retransmitsDelta => exact ⟨by simp [Balanced], h.2⟩

/-- The retransmissions are reset after the packets. -/
theorem Covered.resetRetransmits (h : t.Covered point) (hreset : t.reset = true) :
    ({ t with retransmits := 0, erasing := false } : LossTally).Covered point := by
  cases point with
  | idle => simp [Covered, Balanced, hreset]
  | loaded currentPackets =>
    exact ⟨by simp, fun hset => absurd (hreset.symm.trans hset) (by simp)⟩
  | computed packetsDelta retransmitsDelta => exact ⟨by simp [Balanced, hreset], h.2⟩

/-- The packets are read while no retransmission is ahead of its packet. -/
theorem Covered.load (h : t.Covered .idle) (hcounted : t.counted = 0) (herasing : t.erasing = false)
    {currentPackets : UInt64} (hcurrent : currentPackets.toNat = t.packets) :
    ({ t with reset := false } : LossTally).Covered (.loaded currentPackets) := by
  refine ⟨?_, fun _ => hcurrent.le⟩
  unfold Covered Balanced at h
  dsimp only
  split_ifs at h with hreset
  -- after a reset the retransmissions have fallen behind their last reading
  · have hle := h.resolve_left (by simp [herasing])
    omega
  · omega

/-- The retransmissions are read after the packets, and both readings are kept. -/
theorem Covered.compute {currentPackets : UInt64} (h : t.Covered (.loaded currentPackets)) :
    ({ t with
      prevPackets := currentPackets.toNat
      prevRetransmits := t.retransmits } : LossTally).Balanced := by
  unfold Balanced
  split_ifs with hreset
  · exact Or.inr le_rfl
  -- packets that came in between the two readings only help
  · have hle := h.2 (Bool.eq_false_of_not_eq_true hreset)
    dsimp only
    omega

end LossTally

namespace ConnectionTracker

variable [DeepPacketInspection]

/-- An ingest reports at most one retransmission. -/
theorem retransmits_ingestAt_le (t : ConnectionTracker) (parsed : ParsedPacket) (now : SystemTime)
    (clock : ClockReading) : (t.ingestAt parsed now clock).2.retransmits.toNat ≤ 1 :=
  t.reportedBy_le .retransmit (.ingestAt parsed now, clock)

end ConnectionTracker

namespace LossMonitor

variable {ι : Type*}

/-- Before the first packet: the tables are empty, all counters are at zero, and every thread is at
its start. -/
def start (ι : Type*) (config : TrackerConfig) (maxSamples : ℕ) : LossMonitor ι where
  tracker := .withConfig config
  stats := .zero
  packetsProcessed := 0
  trafficHistory := .new maxSamples
  processors := fun _ => .waiting
  clearing := .idle
  sampler := .idle
  prevPackets := 0
  prevRetransmits := 0
  added := []
  reset := false

/-- `saturating_sub`: a difference that stops at zero. -/
def saturatingSub (a b : UInt64) : UInt64 := if b ≤ a then a - b else 0

@[simp]
theorem toNat_saturatingSub (a b : UInt64) : (saturatingSub a b).toNat = a.toNat - b.toNat := by
  unfold saturatingSub
  split_ifs with hle
  · exact UInt64.toNat_sub_of_le _ _ hle
  · rw [UInt64.le_iff_toNat_le] at hle
    rw [UInt64.toNat_zero]
    omega

section Steps

variable [DecidableEq ι] [DeepPacketInspection] [SinglePrecision] (s : LossMonitor ι)

/-- A processor that waits for a batch receives one. -/
def receive (i : ι) (packets : List (Option ParsedPacket)) : LossMonitor ι :=
  match s.processors i with
  | .waiting =>
    let batch := ⟨packets.length, packets, 0, by rw [Nat.zero_add]⟩
    { s with processors := Function.update s.processors i (.processing batch) }
  | .processing _ => s

/-- The loop of a packet processor, from one access to the shared state to the next. -/
def process (i : ι) (now : SystemTime) (clock : ClockReading) : LossMonitor ι :=
  match s.processors i with
  | .waiting => s
  | .processing ⟨size, [], _, _⟩ =>
    -- the packets of a batch are counted when it is done, those that do not parse too
    { s with
      packetsProcessed := s.packetsProcessed + UInt64.ofNat size
      processors := Function.update s.processors i .waiting }
  | .processing ⟨size, none :: rest, counted, hle⟩ =>
    let batch := ⟨size, rest, counted, by rw [List.length_cons] at hle; omega⟩
    { s with processors := Function.update s.processors i (.processing batch) }
  | .processing ⟨size, some parsed :: rest, counted, hle⟩ =>
    -- `update_connection`
    let ingested := s.tracker.ingestAt parsed now clock
    let batch := ⟨size, rest, counted + ingested.2.retransmits.toNat, by
      have hone : ingested.2.retransmits.toNat ≤ 1 :=
        s.tracker.retransmits_ingestAt_le parsed now clock
      rw [List.length_cons] at hle
      omega⟩
    { s with
      tracker := ingested.1
      stats := s.stats.update ingested.2
      processors := Function.update s.processors i (.processing batch) }

/-- The next part of `clear_all_connections`. -/
def clear : LossMonitor ι :=
  match s.clearing with
  -- one store after the other, so that the threads may come in between
  | .idle => { s with tracker := s.tracker.clear, clearing := .clearingHistory }
  | .clearingHistory =>
    { s with trafficHistory := s.trafficHistory.clear, clearing := .resettingPackets }
  | .resettingPackets =>
    { s with packetsProcessed := 0, clearing := .resettingRetransmits, reset := true }
  | .resettingRetransmits =>
    { s with
      stats := { s.stats with totalTcpRetransmits := 0 }
      clearing := .resettingOutOfOrder }
  | .resettingOutOfOrder =>
    { s with
      stats := { s.stats with totalTcpOutOfOrder := 0 }
      clearing := .resettingFastRetransmits }
  | .resettingFastRetransmits =>
    { s with stats := { s.stats with totalTcpFastRetransmits := 0 }, clearing := .idle }

/-- The loop of the history thread, from one access to the shared state to the next. -/
def sample (reading : SamplerReading) : LossMonitor ι :=
  match s.sampler with
  | .idle => { s with sampler := .loaded s.packetsProcessed, reset := false }
  | .loaded currentPackets =>
    -- a counter that is below its last reading has been reset, and counts as unchanged
    let currentRetransmits := s.stats.totalTcpRetransmits
    { s with
      sampler := .computed (saturatingSub currentPackets s.prevPackets)
        (saturatingSub currentRetransmits s.prevRetransmits)
      prevPackets := currentPackets
      prevRetransmits := currentRetransmits }
  | .computed packetsDelta retransmitsDelta =>
    let (rtt, avgRttMs) := s.tracker.rtt.takeAverageRtt 1 reading.now
    { s with
      tracker := { s.tracker with rtt := rtt }
      trafficHistory := s.trafficHistory.addSample reading.now reading.totalRx reading.totalTx
        reading.connectionCount packetsDelta retransmitsDelta avgRttMs
      sampler := .idle
      added := (packetsDelta, retransmitsDelta) :: s.added }

/-- One step of one thread. A processor is named by the event; there is one history thread, and one
clear at a time. -/
def step (s : LossMonitor ι) : LossEvent ι → LossMonitor ι
  | .receive i packets => s.receive i packets
  | .process i now clock => s.process i now clock
  | .cleanup now order clock => { s with tracker := (s.tracker.cleanup now order clock).1 }
  | .clear => s.clear
  | .sample reading => s.sample reading

end Steps

/-! ## The bound -/

/-- Every sample ever added has a retransmission delta of at most its packet delta, and the history
reports percentages. -/
def LossBounded (s : LossMonitor ι) : Prop :=
  (∀ d ∈ s.added, d.2 ≤ d.1) ∧
    ∀ sample ∈ s.trafficHistory.samples, sample.packetLossPct ∈ Set.Icc 0 100

/-- The history thread is not between its two reads, and after a reset of the packets the total of
retransmissions stays within what was read last, or is about to be reset too. It does not wrap. -/
def MayCount (s : LossMonitor ι) : Prop :=
  s.stats.totalTcpRetransmits.toNat + 1 < 2 ^ 64 ∧ s.sampler.isLoaded = false ∧
    (s.reset = true → s.clearing = .resettingRetransmits ∨
      s.stats.totalTcpRetransmits < s.prevRetransmits)

/-- The packets counted do not wrap; a retransmission is counted only when it may be; and the
history thread starts to read when no processor has counted a retransmission in a batch that is not
done, and no clear is between the two counters. -/
def Synchronized [DeepPacketInspection] (s : LossMonitor ι) : LossEvent ι → Prop
  | .process i now clock =>
    match s.processors i with
    | .processing ⟨size, [], _, _⟩ => s.packetsProcessed.toNat + size < 2 ^ 64
    | .processing ⟨_, some parsed :: _, _, _⟩ =>
      (s.tracker.ingestAt parsed now clock).2.retransmits = 0 ∨ s.MayCount
    | _ => True
  | .sample _ =>
    s.sampler.isIdle = true →
      (∀ i, (s.processors i).counted = 0) ∧ s.clearing ≠ .resettingRetransmits
  | _ => True

instance (s : LossMonitor ι) : Decidable s.MayCount := by
  unfold MayCount
  infer_instance

instance [Fintype ι] [DeepPacketInspection] (s : LossMonitor ι) (e : LossEvent ι) :
    Decidable (s.Synchronized e) := by
  unfold Synchronized
  split
  · split <;> infer_instance
  · infer_instance
  · infer_instance

/-! ## The invariant -/

section Invariant

variable [Fintype ι]

/-- The counters as numbers, with the batches under way: what the invariant of the run is about. -/
def tally (s : LossMonitor ι) : LossTally where
  packets := s.packetsProcessed.toNat
  retransmits := s.stats.totalTcpRetransmits.toNat
  prevPackets := s.prevPackets.toNat
  prevRetransmits := s.prevRetransmits.toNat
  counted := ∑ i, (s.processors i).counted
  reset := s.reset
  erasing := decide (s.clearing = .resettingRetransmits)

/-- What the next sample finds is covered, and the samples added are bounded. -/
structure Covered (s : LossMonitor ι) : Prop where
  clearing : s.clearing = .resettingRetransmits → s.reset = true
  next : s.tally.Covered s.sampler
  bounded : s.LossBounded

theorem covered_start (config : TrackerConfig) (maxSamples : ℕ) :
    (start ι config maxSamples).Covered where
  clearing := nofun
  next := by
    simp [start, tally, LossTally.Covered, LossTally.Balanced, AppStats.zero,
      ProcessorPoint.counted]
  bounded := ⟨by simp [start], by simp [start, TrafficHistory.new]⟩

variable [DecidableEq ι] [DeepPacketInspection] [SinglePrecision] {s : LossMonitor ι}

omit [DeepPacketInspection] [SinglePrecision] in
/-- A processor that goes on changes what the batches have counted by what its own has. -/
theorem sum_counted_update (s : LossMonitor ι) (i : ι) (point : ProcessorPoint) :
    (∑ j, (Function.update s.processors i point j).counted) + (s.processors i).counted =
      (∑ j, (s.processors j).counted) + point.counted :=
  Threads.sum_update_add ProcessorPoint.counted s.processors i point

omit [DeepPacketInspection] [SinglePrecision] in
/-- A processor that has counted nothing new leaves everything covered. -/
theorem Covered.update (h : s.Covered) {i : ι} {point : ProcessorPoint}
    (hcounted : point.counted = (s.processors i).counted) (tracker : ConnectionTracker) :
    ({ s with
      tracker := tracker
      processors := Function.update s.processors i point } : LossMonitor ι).Covered := by
  have hsum := s.sum_counted_update i point
  refine ⟨h.clearing, ?_, h.bounded⟩
  have hsame : (∑ j, (Function.update s.processors i point j).counted) =
      ∑ j, (s.processors j).counted := by omega
  simp only [tally, hsame]
  exact h.next

omit [DeepPacketInspection] [SinglePrecision] in
/-- The packets of a batch cover the retransmissions found in it. -/
theorem Covered.endBatch (h : s.Covered) {i : ι} {size : ℕ}
    (hcounted : (s.processors i).counted ≤ size)
    (hwrap : s.packetsProcessed.toNat + size < 2 ^ 64) :
    ({ s with
      packetsProcessed := s.packetsProcessed + UInt64.ofNat size
      processors := Function.update s.processors i .waiting } : LossMonitor ι).Covered := by
  have hsum := s.sum_counted_update i .waiting
  have hpackets : (s.packetsProcessed + UInt64.ofNat size).toNat =
      s.packetsProcessed.toNat + size := by
    rw [UInt64.toNat_add, UInt64.toNat_ofNat']
    omega
  refine ⟨h.clearing, ?_, h.bounded⟩
  simp only [tally, hpackets]
  apply h.next.addPackets
  rw [ProcessorPoint.counted_waiting] at hsum
  simp only [tally]
  omega

omit [DeepPacketInspection] [SinglePrecision] in
/-- A packet that is no retransmission, or one that may be counted. -/
theorem Covered.ingest (h : s.Covered) {i : ι} {point : ProcessorPoint}
    (tracker : ConnectionTracker) {outcome : IngestOutcome} (hone : outcome.retransmits.toNat ≤ 1)
    (hpoint : point.counted = (s.processors i).counted + outcome.retransmits.toNat)
    (hcount : outcome.retransmits = 0 ∨ s.MayCount) :
    ({ s with
      tracker := tracker
      stats := s.stats.update outcome
      processors := Function.update s.processors i point } : LossMonitor ι).Covered := by
  have hsum := s.sum_counted_update i point
  have htotal : (s.stats.update outcome).totalTcpRetransmits =
      s.stats.totalTcpRetransmits + outcome.retransmits :=
    TcpEventKind.retransmit.total_update s.stats outcome
  refine ⟨h.clearing, ?_, h.bounded⟩
  -- a packet retransmits once at most
  by_cases hzero : outcome.retransmits = 0
  · -- the total and what the batches have counted stay
    rw [hzero, UInt64.toNat_zero, Nat.add_zero] at hpoint
    have hsame : (∑ j, (Function.update s.processors i point j).counted) =
        ∑ j, (s.processors j).counted := by omega
    simp only [tally, htotal, hzero, UInt64.add_zero, hsame]
    exact h.next
  · -- both go up by one
    obtain ⟨hwrap, hloaded, hreset⟩ := hcount.resolve_left hzero
    have hcounted : outcome.retransmits.toNat = 1 := by
      have hne : outcome.retransmits.toNat ≠ 0 := fun heq => hzero (UInt64.toNat_inj.mp heq)
      omega
    have hretransmits : (s.stats.update outcome).totalTcpRetransmits.toNat =
        s.stats.totalTcpRetransmits.toNat + 1 := by
      rw [htotal, UInt64.toNat_add, hcounted]
      omega
    have hmore : (∑ j, (Function.update s.processors i point j).counted) =
        (∑ j, (s.processors j).counted) + 1 := by omega
    simp only [tally, hretransmits, hmore]
    exact h.next.addRetransmit hloaded fun hset => (hreset hset).imp_left decide_eq_true

omit [SinglePrecision] in
theorem covered_process (h : s.Covered) {i : ι} {now : SystemTime} {clock : ClockReading}
    (hsync : s.Synchronized (.process i now clock)) : (s.process i now clock).Covered := by
  unfold process
  split
  -- the processor is idle, ends a batch, drops a packet, or ingests one
  · exact h
  · rename_i size counted hle hpoint
    simp only [Synchronized, hpoint] at hsync
    apply h.endBatch _ hsync
    rw [hpoint]
    exact hle
  · rename_i size rest counted hle hpoint
    exact h.update (by rw [hpoint]; rfl) s.tracker
  · rename_i size parsed rest counted hle hpoint
    simp only [Synchronized, hpoint] at hsync
    apply h.ingest _ (s.tracker.retransmits_ingestAt_le parsed now clock) _ hsync
    rw [hpoint]
    rfl

omit [DecidableEq ι] [DeepPacketInspection] [SinglePrecision] in
theorem covered_clear (h : s.Covered) : s.clear.Covered := by
  have hnext := h.next
  unfold clear
  split
  all_goals rename_i hclearing; simp only [tally, hclearing] at hnext
  -- the tracker and the history
  · exact ⟨nofun, hnext, h.bounded⟩
  · exact ⟨nofun, hnext, h.bounded.1, by simp [TrafficHistory.clear]⟩
  -- the counters of packets and of retransmissions
  · exact ⟨fun _ => rfl, hnext.resetPackets, h.bounded⟩
  · exact ⟨nofun, hnext.resetRetransmits (h.clearing hclearing), h.bounded⟩
  -- the other totals
  · exact ⟨nofun, hnext, h.bounded⟩
  · exact ⟨nofun, hnext, h.bounded⟩

omit [DecidableEq ι] [DeepPacketInspection] in
theorem covered_sample (h : s.Covered) {reading : SamplerReading}
    (hsync : s.sampler.isIdle = true →
      (∀ i, (s.processors i).counted = 0) ∧ s.clearing ≠ .resettingRetransmits) :
    (s.sample reading).Covered := by
  have hnext := h.next
  unfold sample
  split
  all_goals rename_i hsampler; rw [hsampler] at hnext
  -- the packets are read
  · obtain ⟨hcounted, hclearing⟩ := hsync (by rw [hsampler]; rfl)
    refine ⟨fun herasing => absurd herasing hclearing, ?_, h.bounded⟩
    apply hnext.load _ _ rfl
    · exact Finset.sum_eq_zero fun i _ => hcounted i
    · exact decide_eq_false hclearing
  -- the retransmissions are read
  · refine ⟨h.clearing, ⟨hnext.compute, ?_⟩, h.bounded⟩
    rw [UInt64.le_iff_toNat_le, toNat_saturatingSub, toNat_saturatingSub]
    exact hnext.1
  -- the sample is added
  · refine ⟨h.clearing, hnext.1, ?_, ?_⟩
    · intro d hd
      rcases List.mem_cons.mp hd with rfl | hd
      · exact hnext.2
      · exact h.bounded.1 d hd
    · intro sample hsample
      rcases TrafficHistory.mem_addSample hsample with hold | hnew
      · exact h.bounded.2 sample hold
      · rw [hnew]
        exact TrafficSample.lossPct_mem_Icc hnext.2

/-- A synchronized step keeps the next sample covered. -/
theorem covered_step {e : LossEvent ι} (h : s.Covered) (hsync : s.Synchronized e) :
    (s.step e).Covered := by
  cases e with
  | receive i packets =>
    show (s.receive i packets).Covered
    unfold receive
    split
    · rename_i hpoint
      exact h.update (by rw [hpoint]; rfl) s.tracker
    · exact h
  | process i now clock => exact covered_process h hsync
  | cleanup now order clock => exact ⟨h.clearing, h.next, h.bounded⟩
  | clear => exact covered_clear h
  | sample reading => exact covered_sample h hsync

/-- In a run of synchronized steps no sample has gained more retransmissions than packets, and the
reported loss is a percentage. There are any number of processors `ι`, whose steps are taken in any
order with those of the history thread and of a clear. `Synchronized` is about the state before a
step; a step that is not starts a read or counts a retransmission between the two writes of another
thread. -/
theorem always_lossBounded_of_along (config : TrackerConfig) (maxSamples : ℕ)
    {events : List (LossEvent ι)}
    (h : Run.Along step Synchronized (start ι config maxSamples) events) :
    Run.Always step LossBounded (start ι config maxSamples) events :=
  (Run.always_of_along (fun _ _ hs he => covered_step hs he) (covered_start config maxSamples)
    h).mono fun _ hs => hs.bounded

end Invariant

/-! ## Two runs -/

/-- A processor takes copies of one segment from a batch of as many. -/
def sampleBatch (packets : ℕ) : List (LossEvent Unit) :=
  let data := sampleTcpPacket (sampleTcpSegment true 100 100 (sampleFlags false false true))
  .receive () (List.replicate packets (some data)) ::
    List.replicate packets (.process () ⟨0⟩ (.constant 0))

/-- The processor ends its batch. -/
def sampleBatchEnd : List (LossEvent Unit) := [.process () ⟨0⟩ (.constant 0)]

/-- The history thread takes a sample. -/
def sampleReads : List (LossEvent Unit) := List.replicate 3 (.sample ⟨0, 0, 0, ⟨0⟩⟩)

/-- A batch of one retransmission is done between two samples, and the second is taken with two more
retransmissions found in a batch that is not done. -/
def racingRun : List (LossEvent Unit) :=
  sampleBatch 2 ++ sampleBatchEnd ++ sampleReads ++ sampleBatch 1 ++ sampleBatchEnd ++
    sampleBatch 2 ++ sampleReads

/-- The second sample reports a loss of 300 percent. -/
theorem racingRun_not_lossBounded :
    letI : DeepPacketInspection := .silent
    letI : SinglePrecision := .exact
    ¬ LossBounded (racingRun.foldl step (start Unit .default 60)) := by
  intro h
  exact absurd (h.1 (1, 3) (by decide +kernel)) (by decide)

/-- A batch with a retransmission is done before the sample is taken. -/
def orderedRun : List (LossEvent Unit) := sampleBatch 3 ++ sampleBatchEnd ++ sampleReads

/-- The sample reports one retransmission in three packets. -/
theorem orderedRun_lossBounded :
    letI : DeepPacketInspection := .silent
    letI : SinglePrecision := .exact
    let last := orderedRun.foldl step (start Unit .default 60)
    last.added = [(3, 1)] ∧ LossBounded last := by
  have hguard :
      letI : DeepPacketInspection := .silent
      letI : SinglePrecision := .exact
      Run.Along step Synchronized (start Unit .default 60) orderedRun := by decide +kernel
  have hbounded := @always_lossBounded_of_along Unit _ _ .silent .exact .default 60 _ hguard
  exact ⟨by decide +kernel, hbounded.last⟩

end LossMonitor

end RustNet
