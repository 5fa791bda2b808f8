import Mathlib.Algebra.Order.Field.Rat
import RustNet.Foundations.Table
import RustNet.Network.Types.Basic

/-!
# Round-trip times, rates and TCP analytics

The measuring state of a connection and of the tracker: `RttTracker` (SYN to SYN-ACK times),
`RateTracker` (byte-count samples in a sliding window) and `TcpAnalytics` (sequence numbers and
anomaly counters). The functions that read a clock take the reading as an argument.
-/

namespace RustNet

/-- The clock readings one call makes: the monotonic clock, and the wall clock at each connection
key the call visits. -/
structure ClockReading where
  instant : Instant
  wall : String → SystemTime

/-- Both clocks stand at `nanos`. -/
def ClockReading.constant (nanos : ℤ) : ClockReading := ⟨⟨nanos⟩, fun _ => ⟨nanos⟩⟩

/-! ## Round-trip times -/

/-- `ConnectionKey`: the address pair a pending SYN is filed under. -/
structure ConnectionKey where
  localAddr : SocketAddr
  remoteAddr : SocketAddr
deriving DecidableEq

/-- `RttTracker`: the handshakes that wait for their answer, and the round trips of the latest that
were answered. -/
structure RttTracker where
  /-- Pending SYN packets and when they were recorded. -/
  pendingSyns : AList fun _ : ConnectionKey => Instant
  /-- Recent samples, oldest first. -/
  recentRtts : List (Instant × ℕ)
  maxPendingAge : ℕ
  maxRecentRtts : ℕ

namespace RttTracker

/-- `RttTracker::new`: nothing is pending and no sample is held; a handshake may wait for half a
minute. -/
def new : RttTracker where
  pendingSyns := ∅
  recentRtts := []
  maxPendingAge := Duration.fromSecs 30
  maxRecentRtts := 100

/-- `cleanup_stale`: the handshakes that have waited longer than they may are given up. -/
def cleanupStale (t : RttTracker) (now : Instant) : RttTracker :=
  { t with pendingSyns :=
      t.pendingSyns.retain fun _ ts => decide (now.nanos - t.maxPendingAge < ts.nanos) }

/-- `record_syn`: the handshake is pending from now on, in place of an earlier one of the same
key. -/
def recordSyn (t : RttTracker) (key : ConnectionKey) (now : Instant) : RttTracker :=
  { t with pendingSyns := t.pendingSyns.insert key now }.cleanupStale now

/-- `add_rtt_sample`: the sample becomes the latest; when the list is full the oldest one makes room
for it. -/
def addRttSample (t : RttTracker) (rtt : ℕ) (now : Instant) : RttTracker :=
  let recent := if t.maxRecentRtts ≤ t.recentRtts.length then t.recentRtts.tail else t.recentRtts
  { t with recentRtts := recent ++ [(now, rtt)] }

/-- `record_syn_ack`. `Instant::elapsed` saturates at zero. -/
def recordSynAck (t : RttTracker) (key : ConnectionKey) (now : Instant) :
    RttTracker × Option ℕ :=
  match t.pendingSyns.lookup key with
  | some synTime =>
    let rtt := (now.nanos - synTime.nanos).toNat
    ({ t with pendingSyns := t.pendingSyns.erase key }.addRttSample rtt now, some rtt)
  | none => (t, none)

/-- The samples in the window of `take_average_rtt`. -/
def samplesWithin (t : RttTracker) (windowSecs : ℕ) (now : Instant) : List (Instant × ℕ) :=
  t.recentRtts.filter fun sample =>
    decide (now.nanos - Duration.fromSecs windowSecs ≤ sample.1.nanos)

/-- `take_average_rtt`, in milliseconds and without rounding. The samples stay where they are. -/
def takeAverageRtt (t : RttTracker) (windowSecs : ℕ) (now : Instant) : RttTracker × Option ℚ :=
  let samples := (t.samplesWithin windowSecs now).map Prod.snd
  (t,
    if samples.isEmpty then none
    else some ((samples.map fun rtt => (rtt : ℚ) / 1000000).sum / samples.length))

/-- `RttTracker::clear`: nothing is pending and no sample is held any more. -/
def clear (t : RttTracker) : RttTracker :=
  { t with pendingSyns := ∅, recentRtts := [] }

end RttTracker

/-! ## Rates -/

/-- `RateSample`: the bytes that have come in each direction since the sample before it. -/
structure RateSample where
  timestamp : Instant
  deltaSent : UInt64
  deltaReceived : UInt64

/-- `RateTracker`: the samples of the window, and the counts of bytes at the latest update, from
which the next sample is made. -/
structure RateTracker where
  /-- Samples, oldest first. -/
  samples : List RateSample
  windowDuration : ℕ
  lastUpdate : Instant
  maxSamples : ℕ
  lastBytesSent : UInt64
  lastBytesReceived : UInt64

namespace RateTracker

/-- `RateTracker::with_window_duration`: no sample is held, and the counts begin at zero. -/
def withWindowDuration (windowDuration : ℕ) (now : Instant) : RateTracker where
  samples := []
  windowDuration := windowDuration
  lastUpdate := now
  maxSamples := 20000
  lastBytesSent := 0
  lastBytesReceived := 0

/-- `RateTracker::new`: the window is ten seconds long. -/
def new (now : Instant) : RateTracker := withWindowDuration (Duration.fromSecs 10) now

/-- `initialize_with_counts`: the counts that the connection has already are not part of any
sample. -/
def initializeWithCounts (t : RateTracker) (bytesSent bytesReceived : UInt64) : RateTracker :=
  { t with lastBytesSent := bytesSent, lastBytesReceived := bytesReceived }

/-- `u64::saturating_sub`: the difference, or zero where it would be negative. -/
def saturatingSub (a b : UInt64) : UInt64 := if b ≤ a then a - b else 0

/-- The sample that `update_at` makes: the deltas since the last update. -/
def sampleAt (t : RateTracker) (now : Instant) (bytesSent bytesReceived : UInt64) : RateSample where
  timestamp := now
  deltaSent := saturatingSub bytesSent t.lastBytesSent
  deltaReceived := saturatingSub bytesReceived t.lastBytesReceived

/-- The `push_back` of `update_at`, before the overflow guard looks at the length. -/
def pushBack (t : RateTracker) (now : Instant) (bytesSent bytesReceived : UInt64) : RateTracker :=
  { t with samples := t.samples ++ [t.sampleAt now bytesSent bytesReceived] }

/-- `update_at`: push the deltas since the last update and drop the oldest samples over the cap. -/
def updateAt (t : RateTracker) (now : Instant) (bytesSent bytesReceived : UInt64) : RateTracker :=
  let samples := (t.pushBack now bytesSent bytesReceived).samples
  { t with
    samples := samples.drop (samples.length - t.maxSamples)
    lastBytesSent := bytesSent
    lastBytesReceived := bytesReceived
    lastUpdate := now }

end RateTracker

/-! ## TCP analytics -/

/-- `TcpAnalytics`: the latest numbers of both directions, and the events that they have told of. -/
structure TcpAnalytics where
  lastSeqOutbound : UInt32
  lastSeqInbound : UInt32
  lastAckReceived : UInt32
  duplicateAckCount : UInt32
  retransmitCount : UInt64
  outOfOrderCount : UInt64
  fastRetransmitCount : UInt64
  lastWindowSize : UInt16
deriving DecidableEq

/-- `TcpAnalytics::new`: all numbers are zero, which the checks take for not known. -/
def TcpAnalytics.new : TcpAnalytics := ⟨0, 0, 0, 0, 0, 0, 0, 0⟩

end RustNet
