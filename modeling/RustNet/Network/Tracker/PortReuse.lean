import RustNet.Network.Tcp.Lifecycle
import RustNet.Network.Tracker.Basic

/-!
# Reusing the ports of a closed connection

A closed connection stays in the active table until a cleanup removes it. A new connection between
the same ports is filed under the same key, so its segments are merged into the old entry, and
`TimeWait` and `Closed` are left by no segment but a reset. The new connection is tracked, shown
and timed out in the state of the old one.

## Main definitions

* `ConnectionTracker.TracksAs`: the TCP state of the entry under a key;
* `ConnectionTracker.KeepsEntry`: a call that does not take the entry off the table.

## Main results

* `step_tracksAs`: a segment without RST leaves an entry in `TimeWait` or `Closed` as it is;
* `reuse_not_established`: a new handshake and its data never make the entry `Established`.
-/

namespace RustNet

/-- No segment without RST leaves `TimeWait` or `Closed`. -/
theorem ParsedPacket.tcpStep_of_final {p : ParsedPacket} {state : TcpState} {syn ack fin : Bool}
    (hstate : state = .timeWait ∨ state = .closed) (h : p.HasFlags syn ack fin false) :
    p.tcpStep state = state := by
  rw [tcpStep_of_hasFlags h]
  rcases hstate with rfl | rfl
  · cases syn <;> cases ack <;> cases fin <;> cases p.isOutgoing <;> rfl
  · cases syn <;> cases ack <;> cases fin <;> cases p.isOutgoing <;> rfl

namespace ConnectionTracker

/-- The entry under `key` is a TCP connection in this state. -/
def TracksAs (t : ConnectionTracker) (key : String) (state : TcpState) : Prop :=
  (t.connections.lookup key).map Connection.protocolState = some (.tcp state)

instance (t : ConnectionTracker) (key : String) (state : TcpState) :
    Decidable (t.TracksAs key state) := by
  unfold TracksAs
  infer_instance

theorem tracksAs_iff {t : ConnectionTracker} {key : String} {state : TcpState} :
    t.TracksAs key state ↔
      ∃ conn, t.connections.lookup key = some conn ∧ conn.protocolState = .tcp state := by
  rw [TracksAs, Option.map_eq_some_iff]

/-- The entry under a key has one state. -/
theorem TracksAs.unique {t : ConnectionTracker} {key : String} {state state' : TcpState}
    (h : t.TracksAs key state) (h' : t.TracksAs key state') : state = state' :=
  ProtocolState.tcp.inj (Option.some.inj (h.symm.trans h'))

/-- The arrival that a call ingests. -/
def ingested : Call × ClockReading → Option Arrival
  | (.ingestAt parsed now, clock) => some ⟨parsed, now, clock⟩
  | _ => none

/-- The call that ingests an arrival. -/
def ingestCall (a : Arrival) : Call × ClockReading := (.ingestAt a.parsed a.now, a.clock)

/-- The call does not take the entry under `key` off the table: it is no `clear`, and no cleanup at
which the entry has expired. -/
def KeepsEntry (key : String) (t : ConnectionTracker) : Call × ClockReading → Prop
  | (.ingestAt _ _, _) => True
  | (.cleanup now _, clock) =>
    ∀ conn, t.connections.lookup key = some conn → expired now clock key conn = false
  | (.clear, _) => False

/-- The packet is a TCP segment without RST, filed under `key`. -/
def IsSegmentOf (key : String) (p : ParsedPacket) : Prop :=
  p.connectionKey = key ∧ ∃ syn ack fin, p.HasFlags syn ack fin false

section Reuse

variable [DeepPacketInspection] {t : ConnectionTracker} {key : String} {state : TcpState}

/-- An ingest merges a TCP packet into the entry under its own key. -/
theorem lookup_ingestAt_of_tcp {p : ParsedPacket} {conn : Connection} (hp : p.protocol = .tcp)
    (hconn : t.connections.lookup p.connectionKey = some conn) (now : SystemTime)
    (clock : ClockReading) :
    (t.ingestAt p now clock).1.connections.lookup p.connectionKey =
      some (mergeEntry p now clock (t.rtt.observe p clock.instant).2 conn) := by
  -- a TCP packet is not redirected, and an existing key is never at capacity
  have hid : p.quicConnectionId = none :=
    ParsedPacket.quicConnectionId_eq_none (by rw [hp]; exact Protocol.noConfusion)
  have hkey := resolveKey_of_no_connectionId t p hid
  have hroom : ¬ t.AtCapacity p.connectionKey := fun h => h.1 (AList.mem_of_lookup hconn)
  rw [ingestAt_connections, hkey, if_neg hroom, AList.upsert_of_lookup hconn, AList.lookup_insert]

/-- A segment without RST, or a cleanup that keeps the entry, leaves an entry in `TimeWait` or
`Closed` in its state. -/
theorem step_tracksAs (hstate : state = .timeWait ∨ state = .closed) {e : Call × ClockReading}
    (ht : t.TracksAs key state) (hkeeps : KeepsEntry key t e)
    (hsegment : ∀ a, ingested e = some a → IsSegmentOf key a.parsed) :
    (t.step e).TracksAs key state := by
  rw [tracksAs_iff] at ht ⊢
  obtain ⟨conn, hconn, hconnState⟩ := ht
  obtain ⟨call, clock⟩ := e
  cases call with
  | ingestAt parsed now =>
    -- the segment goes to the merge path, since its key has an entry
    obtain ⟨rfl, syn, ack, fin, hflags⟩ := hsegment _ rfl
    refine ⟨_, lookup_ingestAt_of_tcp hflags.protocol hconn now clock, ?_⟩
    have hmerge := merge_protocolState_of_tcp hconnState ⟨parsed, now, clock⟩
    rw [ParsedPacket.tcpStep_of_final hstate hflags] at hmerge
    exact hmerge
  | cleanup now order =>
    refine ⟨conn, ?_, hconnState⟩
    -- the sweep leaves an entry that has not expired untouched
    change (t.cleanup now order clock).1.connections.lookup key = some conn
    rw [cleanup_connections, AList.lookup_retain, Option.filter_eq_some_iff]
    exact ⟨hconn, by rw [hkeeps conn hconn]; rfl⟩
  | clear => exact hkeeps.elim

/-- While an entry in `TimeWait` or `Closed` (`hstate`, `ht`) is kept (`hkept`), a new handshake
under its key (`hkey`), opened by either side, and any data after it (`hdata`) leave the entry in
its state. The calls are any whose ingests are these (`hcalls`): cleanups may come in between. -/
theorem reuse_not_established (hstate : state = .timeWait ∨ state = .closed)
    (ht : t.TracksAs key state) (h : Handshake) (hkey : h.syn.parsed.connectionKey = key)
    (data : List Arrival)
    (hdata : ∀ a ∈ data, a.parsed.IsAck ∧ a.parsed.connectionKey = key)
    (calls : List (Call × ClockReading))
    (hcalls : calls.filterMap ingested = h.arrivals ++ data)
    (hkept : Run.Along step (KeepsEntry key) t calls) :
    ¬ (t.run calls).TracksAs key .established ∧ (t.run calls).TracksAs key state := by
  -- no segment of the new connection carries RST
  have hsegments : ∀ a ∈ h.arrivals ++ data, IsSegmentOf key a.parsed := by
    intro a ha
    rcases List.mem_append.mp ha with ha | ha
    · simp only [Handshake.arrivals, List.mem_cons, List.not_mem_nil, or_false] at ha
      rcases ha with rfl | rfl | rfl
      · exact ⟨hkey, _, _, _, h.syn_isSyn⟩
      · exact ⟨h.synAck_key.trans hkey, _, _, _, h.synAck_isSynAck⟩
      · exact ⟨h.ack_key.trans hkey, _, _, _, h.ack_isAck⟩
    · exact ⟨(hdata a ha).2, _, _, _, (hdata a ha).1⟩
  have hingests : ∀ e ∈ calls, ∀ a, ingested e = some a → IsSegmentOf key a.parsed := by
    intro e he a ha
    refine hsegments a ?_
    rw [← hcalls]
    exact List.mem_filterMap.mpr ⟨e, he, ha⟩
  -- the invariant is that the entry has its old state
  have hstep : ∀ (t : ConnectionTracker) (e : Call × ClockReading), t.TracksAs key state →
      (KeepsEntry key t e ∧ ∀ a, ingested e = some a → IsSegmentOf key a.parsed) →
        (t.step e).TracksAs key state :=
    fun _ _ ht he => step_tracksAs hstate ht he.1 he.2
  have hend : (t.run calls).TracksAs key state :=
    (Run.always_of_along hstep ht (hkept.and (Run.along_of_forall_mem hingests))).last
  refine ⟨fun hestablished => ?_, hend⟩
  have hunique := hend.unique hestablished
  rcases hstate with rfl | rfl
  · exact TcpState.noConfusion hunique
  · exact TcpState.noConfusion hunique

end Reuse

/-- The key of the sample connection. -/
def sampleKey : String := (sampleArrival true false false .localSide).parsed.connectionKey

/-- A tracker whose only connection, the sample one, was reset. -/
def resetTracker [DeepPacketInspection] : ConnectionTracker :=
  (withConfig .default).run
    [(.ingestAt (.ofTcp (.lan 1 22) (.lan 2 5000)
      { seq := 1
        ack := 1
        window := 0
        flags := ⟨false, false, true, false, true, false⟩
        payloadLen := 0 } false 60) ⟨0⟩, .constant 0)]

/-- The calls that ingest a new handshake of the sample connection and a segment after it. -/
def reuseCalls (opener : Side) : List (Call × ClockReading) :=
  ((sampleHandshake opener).arrivals ++ [sampleArrival false true false opener]).map ingestCall

/-- The sample connection, reset and opened again by the remote side, is tracked as `Closed`. -/
theorem reopened_not_established :
    letI : DeepPacketInspection := .silent
    ¬ (resetTracker.run (reuseCalls .remoteSide)).TracksAs sampleKey .established := by
  decide +kernel

/-- So it is when the local side opens it. -/
theorem reopened_tracksAs_closed :
    letI : DeepPacketInspection := .silent
    (resetTracker.run (reuseCalls .localSide)).TracksAs sampleKey .closed := by
  have hreset : letI : DeepPacketInspection := .silent
      resetTracker.TracksAs sampleKey .closed := by decide +kernel
  have hdata : ∀ a ∈ [sampleArrival false true false .localSide],
      a.parsed.IsAck ∧ a.parsed.connectionKey = sampleKey := by
    intro a ha
    rw [List.mem_singleton.mp ha]
    exact ⟨⟨_, rfl, rfl, rfl, rfl, rfl⟩, rfl⟩
  exact (@reuse_not_established .silent _ _ _ (Or.inr rfl) hreset (sampleHandshake .localSide) rfl
    _ hdata (reuseCalls .localSide) rfl
    ⟨trivial, trivial, trivial, trivial, trivial⟩).2

end ConnectionTracker

end RustNet
