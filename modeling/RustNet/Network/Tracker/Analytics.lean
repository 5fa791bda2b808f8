import Mathlib.Data.Nat.ModEq
import RustNet.Network.Tcp.Analytics
import RustNet.Network.Tracker.Replay

/-!
# TCP events over a run

Every ingest reports the TCP events it found, and the App adds them to its global totals; the
connection that the packet was merged into counts them too. A connection takes its counters along
when a cleanup removes it, so over a whole run the totals and the counters agree.

The counters are 64 bits wide. Modulo 2^64 the two sides agree always, and they are equal in a run
of fewer than 2^64 calls, as one call raises at most one event of a kind.

## Main definitions

* `TcpEventKind`: the three events that are counted, with their counter and their total;
* `AppStats.update`: what `update_connection` adds to the totals.

## Main results

* `ConnectionTracker.total_step`: one call moves events from its outcome to the counters;
* `ConnectionTracker.events_conserved`: the totals and the counters over a run.
-/

namespace RustNet

/-- The TCP events that are counted. -/
inductive TcpEventKind
  | retransmit
  | outOfOrder
  | fastRetransmit
deriving DecidableEq

/-- The totals of `AppStats` that TCP events go to. -/
structure AppStats where
  totalTcpRetransmits : UInt64
  totalTcpOutOfOrder : UInt64
  totalTcpFastRetransmits : UInt64
deriving DecidableEq

namespace AppStats

/-- The totals at the start. -/
def zero : AppStats := ⟨0, 0, 0⟩

/-- The part of `update_connection` that folds an outcome into the totals. -/
def update (stats : AppStats) (outcome : IngestOutcome) : AppStats where
  totalTcpRetransmits :=
    if 0 < outcome.retransmits then stats.totalTcpRetransmits + outcome.retransmits
    else stats.totalTcpRetransmits
  totalTcpOutOfOrder :=
    if 0 < outcome.outOfOrder then stats.totalTcpOutOfOrder + outcome.outOfOrder
    else stats.totalTcpOutOfOrder
  totalTcpFastRetransmits :=
    if 0 < outcome.fastRetransmits then stats.totalTcpFastRetransmits + outcome.fastRetransmits
    else stats.totalTcpFastRetransmits

end AppStats

namespace TcpEventKind

/-- The counter of a connection's analytics. -/
def counter : TcpEventKind → TcpAnalytics → UInt64
  | .retransmit, a => a.retransmitCount
  | .outOfOrder, a => a.outOfOrderCount
  | .fastRetransmit, a => a.fastRetransmitCount

/-- The events of the kind among those that a segment raises. -/
def raised : TcpEventKind → TcpEvents → UInt64
  | .retransmit, events => events.1
  | .outOfOrder, events => events.2.1
  | .fastRetransmit, events => events.2.2

/-- The events that an ingest reports. -/
def reported : TcpEventKind → IngestOutcome → UInt64
  | .retransmit, outcome => outcome.retransmits
  | .outOfOrder, outcome => outcome.outOfOrder
  | .fastRetransmit, outcome => outcome.fastRetransmits

/-- The App's total of a kind of event, over all connections and also those that are gone. -/
def total : TcpEventKind → AppStats → UInt64
  | .retransmit, stats => stats.totalTcpRetransmits
  | .outOfOrder, stats => stats.totalTcpOutOfOrder
  | .fastRetransmit, stats => stats.totalTcpFastRetransmits

variable (kind : TcpEventKind)

@[simp]
theorem counter_new : kind.counter .new = 0 := by cases kind <;> rfl

@[simp]
theorem total_zero : kind.total .zero = 0 := by cases kind <;> rfl

@[simp]
theorem raised_zero : kind.raised (0, 0, 0) = 0 := by cases kind <;> rfl

/-- Adding nothing is left out, which makes no difference. -/
theorem total_update (stats : AppStats) (outcome : IngestOutcome) :
    kind.total (stats.update outcome) = kind.total stats + kind.reported outcome := by
  have hadd : ∀ total new : UInt64, (if 0 < new then total + new else total) = total + new := by
    intro total new
    split_ifs with hnew
    · rfl
    · rw [UInt64.not_lt, UInt64.le_zero_iff] at hnew
      rw [hnew, UInt64.add_zero]
  cases kind <;> exact hadd _ _

/-- A segment is counted as it is reported. -/
theorem counter_analyze (a : TcpAnalytics) (s : Segment) :
    kind.counter (a.analyze s) = kind.counter a + kind.raised (a.events s) := by
  rw [TcpAnalytics.analyze_eq, TcpAnalytics.events_eq]
  cases kind <;> rfl

/-- A segment raises at most one event of a kind. -/
theorem raised_events_le (a : TcpAnalytics) (s : Segment) :
    (kind.raised (a.events s)).toNat ≤ 1 := by
  have hle : ∀ (p : Prop) [Decidable p], (if p then 1 else 0 : UInt64).toNat ≤ 1 := by
    intro p _
    split_ifs <;> decide
  rw [TcpAnalytics.events_eq]
  cases kind <;> exact hle _

end TcpEventKind

/-! ## One packet -/

/-- The packet's TCP segment, with the direction it has; packets of other protocols have none. -/
def ParsedPacket.segment (parsed : ParsedPacket) : Option Segment :=
  parsed.tcpHeader.map fun header => ⟨header, parsed.isOutgoing⟩

/-- A TCP packet is analysed into the analytics it finds. -/
theorem mergeAnalytics_of_segment {parsed : ParsedPacket} {s : Segment}
    (h : parsed.segment = some s) (a : TcpAnalytics) :
    mergeAnalytics (some a) parsed = (some (a.analyze s), a.events s) := by
  obtain ⟨header, hheader, rfl⟩ := Option.map_eq_some_iff.mp h
  unfold mergeAnalytics
  rw [hheader]
  rfl

/-- Without a TCP header or without analytics nothing is counted. -/
theorem mergeAnalytics_of_none {analytics : Option TcpAnalytics} {parsed : ParsedPacket}
    (h : parsed.segment = none ∨ analytics = none) :
    mergeAnalytics analytics parsed = (analytics, (0, 0, 0)) := by
  rcases h with hsegment | rfl
  · have hheader : parsed.tcpHeader = none := Option.map_eq_none_iff.mp hsegment
    unfold mergeAnalytics
    rw [hheader]
  · unfold mergeAnalytics
    rcases parsed.tcpHeader with _ | header <;> rfl

namespace Connection

/-- The events of a kind that a connection has counted. -/
def eventCount (kind : TcpEventKind) (conn : Connection) : ℕ :=
  conn.tcpAnalytics.elim 0 fun a => (kind.counter a).toNat

theorem eventCount_lt (kind : TcpEventKind) (conn : Connection) : conn.eventCount kind < 2 ^ 64 := by
  rw [eventCount]
  rcases conn.tcpAnalytics with _ | a
  · exact Nat.two_pow_pos 64
  · exact (kind.counter a).toNat_lt

end Connection

section Packet

variable (kind : TcpEventKind) (parsed : ParsedPacket) (now : SystemTime) (clock : ClockReading)

/-- A new connection has counted nothing. -/
theorem freshEntry_eventCount (measuredRtt : Option ℕ) :
    (ConnectionTracker.freshEntry parsed now clock measuredRtt).eventCount kind = 0 := by
  show Connection.eventCount kind (createConnectionFromPacket parsed now clock) = 0
  rw [Connection.eventCount, create_tcpAnalytics]
  split_ifs
  · rw [Option.elim_some, TcpEventKind.counter_new, UInt64.toNat_zero]
  · rfl

variable [DeepPacketInspection]

/-- A merge counts what it reports, modulo 2^64. -/
theorem mergeEntry_eventCount (measuredRtt : Option ℕ) (conn : Connection) :
    (ConnectionTracker.mergeEntry parsed now clock measuredRtt conn).eventCount kind =
      (conn.eventCount kind +
        (kind.raised (mergePacketIntoConnection conn parsed now clock).2).toNat) % 2 ^ 64 := by
  show (mergeAnalytics conn.tcpAnalytics parsed).1.elim 0 (fun a => (kind.counter a).toNat) =
    (conn.eventCount kind + (kind.raised (mergeAnalytics conn.tcpAnalytics parsed).2).toNat) % 2 ^ 64
  rcases hsegment : parsed.segment with _ | s
  · rw [mergeAnalytics_of_none (Or.inl hsegment), TcpEventKind.raised_zero, UInt64.toNat_zero,
      Nat.add_zero, Nat.mod_eq_of_lt (conn.eventCount_lt kind)]
    rfl
  -- an entry without analytics counts nothing, and does not get any
  · rcases hanalytics : conn.tcpAnalytics with _ | a
    · rw [mergeAnalytics_of_none (Or.inr rfl), TcpEventKind.raised_zero, Connection.eventCount,
        hanalytics]
      rfl
    · rw [mergeAnalytics_of_segment hsegment, Option.elim_some, TcpEventKind.counter_analyze,
        UInt64.toNat_add, Connection.eventCount, hanalytics, Option.elim_some]

/-- A merge reports at most one event of a kind. -/
theorem raised_merge_le (conn : Connection) :
    (kind.raised (mergePacketIntoConnection conn parsed now clock).2).toNat ≤ 1 := by
  show (kind.raised (mergeAnalytics conn.tcpAnalytics parsed).2).toNat ≤ 1
  rcases hsegment : parsed.segment with _ | s
  · rw [mergeAnalytics_of_none (Or.inl hsegment), TcpEventKind.raised_zero]
    decide
  · rcases hanalytics : conn.tcpAnalytics with _ | a
    · rw [mergeAnalytics_of_none (Or.inr rfl), TcpEventKind.raised_zero]
      decide
    · rw [mergeAnalytics_of_segment hsegment]
      exact kind.raised_events_le a s

end Packet

namespace ConnectionTracker

variable [DeepPacketInspection]

/-- The outcome of a call, for an ingest. -/
def outcomeOf (t : ConnectionTracker) : Call × ClockReading → Option IngestOutcome
  | (.ingestAt parsed now, clock) => some (t.ingestAt parsed now clock).2
  | _ => none

/-- The events of a kind in the outcome of a call. -/
def reportedBy (kind : TcpEventKind) (outcome : Option IngestOutcome) : ℕ :=
  outcome.elim 0 fun outcome => (kind.reported outcome).toNat

/-! ## One call -/

section Step

variable (kind : TcpEventKind) (t : ConnectionTracker)

/-- An ingest reports the events of its entry operation, and none for a dropped packet. -/
theorem reported_ingestAt (parsed : ParsedPacket) (now : SystemTime) (clock : ClockReading) :
    kind.reported (t.ingestAt parsed now clock).2 =
      if t.AtCapacity (t.resolveKey parsed).2 then 0
      else kind.raised (t.entryEvents (t.resolveKey parsed).2 parsed now clock) := by
  unfold ingestAt
  dsimp only
  split <;> cases kind <;> rfl

/-- A merge reports what the packet raises in the connection it is merged into. -/
theorem entryEvents_of_lookup {t : ConnectionTracker} {key : String} {conn : Connection}
    (h : t.connections.lookup key = some conn) (parsed : ParsedPacket) (now : SystemTime)
    (clock : ClockReading) :
    t.entryEvents key parsed now clock = (mergePacketIntoConnection conn parsed now clock).2 := by
  simp only [entryEvents, h]

/-- A new connection reports nothing. -/
theorem entryEvents_of_lookup_none {t : ConnectionTracker} {key : String}
    (h : t.connections.lookup key = none) (parsed : ParsedPacket) (now : SystemTime)
    (clock : ClockReading) : t.entryEvents key parsed now clock = (0, 0, 0) := by
  simp only [entryEvents, h]

/-- An ingest moves the events it reports into the active table; what wraps is lost. -/
theorem total_ingestAt (parsed : ParsedPacket) (now : SystemTime) (clock : ClockReading) :
    ∃ wraps : ℕ,
      (t.ingestAt parsed now clock).1.connections.total (Connection.eventCount kind) +
          2 ^ 64 * wraps =
        t.connections.total (Connection.eventCount kind) +
          (kind.reported (t.ingestAt parsed now clock).2).toNat ∧
      (t.connections.total (Connection.eventCount kind) +
        (kind.reported (t.ingestAt parsed now clock).2).toNat < 2 ^ 64 → wraps = 0) := by
  rw [ingestAt_connections, reported_ingestAt]
  by_cases hfull : t.AtCapacity (t.resolveKey parsed).2
  -- a packet that is dropped counts nothing
  · rw [if_pos hfull, if_pos hfull]
    exact ⟨0, by simp, fun _ => rfl⟩
  · rw [if_neg hfull, if_neg hfull]
    rcases hold : t.connections.lookup (t.resolveKey parsed).2 with _ | conn
    · -- a new connection: nothing is reported and nothing counted
      have htotal := AList.total_insert (Connection.eventCount kind) (t.resolveKey parsed).2
        (freshEntry parsed now clock (t.rtt.observe parsed clock.instant).2) t.connections
      rw [hold, Option.elim_none, freshEntry_eventCount, Nat.add_zero] at htotal
      rw [AList.upsert_of_notMem (AList.notMem_of_lookup hold), entryEvents_of_lookup_none hold,
        htotal, TcpEventKind.raised_zero]
      exact ⟨0, by simp, fun _ => rfl⟩
    · -- a merge: the connection's counter gains what is reported, and may wrap
      have htotal := AList.total_insert (Connection.eventCount kind) (t.resolveKey parsed).2
        (mergeEntry parsed now clock (t.rtt.observe parsed clock.instant).2 conn) t.connections
      have hle := AList.total_erase (Connection.eventCount kind) (t.resolveKey parsed).2
        t.connections
      rw [hold, Option.elim_some, mergeEntry_eventCount] at htotal
      rw [hold, Option.elim_some] at hle
      rw [AList.upsert_of_lookup hold, entryEvents_of_lookup hold]
      refine ⟨(conn.eventCount kind +
        (kind.raised (mergePacketIntoConnection conn parsed now clock).2).toNat) / 2 ^ 64, ?_, ?_⟩
      · have hdiv := Nat.mod_add_div (conn.eventCount kind +
          (kind.raised (mergePacketIntoConnection conn parsed now clock).2).toNat) (2 ^ 64)
        omega
      · intro hlt
        exact Nat.div_eq_of_lt (by omega)

omit [DeepPacketInspection] in
/-- A cleanup hands over what the connections it removes have counted. -/
theorem total_cleanup (now : SystemTime) (order : IterOrder String) (clock : ClockReading) :
    (t.cleanup now order clock).1.connections.total (Connection.eventCount kind) +
        ((t.cleanup now order clock).2.map (Connection.eventCount kind)).sum =
      t.connections.total (Connection.eventCount kind) := by
  rw [cleanup_connections, cleanup_snd, List.map_map]
  exact t.total_sweep now clock order (Connection.eventCount kind)

/-- A call other than `clear` moves the events it reports to the active connections and to those it
removes; what wraps is lost. -/
theorem total_step (e : Call × ClockReading) (hclear : e.1 ≠ .clear) :
    ∃ wraps : ℕ,
      (t.step e).connections.total (Connection.eventCount kind) +
          ((t.removedBy e).map (Connection.eventCount kind)).sum + 2 ^ 64 * wraps =
        t.connections.total (Connection.eventCount kind) + reportedBy kind (t.outcomeOf e) ∧
      (t.connections.total (Connection.eventCount kind) + reportedBy kind (t.outcomeOf e) < 2 ^ 64 →
        wraps = 0) := by
  obtain ⟨call, clock⟩ := e
  cases call with
  | ingestAt parsed now => exact total_ingestAt kind t parsed now clock
  | cleanup now order =>
    exact ⟨0, total_cleanup kind t now order clock, fun _ => rfl⟩
  | clear => exact absurd rfl hclear

/-- A call reports at most one event of a kind. -/
theorem reportedBy_le (e : Call × ClockReading) : reportedBy kind (t.outcomeOf e) ≤ 1 := by
  obtain ⟨call, clock⟩ := e
  cases call with
  | ingestAt parsed now =>
    show (kind.reported (t.ingestAt parsed now clock).2).toNat ≤ 1
    rw [reported_ingestAt]
    split_ifs
    · decide
    -- a packet that creates its entry raises no event
    · rcases hold : t.connections.lookup (t.resolveKey parsed).2 with _ | conn
      · rw [entryEvents_of_lookup_none hold, TcpEventKind.raised_zero]
        decide
      · rw [entryEvents_of_lookup hold]
        exact raised_merge_le kind parsed now clock conn
  | cleanup now order => exact Nat.zero_le 1
  | clear => exact Nat.zero_le 1

end Step

/-! ## Whole runs -/

/-- The outcomes of the ingests of a run. -/
def outcomes (t : ConnectionTracker) (calls : List (Call × ClockReading)) : List IngestOutcome :=
  (Run.outputs step outcomeOf t calls).filterMap id

/-- The connections that the cleanups of a run returned. -/
def returnedBy (t : ConnectionTracker) (calls : List (Call × ClockReading)) : List Connection :=
  (Run.outputs step removedBy t calls).flatten

theorem outcomes_cons (t : ConnectionTracker) (e : Call × ClockReading)
    (calls : List (Call × ClockReading)) :
    t.outcomes (e :: calls) = (t.outcomeOf e).toList ++ (t.step e).outcomes calls := by
  rw [outcomes, Run.outputs, List.filterMap_cons]
  cases t.outcomeOf e <;> rfl

theorem returnedBy_cons (t : ConnectionTracker) (e : Call × ClockReading)
    (calls : List (Call × ClockReading)) :
    t.returnedBy (e :: calls) = t.removedBy e ++ (t.step e).returnedBy calls := rfl

/-- The events that the ingests of a run report. -/
def reportedIn (kind : TcpEventKind) (t : ConnectionTracker) (calls : List (Call × ClockReading)) :
    ℕ :=
  ((t.outcomes calls).map fun outcome => (kind.reported outcome).toNat).sum

/-- The events that the active connections after a run have counted, and those it returned. -/
def countedIn (kind : TcpEventKind) (t : ConnectionTracker) (calls : List (Call × ClockReading)) :
    ℕ :=
  (t.run calls).connections.total (Connection.eventCount kind) +
    ((t.returnedBy calls).map (Connection.eventCount kind)).sum

variable {kind : TcpEventKind} {t : ConnectionTracker} {calls : List (Call × ClockReading)}

theorem reportedIn_cons {e : Call × ClockReading} :
    reportedIn kind t (e :: calls) =
      reportedBy kind (t.outcomeOf e) + reportedIn kind (t.step e) calls := by
  rw [reportedIn, outcomes_cons, List.map_append, List.sum_append, reportedIn]
  congr 1
  rcases t.outcomeOf e with _ | outcome
  · rfl
  · exact List.sum_singleton

theorem countedIn_cons {e : Call × ClockReading} :
    countedIn kind t (e :: calls) =
      countedIn kind (t.step e) calls + ((t.removedBy e).map (Connection.eventCount kind)).sum := by
  rw [countedIn, returnedBy_cons, List.map_append, List.sum_append, countedIn, run, List.foldl_cons,
    run]
  omega

/-- A run without `clear` counts what it reports, but for what wraps; nothing wraps in a short
one. -/
theorem countedIn_add_wraps (kind : TcpEventKind) (t : ConnectionTracker)
    (hclear : ∀ e ∈ calls, e.1 ≠ .clear) :
    ∃ wraps : ℕ,
      countedIn kind t calls + 2 ^ 64 * wraps =
        t.connections.total (Connection.eventCount kind) + reportedIn kind t calls ∧
      (t.connections.total (Connection.eventCount kind) + calls.length < 2 ^ 64 → wraps = 0) := by
  -- the wraps of the calls add up, and too few events make none
  induction calls generalizing t with
  | nil => exact ⟨0, rfl, fun _ => rfl⟩
  | cons e calls ih =>
    obtain ⟨here, hstep, hstepFits⟩ := total_step kind t e (hclear e List.mem_cons_self)
    obtain ⟨later, hrest, hrestFits⟩ := ih (t.step e) fun e' he' =>
      hclear e' (List.mem_cons_of_mem e he')
    have hle := reportedBy_le kind t e
    refine ⟨here + later, ?_, ?_⟩
    · rw [reportedIn_cons, countedIn_cons]
      omega
    · rw [List.length_cons]
      intro hshort
      have hhere : here = 0 := hstepFits (by omega)
      have hlater : later = 0 := hrestFits (by omega)
      omega

omit [DeepPacketInspection] in
/-- The App's total after a run is what the run reported, modulo 2^64. -/
theorem total_foldl_update (stats : AppStats) (l : List IngestOutcome) :
    (kind.total (l.foldl AppStats.update stats)).toNat =
      ((kind.total stats).toNat + (l.map fun outcome => (kind.reported outcome).toNat).sum) %
        2 ^ 64 := by
  induction l generalizing stats with
  | nil => exact (Nat.mod_eq_of_lt (kind.total stats).toNat_lt).symm
  | cons outcome l ih =>
    rw [List.foldl_cons, ih, kind.total_update, UInt64.toNat_add, List.map_cons, List.sum_cons,
      Nat.mod_add_mod, Nat.add_assoc]

/-- After every run of ingests and cleanups (`hclear`), the events reported by the ingests are those
counted by the active connections and by the returned ones; so are the App's totals. Both counts are
of 64 bits, and a run of `2 ^ 64` calls can wrap them. The packets, their times and the readings of
the clock are any, and `kind` is any of the counted events. -/
theorem events_conserved (config : TrackerConfig) {calls : List (Call × ClockReading)}
    (hclear : ∀ e ∈ calls, e.1 ≠ .clear) (kind : TcpEventKind) :
    (calls.length < 2 ^ 64 →
        reportedIn kind (withConfig config) calls = countedIn kind (withConfig config) calls) ∧
      reportedIn kind (withConfig config) calls ≡ countedIn kind (withConfig config) calls
        [MOD 2 ^ 64] ∧
      (kind.total (((withConfig config).outcomes calls).foldl AppStats.update .zero)).toNat =
        countedIn kind (withConfig config) calls % 2 ^ 64 := by
  obtain ⟨wraps, hcounted, hfits⟩ :=
    countedIn_add_wraps kind (withConfig config) hclear
  rw [show (withConfig config).connections.total (Connection.eventCount kind) = 0 from rfl,
    Nat.zero_add] at hcounted
  -- what wraps makes no difference modulo the width of a counter
  have hmod : reportedIn kind (withConfig config) calls ≡
      countedIn kind (withConfig config) calls [MOD 2 ^ 64] := by
    rw [← hcounted]
    exact Nat.add_mul_mod_self_left _ _ _
  refine ⟨?_, hmod, ?_⟩
  · intro hshort
    have hnone : wraps = 0 := hfits (by rwa [show
      (withConfig config).connections.total (Connection.eventCount kind) = 0 from rfl,
      Nat.zero_add])
    omega
  · rw [total_foldl_update, kind.total_zero, UInt64.toNat_zero, Nat.zero_add]
    exact hmod

end ConnectionTracker

/-- A packet of one TCP flow with the numbers of a segment. -/
def sampleTcpPacket (s : Segment) : ParsedPacket :=
  .ofTcp (.lan 1 5000) (.lan 2 22) s.header s.isOutgoing 60

/-- Three copies of an outgoing segment, then a cleanup that removes their connection. -/
def sampleRetransmission : List (ConnectionTracker.Call × ClockReading) :=
  let data := sampleTcpPacket (sampleTcpSegment true 100 100 (sampleFlags false false true))
  List.replicate 3 (.ingestAt data ⟨0⟩, .constant 0) ++
    [(.cleanup ⟨Duration.fromSecs 1000⟩ (.listed String), .constant (Duration.fromSecs 1000))]

/-- One retransmission is reported, and the returned connection has counted one. -/
theorem sampleRetransmission_conserved :
    letI : DeepPacketInspection := .silent
    let t := ConnectionTracker.withConfig .default
    t.reportedIn .retransmit sampleRetransmission = t.countedIn .retransmit sampleRetransmission ∧
      t.countedIn .retransmit sampleRetransmission = 1 ∧
      (t.run sampleRetransmission).connections.size = 0 := by
  intro t
  have hclear : ∀ e ∈ sampleRetransmission, e.1 ≠ .clear := by simp [sampleRetransmission]
  have hconserved := @ConnectionTracker.events_conserved .silent .default sampleRetransmission
    hclear .retransmit
  exact ⟨hconserved.1 (by decide +kernel), by decide +kernel, by decide +kernel⟩

end RustNet
