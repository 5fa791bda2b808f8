import Mathlib.Data.UInt
import RustNet.Network.Tcp.Segments
import RustNet.Network.Tracker.Analytics

/-!
# The packet that creates a connection

A merge analyses the TCP segment of its packet; the creation of a connection does not, it starts
from fresh analytics. So the analytics of a connection are those of all its packets but the first.

What is lost is the end of the first segment, against which its retransmission would be counted, and
the first acknowledgement, with which its repeats would begin. This module says exactly which flows
are analysed as if nothing were lost, after the first packet and every later one.

## Main results

* `TcpAnalytics.tallies_without_first_iff`: when the first segment makes no difference;
* `ConnectionTracker.analyticsOf_ingestAll`: the tracker analyses all segments but the first;
* `ConnectionTracker.analytics_complete_iff`: the flows whose analytics are complete.
-/

namespace RustNet

namespace TcpAnalytics

/-- The counters and the expected numbers. -/
def tallies (a : TcpAnalytics) : UInt64 × UInt64 × UInt64 × UInt32 × UInt32 × UInt32 :=
  (a.retransmitCount, a.outOfOrderCount, a.fastRetransmitCount, a.duplicateAckCount,
    a.lastSeqOutbound, a.lastSeqInbound)

/-- Two analyses side by side. -/
def both (x : TcpAnalytics × TcpAnalytics) (s : Segment) : TcpAnalytics × TcpAnalytics :=
  (x.1.analyze s, x.2.analyze s)

theorem foldl_both (x : TcpAnalytics × TcpAnalytics) (l : List Segment) :
    l.foldl both x = (l.foldl analyze x.1, l.foldl analyze x.2) := by
  induction l generalizing x with
  | nil => rfl
  | cons s l ih => exact ih (both x s)

/-- The analyses agree in the tallies. -/
def SameTallies (x : TcpAnalytics × TcpAnalytics) : Prop := x.1.tallies = x.2.tallies

/-- The analyses agree in all that is compared with a segment. -/
def Alike (x : TcpAnalytics × TcpAnalytics) : Prop :=
  SameTallies x ∧ x.1.lastAckReceived = x.2.lastAckReceived

/-- The analyses agree but for the last acknowledgement, which the first has not seen. -/
structure AckUnseen (x : TcpAnalytics × TcpAnalytics) : Prop where
  same : SameTallies x
  unseen : x.1.lastAckReceived = 0
  unrepeated : x.1.duplicateAckCount = 0

variable {x : TcpAnalytics × TcpAnalytics} {s : Segment}

theorem SameTallies.fields (h : SameTallies x) :
    x.1.retransmitCount = x.2.retransmitCount ∧ x.1.outOfOrderCount = x.2.outOfOrderCount ∧
      x.1.fastRetransmitCount = x.2.fastRetransmitCount ∧
      x.1.duplicateAckCount = x.2.duplicateAckCount ∧
      x.1.lastSeqOutbound = x.2.lastSeqOutbound ∧ x.1.lastSeqInbound = x.2.lastSeqInbound := by
  simpa only [SameTallies, tallies, Prod.mk.injEq] using h

/-- A segment keeps the tallies the same if it repeats an acknowledgement in both analyses or in
neither, and leaves as many repeats. -/
theorem sameTallies_both (h : SameTallies x)
    (hfast : x.1.FastRetransmits s ↔ x.2.FastRetransmits s)
    (hdup : (x.1.analyze s).duplicateAckCount = (x.2.analyze s).duplicateAckCount) :
    SameTallies (both x s) := by
  obtain ⟨hretransmit, hout, hfastCount, -, houtbound, hinbound⟩ := h.fields
  have hretransmits : x.1.Retransmits s ↔ x.2.Retransmits s := by
    rw [Retransmits, Retransmits, houtbound]
  have houtOfOrder : x.1.OutOfOrder s ↔ x.2.OutOfOrder s := by
    rw [OutOfOrder, OutOfOrder, hinbound]
  simp only [SameTallies, tallies, both, hdup, analyze_retransmitCount, analyze_outOfOrderCount,
    analyze_fastRetransmitCount, analyze_lastSeqOutbound, analyze_lastSeqInbound, hretransmit, hout,
    hfastCount, houtbound, hinbound, hfast, hretransmits, houtOfOrder]

/-- Analyses that agree go on agreeing. -/
theorem Alike.both (h : Alike x) : Alike (TcpAnalytics.both x s) := by
  obtain ⟨hsame, hack⟩ := h
  obtain ⟨-, -, -, hdup, -, -⟩ := hsame.fields
  have hrepeats : x.1.Repeats s ↔ x.2.Repeats s := by rw [Repeats, Repeats, hack]
  refine ⟨sameTallies_both hsame (and_congr hrepeats (by rw [hdup])) ?_, ?_⟩
  · simp only [analyze_duplicateAckCount, hrepeats, hack, hdup]
  · show (x.1.analyze s).lastAckReceived = (x.2.analyze s).lastAckReceived
    simp only [analyze_lastAckReceived, hack]

/-- The first analysis takes no acknowledgement for a repeat. -/
theorem AckUnseen.not_repeats (h : AckUnseen x) : ¬ x.1.Repeats s := fun hr => hr.2.1 h.unseen

/-- A segment that acknowledges nothing leaves the two acknowledgements as they are. -/
theorem AckUnseen.both_of_not_acknowledges (h : AckUnseen x) (hs : ¬ s.Acknowledges) :
    AckUnseen (both x s) ∧ (both x s).2.lastAckReceived = x.2.lastAckReceived := by
  obtain ⟨-, -, -, hdup, -, -⟩ := h.same.fields
  have hkeeps : ∀ a : TcpAnalytics, (a.analyze s).lastAckReceived = a.lastAckReceived ∧
      (a.analyze s).duplicateAckCount = a.duplicateAckCount := by
    intro a
    rw [analyze_lastAckReceived, analyze_duplicateAckCount, if_neg hs,
      if_neg fun hr => hs hr.1, if_neg fun hand => hs hand.1]
    exact ⟨rfl, rfl⟩
  -- without an acknowledgement neither side sees a repeat
  have hfast : x.1.FastRetransmits s ↔ x.2.FastRetransmits s :=
    iff_of_false (fun hf => hs hf.1.1) fun hf => hs hf.1.1
  refine ⟨⟨sameTallies_both h.same hfast ?_, ?_, ?_⟩, (hkeeps x.2).1⟩
  · rw [(hkeeps x.1).2, (hkeeps x.2).2, hdup]
  · exact (hkeeps x.1).1.trans h.unseen
  · exact (hkeeps x.1).2.trans h.unrepeated

/-- An acknowledgement that the second analysis takes for no repeat brings the two together. -/
theorem AckUnseen.alike_both (h : AckUnseen x) (hs : s.Acknowledges) (hr : ¬ x.2.Repeats s) :
    Alike (both x s) := by
  obtain ⟨-, -, -, hdup, -, -⟩ := h.same.fields
  have hclears : ∀ a : TcpAnalytics, ¬ a.Repeats s → a.duplicateAckCount = 0 →
      (a.analyze s).duplicateAckCount = 0 := by
    intro a hnot hzero
    rw [analyze_duplicateAckCount, if_neg hnot, hzero, ite_self]
  refine ⟨sameTallies_both h.same ?_ ?_, ?_⟩
  · exact iff_of_false (fun hf => h.not_repeats hf.1) fun hf => hr hf.1
  · rw [hclears x.1 h.not_repeats h.unrepeated, hclears x.2 hr (hdup.symm.trans h.unrepeated)]
  · show (x.1.analyze s).lastAckReceived = (x.2.analyze s).lastAckReceived
    rw [analyze_lastAckReceived, analyze_lastAckReceived, if_pos hs, if_pos hs]

/-- A repeat of the acknowledgement that only the second analysis has seen is counted there. -/
theorem AckUnseen.not_sameTallies_both (h : AckUnseen x) (hr : x.2.Repeats s) :
    ¬ SameTallies (both x s) := by
  intro hsame
  obtain ⟨-, -, -, hdup, -, -⟩ := h.same.fields
  have hboth : (x.1.analyze s).duplicateAckCount = (x.2.analyze s).duplicateAckCount :=
    hsame.fields.2.2.2.1
  rw [analyze_duplicateAckCount, if_neg h.not_repeats, analyze_duplicateAckCount, if_pos hr, ← hdup,
    h.unrepeated, ite_self] at hboth
  exact absurd hboth (by decide)

/-- The first acknowledgement of some segments. -/
def firstAck (l : List Segment) : Option Segment := l.find? fun s => decide s.Acknowledges

/-- The tallies stay the same throughout exactly if the first acknowledgement does not repeat the
one that only the second analysis has seen. -/
theorem AckUnseen.always_sameTallies_iff {l : List Segment} (h : AckUnseen x) :
    Run.Always both SameTallies x l ↔ ∀ s ∈ firstAck l, ¬ x.2.Repeats s := by
  induction l generalizing x with
  | nil => exact iff_of_true h.same fun s hs => absurd hs (by simp [firstAck])
  | cons s l ih =>
    rw [Run.always_cons]
    -- the first acknowledgement decides; up to it nothing is counted
    by_cases hs : s.Acknowledges
    · have hfirst : firstAck (s :: l) = some s := List.find?_cons_of_pos (decide_eq_true hs)
      rw [hfirst]
      constructor
      · rintro ⟨-, hrest⟩ s' hs' hr
        obtain rfl : s = s' := Option.some.inj hs'
        exact h.not_sameTallies_both hr hrest.head
      · intro hr
        have halike := h.alike_both hs (hr s rfl)
        refine ⟨h.same, (Run.always_of_step (I := Alike) ?_ halike).mono fun _ hx => hx.1⟩
        exact fun _ _ hx => hx.both
    · have hfirst : firstAck (s :: l) = firstAck l := List.find?_cons_of_neg (by simp [hs])
      obtain ⟨hnext, hkept⟩ := h.both_of_not_acknowledges hs
      rw [hfirst, ih hnext, and_iff_right h.same]
      simp only [Repeats, hkept]

/-- The first segment makes no difference to the segments after it: it moves no expected number away
from zero, and its acknowledgement is not repeated by the next one. -/
def NeedsNoFirst (first : Segment) (rest : List Segment) : Prop :=
  (0 < first.consumed → first.seq + first.consumed = 0) ∧
    (first.Acknowledges → first.header.ack ≠ 0 →
      ∀ s ∈ firstAck rest, s.header.ack ≠ first.header.ack)

instance (first : Segment) (rest : List Segment) : Decidable (NeedsNoFirst first rest) :=
  inferInstanceAs (Decidable (_ ∧ _))

/-- Whether the first segment, alone, shows in the tallies. -/
theorem sameTallies_first_iff {first : Segment} :
    SameTallies (.new, analyze .new first) ↔
      (0 < first.consumed → first.seq + first.consumed = 0) := by
  have hfirst : (analyze .new first).tallies =
      (0, 0, 0, 0, if first.Sends then first.seq + first.consumed else 0,
        if first.Receives then first.seq + first.consumed else 0) := by
    simp [tallies, analyze_eq, new, Retransmits, OutOfOrder, FastRetransmits, Repeats]
  rw [SameTallies, hfirst]
  simp only [tallies, new, Prod.mk.injEq, true_and, Segment.Sends, Segment.Receives]
  -- the segment is of one direction
  by_cases hout : first.isOutgoing = true
  · simp [hout, eq_comm]
  · simp [hout, eq_comm]

/-- After the first segment, the first later acknowledgement repeats that of the first segment if the
two are equal and not zero. -/
theorem repeats_first_iff {first s : Segment} (hs : s.Acknowledges) :
    (analyze .new first).Repeats s ↔
      first.Acknowledges ∧ first.header.ack ≠ 0 ∧ s.header.ack = first.header.ack := by
  rw [Repeats, analyze_lastAckReceived, and_iff_right hs]
  by_cases hfirst : first.Acknowledges
  · rw [if_pos hfirst, and_iff_right hfirst]
  · rw [if_neg hfirst]
    exact iff_of_false (fun hand => hand.1 rfl) fun hand => hfirst hand.1

/-- The segments after the first are analysed alike without it, as far as the tallies go, exactly
when it makes no difference to them. -/
theorem tallies_without_first_iff {first : Segment} {rest : List Segment} :
    (∀ before after, rest = before ++ after →
        (before.foldl analyze .new).tallies = ((first :: before).foldl analyze .new).tallies) ↔
      NeedsNoFirst first rest := by
  have halways : Run.Always both SameTallies (.new, analyze .new first) rest ↔ _ :=
    Run.always_iff_forall_prefix
  simp only [foldl_both] at halways
  refine halways.symm.trans ?_
  -- without the same tallies right after the first segment there is nothing to keep
  by_cases hfirst : SameTallies (.new, analyze .new first)
  · have hunseen : AckUnseen (.new, analyze .new first) := ⟨hfirst, rfl, rfl⟩
    rw [hunseen.always_sameTallies_iff, NeedsNoFirst,
      and_iff_right (sameTallies_first_iff.mp hfirst)]
    have hacks : ∀ s ∈ firstAck rest, s.Acknowledges := by
      intro s hs
      have hfind : rest.find? (fun s => decide s.Acknowledges) = some s := hs
      have hdecide := List.find?_some hfind
      exact of_decide_eq_true hdecide
    constructor
    · intro h hfirstAcks hne s hs heq
      exact h s hs ((repeats_first_iff (hacks s hs)).mpr ⟨hfirstAcks, hne, heq⟩)
    · intro h s hs hr
      obtain ⟨hfirstAcks, hne, heq⟩ := (repeats_first_iff (hacks s hs)).mp hr
      exact h hfirstAcks hne s hs heq
  · exact iff_of_false (fun h => hfirst h.head) fun h => hfirst (sameTallies_first_iff.mpr h.1)

end TcpAnalytics

/-! ## The flow of one connection -/

/-- The TCP segments of some packets. -/
def segments (l : List Arrival) : List Segment := l.filterMap fun p => p.parsed.segment

theorem segments_cons {p : Arrival} {s : Segment} (h : p.parsed.segment = some s)
    (l : List Arrival) : segments (p :: l) = s :: segments l := List.filterMap_cons_some h

/-- A TCP packet has a segment. -/
theorem ParsedPacket.exists_segment {parsed : ParsedPacket} (h : parsed.protocol = .tcp) :
    ∃ s, parsed.segment = some s := by
  obtain ⟨header, hheader⟩ := ParsedPacket.exists_tcpHeader_iff.mpr h
  exact ⟨⟨header, parsed.isOutgoing⟩, by rw [segment, hheader, Option.map_some]⟩

namespace ConnectionTracker

variable [DeepPacketInspection]

/-- Ingest some packets one after the other, each with its own time and reading of the clock. -/
def ingestAll (t : ConnectionTracker) (l : List Arrival) : ConnectionTracker :=
  t.run (l.map fun p => (.ingestAt p.parsed p.now, p.clock))

/-- The analytics of the active connection under a key. -/
def analyticsOf (t : ConnectionTracker) (key : String) : Option TcpAnalytics :=
  (t.connections.lookup key).bind Connection.tcpAnalytics

variable {t : ConnectionTracker} {p : Arrival} {key : String}

theorem ingestAll_cons (l : List Arrival) :
    t.ingestAll (p :: l) = (t.ingestAt p.parsed p.now p.clock).1.ingestAll l := rfl

omit [DeepPacketInspection] in
/-- A TCP packet is filed under its own key. -/
theorem resolveKey_of_tcp (h : p.parsed.protocol = .tcp) :
    (t.resolveKey p.parsed).2 = p.parsed.connectionKey := by
  rw [resolveKey_of_no_connectionId t p.parsed]
  exact ParsedPacket.quicConnectionId_eq_none (by rw [h]; decide)

/-- The first packet of a connection leaves fresh analytics. -/
theorem analyticsOf_create (htcp : p.parsed.protocol = .tcp)
    (hnew : p.parsed.connectionKey ∉ t.connections)
    (hroom : t.connections.size < t.config.maxConnections) :
    (t.ingestAt p.parsed p.now p.clock).1.analyticsOf p.parsed.connectionKey = some .new := by
  have hadmitted : ¬ t.AtCapacity (t.resolveKey p.parsed).2 := fun hfull =>
    absurd hfull.2 (Nat.not_le.mpr hroom)
  rw [analyticsOf, ingestAt_connections, if_neg hadmitted, resolveKey_of_tcp htcp,
    AList.upsert_of_notMem hnew, AList.lookup_insert, Option.bind_some]
  show (createConnectionFromPacket p.parsed p.now p.clock).tcpAnalytics = some .new
  rw [create_tcpAnalytics, if_pos htcp]

/-- A later packet is analysed. -/
theorem analyticsOf_merge {a : TcpAnalytics} {s : Segment} (hs : p.parsed.segment = some s)
    (htcp : p.parsed.protocol = .tcp) (ha : t.analyticsOf p.parsed.connectionKey = some a) :
    (t.ingestAt p.parsed p.now p.clock).1.analyticsOf p.parsed.connectionKey =
      some (a.analyze s) := by
  obtain ⟨conn, hconn, hanalytics⟩ := Option.bind_eq_some_iff.mp ha
  have hadmitted : ¬ t.AtCapacity (t.resolveKey p.parsed).2 := by
    rw [resolveKey_of_tcp htcp]
    exact fun hfull => hfull.1 (AList.mem_of_lookup hconn)
  rw [analyticsOf, ingestAt_connections, if_neg hadmitted, resolveKey_of_tcp htcp,
    AList.upsert_of_lookup hconn, AList.lookup_insert, Option.bind_some]
  show (mergeAnalytics conn.tcpAnalytics p.parsed).1 = some (a.analyze s)
  rw [hanalytics, mergeAnalytics_of_segment hs]

/-- The later packets of a connection are analysed one after another. -/
theorem analyticsOf_ingestAll_of_some {a : TcpAnalytics} {l : List Arrival}
    (hflow : ∀ p ∈ l, p.parsed.connectionKey = key ∧ p.parsed.protocol = .tcp)
    (ha : t.analyticsOf key = some a) :
    (t.ingestAll l).analyticsOf key = some ((segments l).foldl TcpAnalytics.analyze a) := by
  induction l generalizing t a with
  | nil => exact ha
  | cons p l ih =>
    obtain ⟨hkey, htcp⟩ := hflow p List.mem_cons_self
    obtain ⟨s, hs⟩ := ParsedPacket.exists_segment htcp
    rw [ingestAll_cons, segments_cons hs, List.foldl_cons]
    refine ih (fun p' hp' => hflow p' (List.mem_cons_of_mem p hp')) ?_
    rw [← hkey] at ha ⊢
    exact analyticsOf_merge hs htcp ha

/-- The tracker analyses all segments of a new connection but the first. -/
theorem analyticsOf_ingestAll {first : Arrival} {rest : List Arrival}
    (hnew : first.parsed.connectionKey ∉ t.connections)
    (hroom : t.connections.size < t.config.maxConnections)
    (hfirst : first.parsed.protocol = .tcp)
    (hrest : ∀ p ∈ rest, p.parsed.connectionKey = first.parsed.connectionKey) :
    (t.ingestAll (first :: rest)).analyticsOf first.parsed.connectionKey =
      some ((segments rest).foldl TcpAnalytics.analyze .new) := by
  rw [ingestAll_cons]
  refine analyticsOf_ingestAll_of_some (fun p hp => ⟨hrest p hp, ?_⟩)
    (analyticsOf_create hfirst hnew hroom)
  rw [ParsedPacket.protocol_eq_of_connectionKey (hrest p hp), hfirst]

/-- Without room for a connection, no packet of the flow gets one. -/
theorem analyticsOf_ingestAll_of_full {l : List Arrival} (hempty : t.connections = ∅)
    (hfull : t.config.maxConnections = 0) : (t.ingestAll l).analyticsOf key = none := by
  induction l generalizing t with
  | nil =>
    show t.analyticsOf key = none
    rw [analyticsOf, hempty, AList.lookup_empty, Option.bind_none]
  | cons p l ih =>
    have hdropped : t.AtCapacity (t.resolveKey p.parsed).2 := by
      rw [AtCapacity, hempty, hfull]
      exact ⟨AList.notMem_empty _, Nat.zero_le _⟩
    rw [ingestAll_cons]
    refine ih ?_ (by rw [ingestAt_config, hfull])
    rw [ingestAt_connections, if_pos hdropped, hempty]

/-- After every packet of a new TCP connection in an empty tracker (`hempty`), the tallies of its
analytics are those of all its packets, exactly if the first segment makes no difference to the
later ones (or the tracker holds no connections). The first packet has a TCP segment (`hfirst`), and
the later ones are filed under its key (`hrest`). The creation of a connection does not analyse its
packet, only a merge does. -/
theorem analytics_complete_iff (hempty : t.connections = ∅) {first : Arrival} {rest : List Arrival}
    {s : Segment} (hfirst : first.parsed.segment = some s)
    (hrest : ∀ p ∈ rest, p.parsed.connectionKey = first.parsed.connectionKey) :
    (∀ before after, rest = before ++ after →
        ∀ a ∈ (t.ingestAll (first :: before)).analyticsOf first.parsed.connectionKey,
          a.tallies = ((segments (first :: before)).foldl TcpAnalytics.analyze .new).tallies) ↔
      t.config.maxConnections = 0 ∨ TcpAnalytics.NeedsNoFirst s (segments rest) := by
  have htcp : first.parsed.protocol = .tcp := by
    obtain ⟨header, hheader, -⟩ := Option.map_eq_some_iff.mp hfirst
    exact ParsedPacket.exists_tcpHeader_iff.mp ⟨header, hheader⟩
  by_cases hfull : t.config.maxConnections = 0
  · refine iff_of_true (fun before after _ a ha => ?_) (Or.inl hfull)
    rw [analyticsOf_ingestAll_of_full hempty hfull] at ha
    exact absurd ha (Option.not_mem_none a)
  · have hnew : first.parsed.connectionKey ∉ t.connections := by
      rw [hempty]
      exact AList.notMem_empty _
    have hroom : t.connections.size < t.config.maxConnections := by
      rw [hempty, AList.size_empty]
      exact Nat.pos_of_ne_zero hfull
    -- there are analytics after every part, of the segments behind the first
    have hanalytics : ∀ before after, rest = before ++ after →
        (t.ingestAll (first :: before)).analyticsOf first.parsed.connectionKey =
          some ((segments before).foldl TcpAnalytics.analyze .new) := fun before after hsplit =>
      analyticsOf_ingestAll hnew hroom htcp fun p hp =>
        hrest p (by rw [hsplit]; exact List.mem_append_left after hp)
    rw [or_iff_right hfull, ← TcpAnalytics.tallies_without_first_iff]
    constructor
    · -- every part of the segments comes from a part of the packets
      intro h before after hsplit
      obtain ⟨packets, packets', rfl, rfl, -⟩ := List.filterMap_eq_append_iff.mp hsplit
      have hsame := h packets packets' rfl _ (hanalytics packets packets' rfl)
      rwa [segments_cons hfirst] at hsame
    · intro h before after hsplit a ha
      rw [hanalytics before after hsplit] at ha
      obtain rfl := Option.some.inj ha
      rw [segments_cons hfirst]
      -- and every part of the packets yields a part of the segments
      refine h (segments before) (segments after) ?_
      rw [hsplit, segments, List.filterMap_append]
      rfl

end ConnectionTracker

/-- Packets of one flow, one for each segment. -/
def sampleFlow (l : List Segment) : List Arrival :=
  l.map fun s => ⟨sampleTcpPacket s, ⟨0⟩, .constant 0⟩

/-- The first packet's retransmission is not counted: the analysis of both packets counts one, the
tracker none. -/
theorem sampleFlow_first_not_analysed :
    letI : DeepPacketInspection := .silent
    let data := sampleTcpSegment true 100 100 (sampleFlags false false true)
    let t := ConnectionTracker.withConfig .default
    ((t.ingestAll (sampleFlow [data, data])).analyticsOf
          (sampleTcpPacket data).connectionKey).map TcpAnalytics.retransmitCount = some 0 ∧
      ([data, data].foldl TcpAnalytics.analyze .new).retransmitCount = 1 := by
  decide +kernel

/-- Behind a bare acknowledgement nothing is lost: the late segment is counted in the tracker
too. -/
theorem sampleFlow_analysed_behind_ack :
    letI : DeepPacketInspection := .silent
    let first := sampleTcpSegment true 100 0 (sampleFlags false false true)
    let data := sampleTcpSegment false 700 40 (sampleFlags false false true)
    ∀ a ∈ ((ConnectionTracker.withConfig .default).ingestAll
          (sampleFlow [first, data, data])).analyticsOf (sampleTcpPacket first).connectionKey,
      a.tallies = ([first, data, data].foldl TcpAnalytics.analyze .new).tallies := by
  intro first data
  have hrest : ∀ p ∈ sampleFlow [data, data],
      p.parsed.connectionKey = (sampleTcpPacket first).connectionKey := by
    intro p hp
    obtain ⟨s, -, rfl⟩ := List.mem_map.mp hp
    rfl
  have hcomplete := @ConnectionTracker.analytics_complete_iff .silent
    (ConnectionTracker.withConfig .default) rfl ⟨sampleTcpPacket first, ⟨0⟩, .constant 0⟩
    (sampleFlow [data, data]) first rfl hrest
  exact hcomplete.mpr (Or.inr (by decide +kernel)) (sampleFlow [data, data]) [] rfl

end RustNet
