import Mathlib.Data.UInt
import RustNet.Foundations.Run
import RustNet.Network.Merge.Packet

/-!
# Segment analysis

What `analyze_tcp_segment` does to one field of the analytics at a time. It keeps three records that
never look at each other: the next outgoing sequence number with the retransmissions, the next
incoming one with the out-of-order segments, and the last acknowledgement with its repeats and the
fast retransmits. Zero stands for "nothing seen yet" in each of them.

## Main results

* `TcpAnalytics.analyze_eq`, `TcpAnalytics.events_eq`: the step of each field and the events, in
  terms of four predicates on the state and the segment;
* `TcpAnalytics.contiguous_not_counted`: two contiguous streams, from any sequence numbers and with
  acknowledgements anywhere between, raise no retransmission and no out-of-order segment.
-/

namespace RustNet

/-- A TCP segment with its direction. -/
structure Segment where
  header : TcpHeaderInfo
  isOutgoing : Bool
deriving DecidableEq

namespace Segment

/-- The segment's sequence number, which wraps at the end of its 32 bits. -/
abbrev seq (s : Segment) : UInt32 := s.header.seq

/-- The sequence numbers it takes up. -/
abbrev consumed (s : Segment) : UInt32 := s.header.seqConsumed

/-- Outgoing and taking up sequence numbers. -/
def Sends (s : Segment) : Prop := s.isOutgoing = true ∧ 0 < s.consumed

/-- Incoming and taking up sequence numbers. -/
def Receives (s : Segment) : Prop := s.isOutgoing = false ∧ 0 < s.consumed

/-- The segment comes in and carries an acknowledgement, which is what the check for duplicates
looks at. -/
def Acknowledges (s : Segment) : Prop := s.isOutgoing = false ∧ s.header.flags.ack = true

instance (s : Segment) : Decidable s.Sends := inferInstanceAs (Decidable (_ ∧ _))

instance (s : Segment) : Decidable s.Receives := inferInstanceAs (Decidable (_ ∧ _))

instance (s : Segment) : Decidable s.Acknowledges := inferInstanceAs (Decidable (_ ∧ _))

end Segment

namespace TcpAnalytics

/-- `analyze_tcp_segment` on a segment's own numbers. -/
def analyzeSegment (a : TcpAnalytics) (s : Segment) : TcpAnalytics × TcpEvents :=
  analyzeTcpSegment a s.header.seq s.header.ack s.header.window s.header.seqConsumed s.isOutgoing
    s.header.flags.ack

/-- The analytics after a segment. -/
def analyze (a : TcpAnalytics) (s : Segment) : TcpAnalytics := (a.analyzeSegment s).1

/-- The events a segment raises. -/
def events (a : TcpAnalytics) (s : Segment) : TcpEvents := (a.analyzeSegment s).2

/-! ## The four predicates -/

/-- The segment is counted as a retransmission. -/
def Retransmits (a : TcpAnalytics) (s : Segment) : Prop :=
  s.Sends ∧ a.lastSeqOutbound ≠ 0 ∧ s.seq < a.lastSeqOutbound

/-- The segment is counted as out of order. -/
def OutOfOrder (a : TcpAnalytics) (s : Segment) : Prop :=
  s.Receives ∧ a.lastSeqInbound ≠ 0 ∧ s.seq < a.lastSeqInbound

/-- The segment repeats the last acknowledgement. -/
def Repeats (a : TcpAnalytics) (s : Segment) : Prop :=
  s.Acknowledges ∧ a.lastAckReceived ≠ 0 ∧ s.header.ack = a.lastAckReceived

/-- The segment is the third to repeat it. -/
def FastRetransmits (a : TcpAnalytics) (s : Segment) : Prop :=
  a.Repeats s ∧ a.duplicateAckCount + 1 = 3

instance (a : TcpAnalytics) (s : Segment) : Decidable (a.Retransmits s) :=
  inferInstanceAs (Decidable (_ ∧ _))

instance (a : TcpAnalytics) (s : Segment) : Decidable (a.OutOfOrder s) :=
  inferInstanceAs (Decidable (_ ∧ _))

instance (a : TcpAnalytics) (s : Segment) : Decidable (a.Repeats s) :=
  inferInstanceAs (Decidable (_ ∧ _))

instance (a : TcpAnalytics) (s : Segment) : Decidable (a.FastRetransmits s) :=
  inferInstanceAs (Decidable (_ ∧ _))

/-! ## The step of each field -/

section Step

variable (a : TcpAnalytics) (s : Segment)

/-- An outgoing segment is looked at by the first record only. -/
theorem analyzeSegment_of_outgoing (h : s.isOutgoing = true) :
    a.analyzeSegment s = analyzeOutbound { a with lastWindowSize := s.header.window } s.header.seq
      s.header.seqConsumed := by
  rw [analyzeSegment, analyzeTcpSegment, if_pos h]

/-- An incoming segment is looked at by the other two. -/
theorem analyzeSegment_of_incoming (h : s.isOutgoing = false) :
    a.analyzeSegment s =
      let afterSeq := analyzeInboundSeq { a with lastWindowSize := s.header.window } s.header.seq
        s.header.seqConsumed
      let afterAck := analyzeInboundAck afterSeq.1 s.header.ack s.header.flags.ack
      (afterAck.1, 0, afterSeq.2.2.1, afterAck.2.2.2) := by
  rw [analyzeSegment, analyzeTcpSegment, if_neg (by simp [h])]

/-- The first record: an in-order segment, and the first one, move the expected number. -/
theorem analyzeOutbound_eq (seq payloadLen : UInt32) :
    analyzeOutbound a seq payloadLen =
      let retransmits := 0 < payloadLen ∧ a.lastSeqOutbound ≠ 0 ∧ seq < a.lastSeqOutbound
      ({ a with
          lastSeqOutbound :=
            if 0 < payloadLen ∧ (a.lastSeqOutbound = 0 ∨ seq = a.lastSeqOutbound) then
              seq + payloadLen
            else a.lastSeqOutbound
          retransmitCount := a.retransmitCount + if retransmits then 1 else 0 },
        (if retransmits then 1 else 0), 0, 0) := by
  -- empty, the first of its direction, behind, expected, or ahead
  by_cases hlen : 0 < payloadLen
  · by_cases hseen : a.lastSeqOutbound = 0
    · simp [analyzeOutbound, hlen, hseen]
    · by_cases hlt : seq < a.lastSeqOutbound
      · simp [analyzeOutbound, hlen, hseen, hlt, UInt32.ne_of_lt hlt]
      · by_cases heq : seq = a.lastSeqOutbound
        · simp [analyzeOutbound, hlen, hseen, heq]
        · have hgt : a.lastSeqOutbound < seq := (UInt32.lt_or_lt_of_ne heq).resolve_left hlt
          simp [analyzeOutbound, hlen, hseen, hlt, heq, hgt]
  · simp [analyzeOutbound, hlen]

/-- The second record: every segment moves the expected number but one that comes late. -/
theorem analyzeInboundSeq_eq (seq payloadLen : UInt32) :
    analyzeInboundSeq a seq payloadLen =
      let outOfOrder := 0 < payloadLen ∧ a.lastSeqInbound ≠ 0 ∧ seq < a.lastSeqInbound
      ({ a with
          lastSeqInbound :=
            if 0 < payloadLen ∧ (a.lastSeqInbound = 0 ∨ a.lastSeqInbound ≤ seq) then
              seq + payloadLen
            else a.lastSeqInbound
          outOfOrderCount := a.outOfOrderCount + if outOfOrder then 1 else 0 },
        0, (if outOfOrder then 1 else 0), 0) := by
  by_cases hlen : 0 < payloadLen
  · by_cases hseen : a.lastSeqInbound = 0
    · simp [analyzeInboundSeq, hlen, hseen]
    · by_cases hlt : seq < a.lastSeqInbound
      · simp [analyzeInboundSeq, hlen, hseen, hlt, UInt32.not_le.mpr hlt]
      · simp [analyzeInboundSeq, hlen, hseen, hlt, UInt32.not_lt.mp hlt]
  · simp [analyzeInboundSeq, hlen]

/-- The third record: the last acknowledgement, and how often it was repeated. -/
theorem analyzeInboundAck_eq (ack : UInt32) (hasAckFlag : Bool) :
    analyzeInboundAck a ack hasAckFlag =
      let repeats := hasAckFlag = true ∧ a.lastAckReceived ≠ 0 ∧ ack = a.lastAckReceived
      let fast := repeats ∧ a.duplicateAckCount + 1 = 3
      ({ a with
          lastAckReceived := if hasAckFlag then ack else a.lastAckReceived
          duplicateAckCount :=
            if repeats then a.duplicateAckCount + 1
            else if hasAckFlag = true ∧ a.lastAckReceived ≠ 0 then 0
            else a.duplicateAckCount
          fastRetransmitCount := a.fastRetransmitCount + if fast then 1 else 0 },
        0, 0, (if fast then 1 else 0)) := by
  -- the branches of the source, from the outermost on
  by_cases hflag : hasAckFlag = true
  · by_cases hseen : a.lastAckReceived = 0
    · simp [analyzeInboundAck, hflag, hseen]
    · by_cases heq : ack = a.lastAckReceived
      · by_cases hthird : a.duplicateAckCount + 1 = 3
        · simp [analyzeInboundAck, hflag, hseen, heq, hthird]
        · simp [analyzeInboundAck, hflag, hseen, heq, hthird]
      · simp [analyzeInboundAck, hflag, hseen, heq]
  · simp [analyzeInboundAck, hflag]

/-- The analytics after a segment, all records together. -/
theorem analyze_eq :
    a.analyze s =
      { lastSeqOutbound :=
          if s.Sends ∧ (a.lastSeqOutbound = 0 ∨ s.seq = a.lastSeqOutbound) then s.seq + s.consumed
          else a.lastSeqOutbound
        lastSeqInbound :=
          if s.Receives ∧ (a.lastSeqInbound = 0 ∨ a.lastSeqInbound ≤ s.seq) then s.seq + s.consumed
          else a.lastSeqInbound
        lastAckReceived := if s.Acknowledges then s.header.ack else a.lastAckReceived
        duplicateAckCount :=
          if a.Repeats s then a.duplicateAckCount + 1
          else if s.Acknowledges ∧ a.lastAckReceived ≠ 0 then 0
          else a.duplicateAckCount
        retransmitCount := a.retransmitCount + if a.Retransmits s then 1 else 0
        outOfOrderCount := a.outOfOrderCount + if a.OutOfOrder s then 1 else 0
        fastRetransmitCount := a.fastRetransmitCount + if a.FastRetransmits s then 1 else 0
        lastWindowSize := s.header.window } := by
  -- each direction has checks of its own
  rcases hout : s.isOutgoing with _ | _
  · simp [analyze, analyzeSegment_of_incoming a s hout, analyzeInboundSeq_eq,
      analyzeInboundAck_eq, Segment.Sends, Segment.Receives, Segment.Acknowledges, Retransmits,
      OutOfOrder, Repeats, FastRetransmits, hout]
  · simp [analyze, analyzeSegment_of_outgoing a s hout, analyzeOutbound_eq, Segment.Sends,
      Segment.Receives, Segment.Acknowledges, Retransmits, OutOfOrder, Repeats, FastRetransmits,
      hout]

/-- The events of a segment, all records together. -/
theorem events_eq :
    a.events s =
      ((if a.Retransmits s then 1 else 0), (if a.OutOfOrder s then 1 else 0),
        (if a.FastRetransmits s then 1 else 0)) := by
  rcases hout : s.isOutgoing with _ | _
  · simp [events, analyzeSegment_of_incoming a s hout, analyzeInboundSeq_eq,
      analyzeInboundAck_eq, Segment.Sends, Segment.Receives, Segment.Acknowledges, Retransmits,
      OutOfOrder, Repeats, FastRetransmits, hout]
  · simp [events, analyzeSegment_of_outgoing a s hout, analyzeOutbound_eq, Segment.Sends,
      Segment.Receives, Segment.Acknowledges, Retransmits, OutOfOrder, Repeats, FastRetransmits,
      hout]

theorem analyze_lastSeqOutbound :
    (a.analyze s).lastSeqOutbound =
      if s.Sends ∧ (a.lastSeqOutbound = 0 ∨ s.seq = a.lastSeqOutbound) then s.seq + s.consumed
      else a.lastSeqOutbound := by
  rw [analyze_eq]

theorem analyze_lastSeqInbound :
    (a.analyze s).lastSeqInbound =
      if s.Receives ∧ (a.lastSeqInbound = 0 ∨ a.lastSeqInbound ≤ s.seq) then s.seq + s.consumed
      else a.lastSeqInbound := by
  rw [analyze_eq]

theorem analyze_lastAckReceived :
    (a.analyze s).lastAckReceived =
      if s.Acknowledges then s.header.ack else a.lastAckReceived := by
  rw [analyze_eq]

theorem analyze_duplicateAckCount :
    (a.analyze s).duplicateAckCount =
      if a.Repeats s then a.duplicateAckCount + 1
      else if s.Acknowledges ∧ a.lastAckReceived ≠ 0 then 0
      else a.duplicateAckCount := by
  rw [analyze_eq]

theorem analyze_retransmitCount :
    (a.analyze s).retransmitCount = a.retransmitCount + if a.Retransmits s then 1 else 0 := by
  rw [analyze_eq]

theorem analyze_outOfOrderCount :
    (a.analyze s).outOfOrderCount = a.outOfOrderCount + if a.OutOfOrder s then 1 else 0 := by
  rw [analyze_eq]

theorem analyze_fastRetransmitCount :
    (a.analyze s).fastRetransmitCount =
      a.fastRetransmitCount + if a.FastRetransmits s then 1 else 0 := by
  rw [analyze_eq]

end Step

end TcpAnalytics

/-! ## Contiguous streams -/

/-- The next sequence number of either direction, once a segment has taken one up. -/
structure Expected where
  outgoing : Option UInt32
  incoming : Option UInt32

namespace Expected

/-- The next numbers after a segment. -/
def next (e : Expected) (s : Segment) : Expected where
  outgoing := if s.Sends then some (s.seq + s.consumed) else e.outgoing
  incoming := if s.Receives then some (s.seq + s.consumed) else e.incoming

/-- A segment that takes up numbers starts at the next one of its direction, wherever that
direction has one. -/
def InOrder (e : Expected) (s : Segment) : Prop :=
  (s.Sends → e.outgoing = none ∨ e.outgoing = some s.seq) ∧
    (s.Receives → e.incoming = none ∨ e.incoming = some s.seq)

instance (e : Expected) (s : Segment) : Decidable (e.InOrder s) :=
  inferInstanceAs (Decidable ((_ → _) ∧ (_ → _)))

/-- The analytics expect the same numbers, with zero for none, and have counted nothing. -/
structure AgreesWith (e : Expected) (a : TcpAnalytics) : Prop where
  outbound : a.lastSeqOutbound = e.outgoing.getD 0
  inbound : a.lastSeqInbound = e.incoming.getD 0
  retransmitCount : a.retransmitCount = 0
  outOfOrderCount : a.outOfOrderCount = 0

end Expected

/-- Segments of two contiguous streams, in any order between the directions. -/
def Contiguous (l : List Segment) : Prop :=
  Run.Along Expected.next Expected.InOrder ⟨none, none⟩ l

instance (l : List Segment) : Decidable (Contiguous l) := Run.Along.decidable _ l

namespace TcpAnalytics

variable {e : Expected} {a : TcpAnalytics} {s : Segment}

/-- A segment at the next number, where there is one, is at the expected one, with zero for none. -/
theorem starts_of_next {next : Option UInt32} {seq : UInt32}
    (h : next = none ∨ next = some seq) : next.getD 0 = 0 ∨ seq = next.getD 0 := by
  rcases h with rfl | rfl
  · exact Or.inl rfl
  · exact Or.inr rfl

/-- An in-order segment is at the number expected in its direction. -/
theorem starts_outbound (he : e.AgreesWith a) (h : e.InOrder s) (hs : s.Sends) :
    a.lastSeqOutbound = 0 ∨ s.seq = a.lastSeqOutbound := by
  rw [he.outbound]
  exact starts_of_next (h.1 hs)

theorem starts_inbound (he : e.AgreesWith a) (h : e.InOrder s) (hs : s.Receives) :
    a.lastSeqInbound = 0 ∨ s.seq = a.lastSeqInbound := by
  rw [he.inbound]
  exact starts_of_next (h.2 hs)

/-- So it is not below that number. -/
theorem not_retransmits_of_inOrder (he : e.AgreesWith a) (h : e.InOrder s) : ¬ a.Retransmits s := by
  rintro ⟨hsends, hseen, hlt⟩
  rcases starts_outbound he h hsends with hzero | hnext
  · exact hseen hzero
  · exact UInt32.ne_of_lt hlt hnext

theorem not_outOfOrder_of_inOrder (he : e.AgreesWith a) (h : e.InOrder s) : ¬ a.OutOfOrder s := by
  rintro ⟨hreceives, hseen, hlt⟩
  rcases starts_inbound he h hreceives with hzero | hnext
  · exact hseen hzero
  · exact UInt32.ne_of_lt hlt hnext

/-- An in-order segment moves the expected numbers as it should. -/
theorem agreesWith_analyze (he : e.AgreesWith a) (h : e.InOrder s) :
    (e.next s).AgreesWith (a.analyze s) := by
  -- the two expected numbers, and the two counters that stay
  refine ⟨?_, ?_, ?_, ?_⟩
  · rw [analyze_lastSeqOutbound]
    show _ = Option.getD (if s.Sends then some (s.seq + s.consumed) else e.outgoing) 0
    by_cases hsends : s.Sends
    · rw [if_pos ⟨hsends, starts_outbound he h hsends⟩, if_pos hsends, Option.getD_some]
    · rw [if_neg fun hand => hsends hand.1, if_neg hsends, he.outbound]
  · rw [analyze_lastSeqInbound]
    show _ = Option.getD (if s.Receives then some (s.seq + s.consumed) else e.incoming) 0
    by_cases hreceives : s.Receives
    · have hstarts : a.lastSeqInbound = 0 ∨ a.lastSeqInbound ≤ s.seq := by
        refine (starts_inbound he h hreceives).imp_right fun hnext => ?_
        rw [← hnext]
        exact UInt32.le_refl s.seq
      rw [if_pos ⟨hreceives, hstarts⟩, if_pos hreceives, Option.getD_some]
    · rw [if_neg fun hand => hreceives hand.1, if_neg hreceives, he.inbound]
  · rw [analyze_retransmitCount, if_neg (not_retransmits_of_inOrder he h), he.retransmitCount]
    rfl
  · rw [analyze_outOfOrderCount, if_neg (not_outOfOrder_of_inOrder he h), he.outOfOrderCount]
    rfl

/-- Two contiguous streams raise no retransmission and no out-of-order segment, at any step. In each
direction every segment that takes up numbers starts where the one before it ended (`h`), from any
initial numbers, and the numbers wrap at `2 ^ 32`; the directions are interleaved in any way. -/
theorem contiguous_not_counted {l : List Segment} (h : Contiguous l) :
    Run.Along analyze (fun a s => (a.events s).1 = 0 ∧ (a.events s).2.1 = 0) .new l ∧
      (l.foldl analyze .new).retransmitCount = 0 ∧ (l.foldl analyze .new).outOfOrderCount = 0 := by
  have hstart : Expected.AgreesWith ⟨none, none⟩ .new := ⟨rfl, rfl, rfl, rfl⟩
  have hstep : ∀ (e : Expected) (a : TcpAnalytics) (s : Segment), e.AgreesWith a → e.InOrder s →
      (e.next s).AgreesWith (a.analyze s) ∧ ((a.events s).1 = 0 ∧ (a.events s).2.1 = 0) := by
    intro e a s he hs
    refine ⟨agreesWith_analyze he hs, ?_, ?_⟩
    · rw [events_eq, if_neg (not_retransmits_of_inOrder he hs)]
    · rw [events_eq, if_neg (not_outOfOrder_of_inOrder he hs)]
  obtain ⟨hsteps, hend⟩ := h.simulate hstep hstart
  exact ⟨hsteps, hend.retransmitCount, hend.outOfOrderCount⟩

end TcpAnalytics

/-- Flags of which only these three are set. -/
def sampleFlags (syn fin ack : Bool) : TcpFlags := ⟨fin, syn, false, false, ack, false⟩

/-- A segment of two streams that start near the end of the sequence space. -/
def sampleTcpSegment (isOutgoing : Bool) (seq payloadLen : UInt32) (flags : TcpFlags) : Segment where
  header := ⟨seq, 0, 0, flags, payloadLen⟩
  isOutgoing := isOutgoing

/-- An exchange whose outgoing numbers wrap to zero behind the SYN. -/
def sampleStreams : List Segment :=
  [sampleTcpSegment true 0xffffffff 0 (sampleFlags true false false),
    sampleTcpSegment false 0xfffffff0 0 (sampleFlags true false true),
    sampleTcpSegment true 0 0 (sampleFlags false false true),
    sampleTcpSegment true 0 100 (sampleFlags false false true),
    sampleTcpSegment false 0xfffffff1 40 (sampleFlags false false true),
    sampleTcpSegment true 100 0 (sampleFlags false true true),
    sampleTcpSegment false 25 0 (sampleFlags false true true),
    sampleTcpSegment true 101 0 (sampleFlags false false true)]

/-- The exchange is contiguous and nothing of it is counted. -/
theorem sampleStreams_not_counted :
    Contiguous sampleStreams ∧
      (sampleStreams.foldl TcpAnalytics.analyze .new).retransmitCount = 0 ∧
      (sampleStreams.foldl TcpAnalytics.analyze .new).outOfOrderCount = 0 := by
  have hcontiguous : Contiguous sampleStreams := by decide +kernel
  exact ⟨hcontiguous, (TcpAnalytics.contiguous_not_counted hcontiguous).2⟩

end RustNet
