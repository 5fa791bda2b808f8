import RustNet.Network.Tcp.Segments

/-!
# Opening and closing a TCP connection

The state machine of `update_tcp_state` against the sequences of segments that RFC 793 has for
opening and closing a connection, seen from either end.

An active open is followed to `Established`. A passive open is not: its last segment comes from
the other side, and the arm that leaves `SynReceived` waits for an outgoing one, so the connection
stays in `SynReceived` until the local side sends.

A close is followed to its end, except when the local side closes first and the peer acknowledges
and closes in one segment: that is taken for a simultaneous close, which ends in `Closing`.

Sequence numbers are free in what follows, because the state does not depend on them.

## Main definitions

* `Handshake`: the three segments of an open, with their flags and directions;
* `CloseSequence`: the segments of a close, the peer's answer being one segment or two.

## Main results

* `handshake_established_iff`: which opens end in `Established`;
* `close_ends_iff`: which closes end in `TimeWait` or `Closed`, as they should.
-/

namespace RustNet

/-- An end of a connection. -/
inductive Side
  | localSide
  | remoteSide
deriving DecidableEq

/-- The direction of the segments that a side sends. -/
def Side.isOutgoing : Side → Bool
  | .localSide => true
  | .remoteSide => false

/-- The side at the other end. -/
def Side.other : Side → Side
  | .localSide => .remoteSide
  | .remoteSide => .localSide

/-! ## Opening -/

/-- A three-way handshake: SYN, SYN-ACK and ACK of one flow, the opener sending the first and the
last. -/
structure Handshake where
  opener : Side
  syn : Arrival
  synAck : Arrival
  ack : Arrival
  syn_isSyn : syn.parsed.IsSyn
  synAck_isSynAck : synAck.parsed.IsSynAck
  ack_isAck : ack.parsed.IsAck
  syn_isOutgoing : syn.parsed.isOutgoing = opener.isOutgoing
  synAck_isOutgoing : synAck.parsed.isOutgoing = opener.other.isOutgoing
  ack_isOutgoing : ack.parsed.isOutgoing = opener.isOutgoing
  synAck_key : synAck.parsed.connectionKey = syn.parsed.connectionKey
  ack_key : ack.parsed.connectionKey = syn.parsed.connectionKey

namespace Handshake

/-- The segments in the order of their arrival. -/
def arrivals (h : Handshake) : List Arrival := [h.syn, h.synAck, h.ack]

/-- The state after a handshake: `Established` for an active open only. -/
theorem foldl_tcpStep (h : Handshake) :
    (h.arrivals.map Arrival.parsed).foldl ParsedPacket.tcpStep .unknown =
      match h.opener with
      | .localSide => .established
      | .remoteSide => .synReceived := by
  simp only [arrivals, List.map_cons, List.map_nil, List.foldl_cons, List.foldl_nil]
  rw [ParsedPacket.tcpStep_of_hasFlags h.syn_isSyn, h.syn_isOutgoing,
    ParsedPacket.tcpStep_of_hasFlags h.synAck_isSynAck, h.synAck_isOutgoing,
    ParsedPacket.tcpStep_of_hasFlags h.ack_isAck, h.ack_isOutgoing]
  cases h.opener with
  | localSide => rfl
  | remoteSide => rfl

end Handshake

/-- Data and acknowledgements leave an established connection established. -/
theorem foldl_tcpStep_established {data : List ParsedPacket} (hdata : ∀ p ∈ data, p.IsAck) :
    data.foldl ParsedPacket.tcpStep .established = .established := by
  induction data with
  | nil => rfl
  | cons p data ih =>
    rw [List.foldl_cons, ParsedPacket.tcpStep_of_hasFlags (hdata p List.mem_cons_self)]
    have hstep : updateTcpState .established ⟨false, false, false, false, true, false⟩
        p.isOutgoing = .established := by
      cases p.isOutgoing <;> rfl
    rw [hstep]
    exact ih fun q hq => hdata q (List.mem_cons_of_mem p hq)

/-- Data and acknowledgements take `SynReceived` to `Established` as soon as one of them is
outgoing. -/
theorem foldl_tcpStep_synReceived {data : List ParsedPacket} (hdata : ∀ p ∈ data, p.IsAck) :
    data.foldl ParsedPacket.tcpStep .synReceived =
      if ∃ p ∈ data, p.isOutgoing = true then .established else .synReceived := by
  induction data with
  | nil => rfl
  | cons p data ih =>
    have hrest : ∀ q ∈ data, q.IsAck := fun q hq => hdata q (List.mem_cons_of_mem p hq)
    rw [List.foldl_cons, ParsedPacket.tcpStep_of_hasFlags (hdata p List.mem_cons_self)]
    cases hout : p.isOutgoing with
    -- the arm of `SynReceived` is guarded by the outgoing direction
    | true =>
      rw [if_pos ⟨p, List.mem_cons_self, hout⟩]
      exact foldl_tcpStep_established hrest
    | false =>
      have hsame : (∃ q ∈ p :: data, q.isOutgoing = true) ↔ ∃ q ∈ data, q.isOutgoing = true := by
        simp [hout]
      rw [if_congr hsame rfl rfl]
      exact ih hrest

/-- A handshake and the data after it leave the tracked connection in `Established` exactly if the
local side opened it, or has sent a segment since. The data are any segments with ACK and neither
SYN, FIN nor RST (`hdata`), from either side. -/
theorem handshake_established_iff [DeepPacketInspection] (h : Handshake) (data : List Arrival)
    (hdata : ∀ a ∈ data, a.parsed.IsAck) :
    (track h.syn (h.synAck :: h.ack :: data)).protocolState = .tcp .established ↔
      h.opener = .localSide ∨ ∃ a ∈ data, a.parsed.isOutgoing = true := by
  have hdata' : ∀ p ∈ data.map Arrival.parsed, p.IsAck := by
    simpa using hdata
  -- the handshake decides the state that the data starts from
  have hstate : (track h.syn (h.synAck :: h.ack :: data)).protocolState =
      .tcp ((data.map Arrival.parsed).foldl ParsedPacket.tcpStep
        ((h.arrivals.map Arrival.parsed).foldl ParsedPacket.tcpStep .unknown)) := by
    rw [track_protocolState h.syn_isSyn.protocol, ← List.foldl_append, ← List.map_append]
    rfl
  rw [hstate, h.foldl_tcpStep, ProtocolState.tcp.injEq]
  cases h.opener with
  | localSide => exact iff_of_true (foldl_tcpStep_established hdata') (Or.inl rfl)
  -- after a passive open it takes an outgoing segment
  | remoteSide =>
    dsimp only
    rw [foldl_tcpStep_synReceived hdata']
    by_cases hout : ∃ a ∈ data, a.parsed.isOutgoing = true
    · have hout' : ∃ p ∈ data.map Arrival.parsed, p.isOutgoing = true := by simpa using hout
      rw [if_pos hout']
      exact iff_of_true rfl (Or.inr hout)
    · have hout' : ¬ ∃ p ∈ data.map Arrival.parsed, p.isOutgoing = true := by simpa using hout
      rw [if_neg hout']
      refine iff_of_false TcpState.noConfusion ?_
      rintro (hside | hsent)
      · exact Side.noConfusion hside
      · exact hout hsent

/-- An arrival on a connection to port 22 of the local host. -/
def sampleArrival (syn ack fin : Bool) (sender : Side) : Arrival where
  parsed := .ofTcp (.lan 1 22) (.lan 2 5000)
    { seq := 1
      ack := 1
      window := 512
      flags := ⟨fin, syn, false, false, ack, false⟩
      payloadLen := 0 } sender.isOutgoing 60
  now := ⟨0⟩
  clock := .constant 0

/-- The handshake of that connection, opened by either side. -/
def sampleHandshake (opener : Side) : Handshake where
  opener := opener
  syn := sampleArrival true false false opener
  synAck := sampleArrival true true false opener.other
  ack := sampleArrival false true false opener
  syn_isSyn := ⟨_, rfl, rfl, rfl, rfl, rfl⟩
  synAck_isSynAck := ⟨_, rfl, rfl, rfl, rfl, rfl⟩
  ack_isAck := ⟨_, rfl, rfl, rfl, rfl, rfl⟩
  syn_isOutgoing := rfl
  synAck_isOutgoing := rfl
  ack_isOutgoing := rfl
  synAck_key := rfl
  ack_key := rfl

/-- A connection that the local side accepts is in `SynReceived` after its handshake. -/
theorem passiveOpen_not_established :
    letI : DeepPacketInspection := .silent
    ¬ (track (sampleHandshake .remoteSide).syn
        [(sampleHandshake .remoteSide).synAck, (sampleHandshake .remoteSide).ack]).protocolState =
      .tcp .established := by
  decide +kernel

/-- A passive open with one incoming and one outgoing segment after it is established. -/
theorem passiveOpen_established_of_reply :
    letI : DeepPacketInspection := .silent
    (track (sampleHandshake .remoteSide).syn
        [(sampleHandshake .remoteSide).synAck, (sampleHandshake .remoteSide).ack,
          sampleArrival false true false .remoteSide,
          sampleArrival false true false .localSide]).protocolState =
      .tcp .established := by
  have hdata : ∀ a ∈ [sampleArrival false true false .remoteSide,
      sampleArrival false true false .localSide], a.parsed.IsAck := by
    rintro a (- | ⟨-, - | ⟨-, ⟨⟩⟩⟩)
    · exact ⟨_, rfl, rfl, rfl, rfl, rfl⟩
    · exact ⟨_, rfl, rfl, rfl, rfl, rfl⟩
  exact (@handshake_established_iff .silent (sampleHandshake .remoteSide) _ hdata).mpr
    (Or.inr ⟨_, List.mem_cons_of_mem _ List.mem_cons_self, rfl⟩)

/-! ## Closing -/

/-- The peer's answer to a FIN: its acknowledgement and its own FIN. -/
inductive Answer
  | together (finAck : Arrival)
  | apart (ack fin : Arrival)

namespace Answer

/-- The segments of the answer, in order. -/
def arrivals : Answer → List Arrival
  | together finAck => [finAck]
  | apart ack fin => [ack, fin]

/-- The answer is one segment. -/
def IsTogether : Answer → Prop
  | together _ => True
  | apart _ _ => False

/-- The answer has the flags of one, and is sent by `sender`. -/
def IsFrom (sender : Side) : Answer → Prop
  | together finAck => finAck.parsed.IsFinAck ∧ finAck.parsed.isOutgoing = sender.isOutgoing
  | apart ack fin =>
    (ack.parsed.IsAck ∧ ack.parsed.isOutgoing = sender.isOutgoing) ∧
      fin.parsed.IsFin ∧ fin.parsed.isOutgoing = sender.isOutgoing

end Answer

/-- A close: the closer's FIN, the peer's answer and the closer's acknowledgement of it. -/
structure CloseSequence where
  closer : Side
  fin : Arrival
  answer : Answer
  lastAck : Arrival
  fin_isFin : fin.parsed.IsFin
  fin_isOutgoing : fin.parsed.isOutgoing = closer.isOutgoing
  answer_isFrom : answer.IsFrom closer.other
  lastAck_isAck : lastAck.parsed.IsAck
  lastAck_isOutgoing : lastAck.parsed.isOutgoing = closer.isOutgoing

namespace CloseSequence

/-- The segments in the order of their arrival. -/
def arrivals (c : CloseSequence) : List Arrival :=
  c.fin :: (c.answer.arrivals ++ [c.lastAck])

/-- The state that the local side is in after the close. -/
def finalState (c : CloseSequence) : TcpState :=
  match c.closer with
  | .localSide => .timeWait
  | .remoteSide => .closed

/-- The state after the closer's FIN. -/
theorem tcpStep_fin (c : CloseSequence) :
    ParsedPacket.tcpStep .established c.fin.parsed =
      match c.closer with
      | .localSide => .finWait1
      | .remoteSide => .closeWait := by
  obtain ⟨ack, hfin⟩ := c.fin_isFin
  rw [ParsedPacket.tcpStep_of_hasFlags hfin, c.fin_isOutgoing]
  -- whether the FIN acknowledges makes no difference
  cases c.closer <;> cases ack <;> rfl

/-- The state after the peer's answer. -/
theorem foldl_tcpStep_answer (c : CloseSequence) :
    ((c.fin :: c.answer.arrivals).map Arrival.parsed).foldl ParsedPacket.tcpStep .established =
      match c.closer, c.answer with
      | .localSide, .together _ => .closing
      | .localSide, .apart _ _ => .timeWait
      | .remoteSide, _ => .lastAck := by
  rw [List.map_cons, List.foldl_cons, tcpStep_fin]
  have hfrom := c.answer_isFrom
  cases hanswer : c.answer with
  -- in `FinWait1` a FIN with ACK matches the arm of the simultaneous close
  | together finAck =>
    rw [hanswer] at hfrom
    obtain ⟨hflags, hout⟩ := hfrom
    simp only [Answer.arrivals, List.map_cons, List.map_nil, List.foldl_cons, List.foldl_nil]
    rw [ParsedPacket.tcpStep_of_hasFlags hflags, hout]
    cases c.closer <;> rfl
  -- the ACK alone leads through `FinWait2`
  | apart ack fin =>
    rw [hanswer] at hfrom
    obtain ⟨⟨hack, hackOut⟩, ⟨finAcks, hfin⟩, hfinOut⟩ := hfrom
    simp only [Answer.arrivals, List.map_cons, List.map_nil, List.foldl_cons, List.foldl_nil]
    rw [ParsedPacket.tcpStep_of_hasFlags hack, hackOut, ParsedPacket.tcpStep_of_hasFlags hfin,
      hfinOut]
    cases c.closer <;> cases finAcks <;> rfl

/-- The state after the whole close. -/
theorem foldl_tcpStep (c : CloseSequence) :
    (c.arrivals.map Arrival.parsed).foldl ParsedPacket.tcpStep .established =
      match c.closer, c.answer with
      | .localSide, .together _ => .closing
      | .localSide, .apart _ _ => .timeWait
      | .remoteSide, _ => .closed := by
  have hsplit : c.arrivals = (c.fin :: c.answer.arrivals) ++ [c.lastAck] := rfl
  rw [hsplit, List.map_append, List.foldl_append, foldl_tcpStep_answer]
  simp only [List.map_cons, List.map_nil, List.foldl_cons, List.foldl_nil]
  rw [ParsedPacket.tcpStep_of_hasFlags c.lastAck_isAck, c.lastAck_isOutgoing]
  -- the closer's last ACK is incoming, as `LastAck` and `Closing` ask, only from the remote side
  cases c.closer <;> cases c.answer <;> rfl

end CloseSequence

/-- A close of an established connection ends in the state it should, exactly if it is not one in
which the local side closes first and the peer answers with a single segment. The connection is any
that is established (`hconn`); either side closes first, and the answer to its FIN comes as one
segment or as two. -/
theorem close_ends_iff [DeepPacketInspection] {conn : Connection}
    (hconn : conn.protocolState = .tcp .established) (c : CloseSequence) :
    (c.arrivals.foldl Connection.merge conn).protocolState = .tcp c.finalState ↔
      ¬ (c.closer = .localSide ∧ c.answer.IsTogether) := by
  rw [foldl_merge_protocolState hconn, c.foldl_tcpStep, ProtocolState.tcp.injEq,
    CloseSequence.finalState]
  cases c.closer with
  | localSide =>
    cases c.answer with
    | together finAck =>
      exact iff_of_false TcpState.noConfusion fun h => h ⟨rfl, trivial⟩
    | apart ack fin => exact iff_of_true rfl And.right
  | remoteSide => exact iff_of_true rfl fun h => Side.noConfusion h.1

/-- A close of the sample connection that the local side starts. -/
def sampleClose (answer : Answer) (h : answer.IsFrom .remoteSide) : CloseSequence where
  closer := .localSide
  fin := sampleArrival false true true .localSide
  answer := answer
  lastAck := sampleArrival false true false .localSide
  fin_isFin := ⟨true, _, rfl, rfl, rfl, rfl, rfl⟩
  fin_isOutgoing := rfl
  answer_isFrom := h
  lastAck_isAck := ⟨_, rfl, rfl, rfl, rfl, rfl⟩
  lastAck_isOutgoing := rfl

/-- The sample connection, opened by the local side. -/
def sampleEstablished [DeepPacketInspection] : Connection :=
  track (sampleHandshake .localSide).syn
    [(sampleHandshake .localSide).synAck, (sampleHandshake .localSide).ack]

/-- Closed by the local side and answered in one segment, the connection stays in `Closing`. -/
theorem combinedAnswer_not_timeWait :
    letI : DeepPacketInspection := .silent
    ¬ ((sampleClose (.together (sampleArrival false true true .remoteSide))
          ⟨⟨_, rfl, rfl, rfl, rfl, rfl⟩, rfl⟩).arrivals.foldl Connection.merge
        sampleEstablished).protocolState = .tcp .timeWait := by
  decide +kernel

/-- Answered in two segments, it ends in `TimeWait`. -/
theorem separateAnswer_timeWait :
    letI : DeepPacketInspection := .silent
    ((sampleClose (.apart (sampleArrival false true false .remoteSide)
          (sampleArrival false true true .remoteSide))
          ⟨⟨⟨_, rfl, rfl, rfl, rfl, rfl⟩, rfl⟩, ⟨true, _, rfl, rfl, rfl, rfl, rfl⟩,
            rfl⟩).arrivals.foldl
        Connection.merge sampleEstablished).protocolState = .tcp .timeWait :=
  (@close_ends_iff .silent _ (by decide +kernel) _).mpr And.right

end RustNet
