import RustNet.Network.Parser.Packet
import RustNet.Network.Types.Measurement

/-!
# TCP state and segment analysis

`update_tcp_state`, the observer's TCP state machine, and `analyze_tcp_segment`, which counts
retransmissions, out-of-order segments and fast retransmits. The arms of the state machine are the
source's, in its order, with the direction guard as a sixth pattern.
-/

namespace RustNet

/-- `update_tcp_state`: the state after one segment, from its flags and its direction. A reset
closes in any state, and a segment that is not expected leaves the state as it is. -/
def updateTcpState (currentState : TcpState) (flags : TcpFlags) (isOutgoing : Bool) : TcpState :=
  match currentState, flags.syn, flags.ack, flags.fin, flags.rst, isOutgoing with
  -- connection establishment
  | .unknown, true, false, false, false, false => .synReceived
  | .unknown, true, false, false, false, true => .synSent
  | .synSent, true, true, false, false, false => .established
  | .synReceived, false, true, false, false, true => .established
  -- parsing started after the SYN-ACK
  | .unknown, false, true, false, false, _ => .established
  | .unknown, false, true, true, false, _ => .established
  -- connection termination
  | .established, false, _, true, false, true => .finWait1
  | .established, false, _, true, false, false => .closeWait
  | .finWait1, false, true, false, false, false => .finWait2
  | .finWait1, false, _, true, false, false => .closing
  | .finWait2, false, _, true, false, false => .timeWait
  | .closeWait, false, _, true, false, true => .lastAck
  | .lastAck, false, true, false, false, false => .closed
  | .closing, false, true, false, false, false => .timeWait
  -- connection reset
  | _, _, _, _, true, _ => .closed
  | state, _, _, _, _, _ => state

/-- New retransmissions, out-of-order segments and fast retransmits, in this order. -/
abbrev TcpEvents := UInt64 × UInt64 × UInt64

/-- The outbound half of `analyze_tcp_segment`. -/
def analyzeOutbound (analytics : TcpAnalytics) (seq payloadLen : UInt32) :
    TcpAnalytics × TcpEvents :=
  if 0 < payloadLen then
    if analytics.lastSeqOutbound ≠ 0 then
      -- below the expected sequence number, compared without wrapping
      if seq < analytics.lastSeqOutbound then
        ({ analytics with retransmitCount := analytics.retransmitCount + 1 }, (1, 0, 0))
      -- a gap leaves the expected number where it is
      else if analytics.lastSeqOutbound < seq then (analytics, (0, 0, 0))
      else ({ analytics with lastSeqOutbound := seq + payloadLen }, (0, 0, 0))
    else ({ analytics with lastSeqOutbound := seq + payloadLen }, (0, 0, 0))
  else (analytics, (0, 0, 0))

/-- The inbound sequence-number check of `analyze_tcp_segment`. -/
def analyzeInboundSeq (analytics : TcpAnalytics) (seq payloadLen : UInt32) :
    TcpAnalytics × TcpEvents :=
  if 0 < payloadLen then
    if analytics.lastSeqInbound ≠ 0 then
      if seq < analytics.lastSeqInbound then
        ({ analytics with outOfOrderCount := analytics.outOfOrderCount + 1 }, (0, 1, 0))
      else ({ analytics with lastSeqInbound := seq + payloadLen }, (0, 0, 0))
    else ({ analytics with lastSeqInbound := seq + payloadLen }, (0, 0, 0))
  else (analytics, (0, 0, 0))

/-- The inbound duplicate-ACK check of `analyze_tcp_segment`. -/
def analyzeInboundAck (analytics : TcpAnalytics) (ack : UInt32) (hasAckFlag : Bool) :
    TcpAnalytics × TcpEvents :=
  if hasAckFlag then
    if analytics.lastAckReceived ≠ 0 then
      if ack = analytics.lastAckReceived then
        let analytics :=
          { analytics with duplicateAckCount := analytics.duplicateAckCount + 1 }
        -- the third duplicate counts once, later ones do not
        if analytics.duplicateAckCount = 3 then
          ({ analytics with fastRetransmitCount := analytics.fastRetransmitCount + 1 }, (0, 0, 1))
        else (analytics, (0, 0, 0))
      else ({ analytics with lastAckReceived := ack, duplicateAckCount := 0 }, (0, 0, 0))
    else ({ analytics with lastAckReceived := ack }, (0, 0, 0))
  else (analytics, (0, 0, 0))

/-- `analyze_tcp_segment`: the window is recorded for every segment. A segment that is sent is
checked for retransmissions, one that arrives for its order and its acknowledgement. -/
def analyzeTcpSegment (analytics : TcpAnalytics) (seq ack : UInt32) (window : UInt16)
    (payloadLen : UInt32) (isOutgoing hasAckFlag : Bool) : TcpAnalytics × TcpEvents :=
  let analytics := { analytics with lastWindowSize := window }
  if isOutgoing then analyzeOutbound analytics seq payloadLen
  else
    -- the two inbound checks work on different counters
    let (analytics, _, outOfOrder, _) := analyzeInboundSeq analytics seq payloadLen
    let (analytics, _, _, fastRetransmits) := analyzeInboundAck analytics ack hasAckFlag
    (analytics, 0, outOfOrder, fastRetransmits)

end RustNet
