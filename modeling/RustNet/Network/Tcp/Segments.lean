import RustNet.Network.Merge.Packet
import RustNet.Network.Parser.Transport

/-!
# TCP segments as the tracker sees them

The TCP state of a connection depends on the flags and the directions of its segments, in the order
they arrive. `ParsedPacket.tcpStep` is one segment's step, and the state of a tracked connection is
the fold of these steps, from `Unknown` before the first segment.

## Main definitions

* `Arrival`: a packet with the times of its arrival;
* `Connection.merge`, `track`: merging arrivals, and creating a connection from the first;
* `ParsedPacket.IsSyn`, `IsSynAck`, `IsAck`, `IsFin`, `IsFinAck`: the segments of a connection's
  life.

## Main results

* `track_protocolState`: the state of a tracked TCP connection is the fold of the steps.
-/

namespace RustNet

/-- A packet that arrives at the caller's time `now`, the clocks reading as given. -/
structure Arrival where
  parsed : ParsedPacket
  now : SystemTime
  clock : ClockReading

/-! ## The flags of a segment -/

namespace ParsedPacket

/-- A TCP packet with these flags; the other flags do not enter the TCP state. -/
def HasFlags (p : ParsedPacket) (syn ack fin rst : Bool) : Prop :=
  ∃ header, p.tcpHeader = some header ∧ header.flags.syn = syn ∧ header.flags.ack = ack ∧
    header.flags.fin = fin ∧ header.flags.rst = rst

/-- The first segment of a handshake. -/
def IsSyn (p : ParsedPacket) : Prop := p.HasFlags true false false false

/-- The second segment of a handshake. -/
def IsSynAck (p : ParsedPacket) : Prop := p.HasFlags true true false false

/-- An acknowledgement, with or without data. -/
def IsAck (p : ParsedPacket) : Prop := p.HasFlags false true false false

/-- A FIN, acknowledging or not. -/
def IsFin (p : ParsedPacket) : Prop := ∃ ack, p.HasFlags false ack true false

/-- A FIN that acknowledges, with which a side closes its direction. -/
def IsFinAck (p : ParsedPacket) : Prop := p.HasFlags false true true false

/-- The TCP state after the packet. -/
def tcpStep (state : TcpState) (p : ParsedPacket) : TcpState :=
  match p.tcpHeader with
  | some header => updateTcpState state header.flags p.isOutgoing
  | none => state

/-- A step looks at four flags and the direction. -/
theorem tcpStep_of_hasFlags {p : ParsedPacket} {syn ack fin rst : Bool}
    (h : p.HasFlags syn ack fin rst) (state : TcpState) :
    tcpStep state p = updateTcpState state ⟨fin, syn, rst, false, ack, false⟩ p.isOutgoing := by
  obtain ⟨header, hheader, hsyn, hack, hfin, hrst⟩ := h
  rw [tcpStep, hheader]
  simp only [updateTcpState, hsyn, hack, hfin, hrst]

theorem HasFlags.protocol {p : ParsedPacket} {syn ack fin rst : Bool}
    (h : p.HasFlags syn ack fin rst) : p.protocol = .tcp := by
  obtain ⟨header, hheader, -⟩ := h
  exact exists_tcpHeader_iff.mp ⟨header, hheader⟩

end ParsedPacket

/-! ## Tracking a sequence of packets -/

section Track

variable [DeepPacketInspection]

/-- The connection after one more arrival. -/
def Connection.merge (conn : Connection) (a : Arrival) : Connection :=
  (mergePacketIntoConnection conn a.parsed a.now a.clock).1

/-- The connection created from the first arrival, after the others. -/
def track (first : Arrival) (rest : List Arrival) : Connection :=
  rest.foldl Connection.merge (createConnectionFromPacket first.parsed first.now first.clock)

/-- A merge into a TCP connection takes one step. -/
theorem merge_protocolState_of_tcp {conn : Connection} {state : TcpState}
    (h : conn.protocolState = .tcp state) (a : Arrival) :
    (conn.merge a).protocolState = .tcp (a.parsed.tcpStep state) := by
  rw [Connection.merge, merge_protocolState, h, mergeProtocolState, ParsedPacket.tcpStep]
  cases a.parsed.tcpHeader with
  | some header => rfl
  | none => rfl

/-- Merging arrivals into a TCP connection takes their steps. -/
theorem foldl_merge_protocolState {conn : Connection} {state : TcpState}
    (h : conn.protocolState = .tcp state) (arrivals : List Arrival) :
    (arrivals.foldl Connection.merge conn).protocolState =
      .tcp ((arrivals.map Arrival.parsed).foldl ParsedPacket.tcpStep state) := by
  induction arrivals generalizing conn state with
  | nil => exact h
  | cons a arrivals ih => exact ih (merge_protocolState_of_tcp h a)

/-- A tracked TCP connection starts in `Unknown` and takes the steps of its segments. -/
theorem track_protocolState {first : Arrival} (h : first.parsed.protocol = .tcp)
    (rest : List Arrival) :
    (track first rest).protocolState =
      .tcp (((first :: rest).map Arrival.parsed).foldl ParsedPacket.tcpStep .unknown) := by
  obtain ⟨header, hheader⟩ := ParsedPacket.exists_tcpHeader_iff.mpr h
  apply foldl_merge_protocolState
  rw [create_protocolState_of_tcpHeader _ _ _ hheader, ParsedPacket.tcpStep, hheader]

end Track

end RustNet
