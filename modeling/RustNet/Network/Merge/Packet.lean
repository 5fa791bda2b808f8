import RustNet.Network.Merge.Dpi
import RustNet.Network.Merge.Tcp
import RustNet.Network.Types.Connection

/-!
# Folding packets into connections

`create_connection_from_packet` and `merge_packet_into_connection`: the first packet of a flow
makes a connection, every later one is merged into it. After the definitions come their spec
lemmas, one for each part of the connection that later results look at, so that no later proof
unfolds either function.

## Main results

* `merge_packetCount`, `merge_byteCount`: unless a counter overflows, a merge counts the packet
  once and its bytes once;
* `create_packetCount`, `create_byteCount`: so does a creation;
* `create_consistent`, `merge_consistent`: the protocol state and the analytics of a connection
  stay those of its protocol.
-/

namespace RustNet

/-- The TCP state a packet is merged into: `Unknown` for a connection of another protocol. -/
def ProtocolState.tcpState : ProtocolState → TcpState
  | .tcp state => state
  | _ => .unknown

/-- The sequence numbers a segment takes up: its payload, and one each for SYN and FIN. -/
def TcpHeaderInfo.seqConsumed (header : TcpHeaderInfo) : UInt32 :=
  header.payloadLen + (if header.flags.syn then 1 else 0) + (if header.flags.fin then 1 else 0)

/-- The protocol state after merging a packet. -/
def mergeProtocolState (state : ProtocolState) (parsed : ParsedPacket) : ProtocolState :=
  match parsed.tcpHeader with
  | some header => .tcp (updateTcpState state.tcpState header.flags parsed.isOutgoing)
  | none =>
    match state with
    -- a TCP state is kept
    | .tcp tcpState => .tcp tcpState
    | _ => parsed.protocolState

/-- The TCP analytics after merging a packet, and the events the packet raised. -/
def mergeAnalytics (analytics : Option TcpAnalytics) (parsed : ParsedPacket) :
    Option TcpAnalytics × TcpEvents :=
  match parsed.tcpHeader, analytics with
  | some header, some analytics =>
    let (analytics, events) := analyzeTcpSegment analytics header.seq header.ack header.window
      header.seqConsumed parsed.isOutgoing header.flags.ack
    (some analytics, events)
  | _, analytics => (analytics, (0, 0, 0))

namespace Connection

/-- Count one packet and its bytes in the packet's direction. -/
def countPacket (conn : Connection) (parsed : ParsedPacket) : Connection :=
  let out := parsed.isOutgoing
  { conn with
    packetsSent := if out then conn.packetsSent + 1 else conn.packetsSent
    bytesSent := if out then conn.bytesSent + parsed.packetLen else conn.bytesSent
    packetsReceived := if out then conn.packetsReceived else conn.packetsReceived + 1
    bytesReceived := if out then conn.bytesReceived else conn.bytesReceived + parsed.packetLen }

/-- `update_rates`: the tracker of the connection is told the counts of bytes as they stand at this
instant. -/
def updateRates (conn : Connection) (instant : Instant) : Connection :=
  { conn with
    rateTracker := conn.rateTracker.updateAt instant conn.bytesSent conn.bytesReceived }

end Connection

/-- The direction of a connection as its first TCP packet shows it. -/
def initialDirection (tcpState : TcpState) (flags : TcpFlags) (isOutgoing : Bool) : Option Bool :=
  match tcpState with
  | .synSent => some true
  | .synReceived => some false
  -- a SYN-ACK tells the direction too: whoever receives it opened the connection
  | _ => if flags.syn && flags.ack then some !isOutgoing else none

/-- `create_connection_from_packet`: a connection as its first packet shows it, with one packet
counted in the packet's direction and both of its times set to the caller's. -/
def createConnectionFromPacket (parsed : ParsedPacket) (now : SystemTime) (clock : ClockReading) :
    Connection :=
  let conn := Connection.new parsed.protocol parsed.localAddr parsed.remoteAddr
    parsed.protocolState (clock.wall parsed.connectionKey) clock.instant
  -- the initial TCP state and the direction
  let conn := { conn with
    protocolState := match parsed.tcpHeader with
      | some header => .tcp (updateTcpState .unknown header.flags parsed.isOutgoing)
      | none => parsed.protocolState
    connectionDirection := parsed.tcpHeader.bind fun header =>
      initialDirection (updateTcpState .unknown header.flags parsed.isOutgoing) header.flags
        parsed.isOutgoing }
  -- the initial counts
  let out := parsed.isOutgoing
  let conn := { conn with
    packetsSent := if out then 1 else 0
    bytesSent := if out then parsed.packetLen else 0
    packetsReceived := if out then 0 else 1
    bytesReceived := if out then 0 else parsed.packetLen }
  let conn := { conn with
    dpiInfo := parsed.dpiResult.map fun result : DpiResult => ⟨result.application⟩
    processName := parsed.processName
    pid := parsed.processId }
  -- the caller's time replaces what `Connection::new` read from the clock
  let conn := { conn with createdAt := now, lastActivity := now }
  { conn with
    rateTracker := conn.rateTracker.initializeWithCounts conn.bytesSent conn.bytesReceived }

section Merge

variable [DeepPacketInspection]

/-- `merge_packet_into_connection`. Process name and pid are set once. -/
def mergePacketIntoConnection (conn : Connection) (parsed : ParsedPacket) (now : SystemTime)
    (clock : ClockReading) : Connection × TcpEvents :=
  -- the analytics and the events depend on the packet and the old analytics only
  let (tcpAnalytics, tcpEvents) := mergeAnalytics conn.tcpAnalytics parsed
  let conn := { conn with lastActivity := now }.countPacket parsed
  let conn := { conn with
    protocolState := mergeProtocolState conn.protocolState parsed
    tcpAnalytics := tcpAnalytics }
  let conn := { conn with
    dpiInfo := match parsed.dpiResult with
      | some dpiResult => some (mergeDpiInfo conn.dpiInfo dpiResult)
      | none => conn.dpiInfo }
  let conn := { conn with
    processName := conn.processName.or parsed.processName
    pid := conn.pid.or parsed.processId }
  (conn.updateRates clock.instant, tcpEvents)

end Merge

/-! ## What a creation sets -/

section Create

variable (parsed : ParsedPacket) (now : SystemTime) (clock : ClockReading)

@[simp]
theorem create_protocol :
    (createConnectionFromPacket parsed now clock).protocol = parsed.protocol := rfl

/-- The first packet of a TCP connection is merged into the state `Unknown`. -/
theorem create_protocolState_of_tcpHeader {header : TcpHeaderInfo}
    (h : parsed.tcpHeader = some header) :
    (createConnectionFromPacket parsed now clock).protocolState =
      .tcp (updateTcpState .unknown header.flags parsed.isOutgoing) := by
  simp only [createConnectionFromPacket, h]

theorem create_protocolState_of_no_tcpHeader (h : parsed.tcpHeader = none) :
    (createConnectionFromPacket parsed now clock).protocolState = parsed.protocolState := by
  simp only [createConnectionFromPacket, h]

@[simp]
theorem create_tcpAnalytics :
    (createConnectionFromPacket parsed now clock).tcpAnalytics =
      if parsed.protocol = .tcp then some TcpAnalytics.new else none := rfl

end Create

/-! ## What a merge changes -/

section MergeSpec

variable [DeepPacketInspection] (conn : Connection) (parsed : ParsedPacket) (now : SystemTime)
  (clock : ClockReading)

@[simp]
theorem merge_protocol :
    (mergePacketIntoConnection conn parsed now clock).1.protocol = conn.protocol := rfl

@[simp]
theorem merge_protocolState :
    (mergePacketIntoConnection conn parsed now clock).1.protocolState =
      mergeProtocolState conn.protocolState parsed := rfl

@[simp]
theorem merge_tcpAnalytics :
    (mergePacketIntoConnection conn parsed now clock).1.tcpAnalytics =
      (mergeAnalytics conn.tcpAnalytics parsed).1 := rfl

end MergeSpec

/-! ## Packets and bytes -/

namespace Connection

/-- The packets of both directions together, as a number without the bound that the two counters
have. -/
def packetCount (conn : Connection) : ℕ := conn.packetsSent.toNat + conn.packetsReceived.toNat

/-- The bytes of both directions together, as a number without the bound that the two counters
have. -/
def byteCount (conn : Connection) : ℕ := conn.bytesSent.toNat + conn.bytesReceived.toNat

/-- Counting `parsed` overflows no `u64` counter of the connection. -/
def Fits (conn : Connection) (parsed : ParsedPacket) : Prop :=
  if parsed.isOutgoing then
    conn.packetsSent.toNat + 1 < 2 ^ 64 ∧
      conn.bytesSent.toNat + parsed.packetLen.toNat < 2 ^ 64
  else
    conn.packetsReceived.toNat + 1 < 2 ^ 64 ∧
      conn.bytesReceived.toNat + parsed.packetLen.toNat < 2 ^ 64

instance (conn : Connection) (parsed : ParsedPacket) : Decidable (conn.Fits parsed) := by
  unfold Fits
  infer_instance

end Connection

section Counters

variable {conn : Connection} (parsed : ParsedPacket) (now : SystemTime) (clock : ClockReading)

theorem create_packetCount : (createConnectionFromPacket parsed now clock).packetCount = 1 := by
  simp only [Connection.packetCount, createConnectionFromPacket]
  cases parsed.isOutgoing <;> rfl

theorem create_byteCount :
    (createConnectionFromPacket parsed now clock).byteCount = parsed.packetLen.toNat := by
  simp only [Connection.byteCount, createConnectionFromPacket]
  cases parsed.isOutgoing <;> simp

variable [DeepPacketInspection]

/-- A merge counts the packet once. -/
theorem merge_packetCount (h : conn.Fits parsed) :
    (mergePacketIntoConnection conn parsed now clock).1.packetCount = conn.packetCount + 1 := by
  simp only [Connection.packetCount, mergePacketIntoConnection, Connection.updateRates,
    Connection.countPacket]
  unfold Connection.Fits at h
  -- one of the two counters is incremented, and does not wrap
  cases hout : parsed.isOutgoing <;> simp only [hout, if_true, if_false, Bool.false_eq_true] at h ⊢
  all_goals
    rw [UInt64.toNat_add, UInt64.toNat_one, Nat.mod_eq_of_lt h.1]
    omega

/-- A merge counts the packet's bytes once. -/
theorem merge_byteCount (h : conn.Fits parsed) :
    (mergePacketIntoConnection conn parsed now clock).1.byteCount =
      conn.byteCount + parsed.packetLen.toNat := by
  simp only [Connection.byteCount, mergePacketIntoConnection, Connection.updateRates,
    Connection.countPacket]
  unfold Connection.Fits at h
  cases hout : parsed.isOutgoing <;> simp only [hout, if_true, if_false, Bool.false_eq_true] at h ⊢
  all_goals
    rw [UInt64.toNat_add, Nat.mod_eq_of_lt h.2]
    omega

end Counters

/-! ## Consistency of a connection with its protocol -/

/-- The protocol state is one of the connection's protocol, and there are TCP analytics exactly for
TCP. -/
structure Connection.Consistent (conn : Connection) : Prop where
  protocolState_protocol : conn.protocolState.protocol = conn.protocol
  tcpAnalytics_isSome : conn.tcpAnalytics.isSome = decide (conn.protocol = .tcp)

/-- A created connection is consistent. -/
theorem create_consistent (parsed : ParsedPacket) (now : SystemTime) (clock : ClockReading) :
    (createConnectionFromPacket parsed now clock).Consistent where
  protocolState_protocol := by
    cases h : parsed.tcpHeader with
    -- the state is the packet's, or a TCP state for a packet with a TCP header
    | none =>
      rw [create_protocolState_of_no_tcpHeader parsed now clock h, create_protocol,
        parsed.protocolState_protocol]
    | some header =>
      have htcp : parsed.protocol = .tcp := ParsedPacket.exists_tcpHeader_iff.mp ⟨header, h⟩
      rw [create_protocolState_of_tcpHeader parsed now clock h, create_protocol, htcp]
      rfl
  tcpAnalytics_isSome := by
    rw [create_tcpAnalytics, create_protocol]
    by_cases htcp : parsed.protocol = .tcp <;> simp [htcp]

/-- A merge never adds or removes the analytics. -/
theorem mergeAnalytics_isSome (analytics : Option TcpAnalytics) (parsed : ParsedPacket) :
    (mergeAnalytics analytics parsed).1.isSome = analytics.isSome := by
  unfold mergeAnalytics
  cases parsed.tcpHeader <;> cases analytics <;> rfl

/-- Merging a packet of its own protocol keeps a connection consistent. -/
theorem merge_consistent [DeepPacketInspection] {conn : Connection} {parsed : ParsedPacket}
    (hconn : conn.Consistent) (hprotocol : parsed.protocol = conn.protocol) (now : SystemTime)
    (clock : ClockReading) :
    (mergePacketIntoConnection conn parsed now clock).1.Consistent where
  protocolState_protocol := by
    rw [merge_protocolState, merge_protocol]
    cases h : parsed.tcpHeader with
    | some header =>
      have htcp : parsed.protocol = .tcp := ParsedPacket.exists_tcpHeader_iff.mp ⟨header, h⟩
      rw [← hprotocol, htcp]
      simp only [mergeProtocolState, h, ProtocolState.protocol]
    | none =>
      -- a TCP connection only receives packets with a TCP header
      have hnot : conn.protocol ≠ .tcp := by
        rw [← hprotocol]
        exact ParsedPacket.tcpHeader_eq_none_iff.mp h
      have hstate : mergeProtocolState conn.protocolState parsed = parsed.protocolState := by
        unfold mergeProtocolState
        rw [h]
        cases hs : conn.protocolState with
        | tcp state => exact absurd (by rw [← hconn.protocolState_protocol, hs]; rfl) hnot
        | _ => rfl
      rw [hstate, parsed.protocolState_protocol, hprotocol]
  tcpAnalytics_isSome := by
    rw [merge_tcpAnalytics, merge_protocol, mergeAnalytics_isSome, hconn.tcpAnalytics_isSome]

end RustNet
