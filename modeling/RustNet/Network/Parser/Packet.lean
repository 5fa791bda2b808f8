import Mathlib.Data.Finset.Defs
import RustNet.Network.Types.Application

/-!
# Parsed packets

`ParsedPacket`, the parser's result, with the three facts every parser function establishes as
fields: the connection key is the key of the packet's own protocol and addresses, a TCP header is
present exactly for TCP, and the protocol state is one of the packet's protocol. So a packet that
breaks them cannot be built.

Deep packet inspection is the class `DeepPacketInspection` of total functions; nothing below
depends on what they return.
-/

namespace RustNet

/-! ## Deep packet inspection -/

/-- The entry points of the `dpi` module. -/
class DeepPacketInspection where
  /-- `analyze_tcp_packet(payload, local_port, remote_port, is_outgoing)`. -/
  analyzeTcpPacket : List UInt8 → UInt16 → UInt16 → Bool → Option DpiResult
  /-- `analyze_udp_packet(payload, local_port, remote_port, is_outgoing)`. -/
  analyzeUdpPacket : List UInt8 → UInt16 → UInt16 → Bool → Option DpiResult
  /-- `try_extract_tls_from_reassembler(reassembler, allow_partial)`, which may cache what it finds
  in the reassembler. -/
  tryExtractTlsFromReassembler :
    CryptoFrameReassembler → Bool → Option TlsInfo × CryptoFrameReassembler

/-- An inspection that recognises nothing and whose extraction finds nothing, for the concrete runs
that are not about it. -/
@[reducible]
def DeepPacketInspection.silent : DeepPacketInspection where
  analyzeTcpPacket _ _ _ _ := none
  analyzeUdpPacket _ _ _ _ := none
  tryExtractTlsFromReassembler reassembler _ := (none, reassembler)

/-- `is_partial_sni`: the name carries the mark that the parsers put behind a name that was cut
off. -/
def isPartialSni (sni : String) : Bool := "[PARTIAL]".toList.isSuffixOf sni.toList

/-! ## TCP headers -/

/-- `TcpFlags`: the six flags of a segment that the parser reads, each by its bit in the header. -/
structure TcpFlags where
  fin : Bool
  syn : Bool
  rst : Bool
  psh : Bool
  ack : Bool
  urg : Bool
deriving DecidableEq

/-- `TcpHeaderInfo`: what the tracker needs of a segment's header. The length is that of the payload
behind the header. -/
structure TcpHeaderInfo where
  seq : UInt32
  ack : UInt32
  window : UInt16
  flags : TcpFlags
  payloadLen : UInt32
deriving DecidableEq

/-- `parse_tcp_flags`: the six flags from the byte of the header that holds them. -/
def parseTcpFlags (flags : UInt8) : TcpFlags where
  fin := flags &&& 0x01 != 0
  syn := flags &&& 0x02 != 0
  rst := flags &&& 0x04 != 0
  psh := flags &&& 0x08 != 0
  ack := flags &&& 0x10 != 0
  urg := flags &&& 0x20 != 0

/-! ## Packets -/

/-- `ParsedPacket`. The `usize` packet length is read as the `u64` it is cast to. -/
structure ParsedPacket where
  connectionKey : String
  protocol : Protocol
  localAddr : SocketAddr
  remoteAddr : SocketAddr
  tcpHeader : Option TcpHeaderInfo
  protocolState : ProtocolState
  isOutgoing : Bool
  packetLen : UInt64
  dpiResult : Option DpiResult
  processName : Option String
  processId : Option UInt32
  /-- The key is that of the packet's protocol and addresses. -/
  connectionKey_eq : connectionKey = RustNet.connectionKey protocol localAddr remoteAddr
  /-- A TCP header is present exactly for TCP. -/
  tcpHeader_isSome : tcpHeader.isSome = decide (protocol = .tcp)
  /-- The protocol state is one of the packet's protocol. -/
  protocolState_protocol : protocolState.protocol = protocol

namespace ParsedPacket

/-- Packets filed under one key have the same protocol. -/
theorem protocol_eq_of_connectionKey {p q : ParsedPacket}
    (h : p.connectionKey = q.connectionKey) : p.protocol = q.protocol := by
  rw [p.connectionKey_eq, q.connectionKey_eq] at h
  exact connectionKey_protocol h

theorem tcpHeader_eq_none_iff {p : ParsedPacket} : p.tcpHeader = none ↔ p.protocol ≠ .tcp := by
  rw [← Option.not_isSome_iff_eq_none, p.tcpHeader_isSome, decide_eq_true_iff]

theorem exists_tcpHeader_iff {p : ParsedPacket} :
    (∃ header, p.tcpHeader = some header) ↔ p.protocol = .tcp := by
  rw [← Option.isSome_iff_exists, p.tcpHeader_isSome, decide_eq_true_iff]

/-- The connection ID of a QUIC packet that carries one: the pattern `ingest_at` matches. -/
def quicConnectionId (p : ParsedPacket) : Option String :=
  if p.protocol = .udp then
    match p.dpiResult with
    | some ⟨.quic info⟩ => info.connectionIdHex
    | _ => none
  else none

theorem quicConnectionId_eq_none {p : ParsedPacket} (h : p.protocol ≠ .udp) :
    p.quicConnectionId = none := if_neg h

end ParsedPacket

end RustNet
