import RustNet.Network.Dispatch.Analysis

/-!
# Messages through the dispatch

A message of one of the protocols is reported as what it is if its ports are reserved for no other
protocol. DHCP and SSDP are recognised on their ports; a STUN message and a message of the DHT are
recognised on any, since what is tried before them lets them through.

Not every message that is well formed is among these. The parsers turn away a DHCP message without a
type and an SSDP message with another character in its first twenty bytes, and the parser of the DHT
searches for its keys as bytes, so it can find them in a value that comes first. `Dpi.UdpMessage`
has the messages that are left.

## Main definitions

* `Dpi.UdpMessage`: messages of four protocols.

## Main results

* `Dpi.UdpMessage.analyzeUdpPacket_encode`: a message is reported as what it is.
-/

namespace RustNet

namespace Dpi

open Checked

/-- The ports on which a protocol is tried that is not tried on others. -/
def reservedPorts : List UInt16 :=
  [53, 443, 5353, 67, 68, 123, 5355, 1900, 137, 138, 161, 162, 3478, 5349]

/-- A message that its own parser takes. -/
inductive UdpMessage
  /-- A DHCP message whose options say a message type, and perhaps a host name. Without a type the
  parser reports nothing. -/
  | dhcp (message : Dhcp.Message) (said : DhcpMessageType × Option String)
    (decoded : Dhcp.decodeItems message.items = some said)
  /-- An SSDP message whose first twenty bytes are ASCII. The parser compares these as text. -/
  | ssdp (message : Ssdp.Message)
    (ascii : (message.encode.take 20).all (· < 0x80) = true)
  /-- A STUN message, with anything behind it. -/
  | stun (message : Stun.Message) (rest : List UInt8)
  /-- A message of the DHT of ten bytes at least, in front of whose keys the bytes that the parser
  searches for do not occur. -/
  | dht (message : BitTorrent.Krpc) (clear : message.Clear) (ten_le : 10 ≤ message.encode.length)

namespace UdpMessage

/-- The bytes of a message. -/
def encode : UdpMessage → List UInt8
  | dhcp message _ _ => message.encode
  | ssdp message _ => message.encode
  | stun message rest => message.encode ++ rest
  | dht message _ _ => message.encode

/-- The ports that are reserved for the protocol. -/
def ports : UdpMessage → List UInt16
  | dhcp .. => [67, 68]
  | ssdp .. => [1900]
  | stun .. => [3478, 5349]
  | dht .. => []

/-- The protocol is tried on its ports only. -/
def needsPort : UdpMessage → Bool
  | dhcp .. | ssdp .. => true
  | stun .. | dht .. => false

/-- What a message says, as the analysis of its protocol reports it. -/
def label : UdpMessage → ApplicationProtocol
  | dhcp message said _ =>
    .dhcp ⟨said.1, said.2, some (":".intercalate (message.chaddr.map hexByte))⟩
  | ssdp message _ => .ssdp message.info
  | stun message _ => .stun
      { messageClass := Stun.messageClass message.msgType
        method := Stun.method message.msgType
        transactionId := message.transactionId
        software := (Stun.firstSoftware message.attributes).bind Stun.softwareText }
  | dht message _ _ => .bitTorrent (BitTorrent.dhtInfo message.kind.reported)

end UdpMessage

/-! ## One protocol after another -/

section Combinators

variable {α : Type} {label : α → ApplicationProtocol} {localPort remotePort : UInt16}
  {ports : List UInt16}

theorem onPorts_eq_false (h : ∀ port ∈ ports, localPort ≠ port ∧ remotePort ≠ port) :
    onPorts ports localPort remotePort = false := by
  rw [onPorts, List.any_eq_false]
  intro port hport
  have := h port hport
  simp [this.1, this.2]

/-- The ports on which the protocols before STUN are tried. -/
def portGates : List (List UInt16) :=
  [[53], [443], [5353], [67, 68], [123], [5355], [1900], [137], [138], [161, 162]]

theorem portGates_subset (h : ports ∈ portGates) : ports ⊆ reservedPorts := by
  simp only [portGates, List.mem_cons, List.not_mem_nil, or_false] at h
  rcases h with rfl | rfl | rfl | rfl | rfl | rfl | rfl | rfl | rfl | rfl <;> simp [reservedPorts]

theorem stunPorts_notMem (h : ports ∈ portGates) : ∀ port ∈ ports, port ≠ 3478 ∧ port ≠ 5349 := by
  simp only [portGates, List.mem_cons, List.not_mem_nil, or_false] at h
  rcases h with rfl | rfl | rfl | rfl | rfl | rfl | rfl | rfl | rfl | rfl <;> simp

/-- What begins with other bits is not taken for STUN. -/
theorem isLikelyStun_of_bits {b : UInt8} (hb : b &&& 0xC0 ≠ 0) (rest : List UInt8) :
    Stun.isLikelyStun (b :: rest) = pure false := by
  unfold Stun.isLikelyStun
  split_ifs with hshort
  · rfl
  · rw [(At.start (b :: rest)).index, pure_bind', if_pos hb]

end Combinators

/-! ## Messages are reported -/

/-- On other ports a payload is STUN or BitTorrent. -/
theorem analyzeUdpPacket_of_closed [QuicCrypto] {payload : List UInt8}
    {localPort remotePort : UInt16} {isOutgoing : Bool} (hne : ¬ payload.isEmpty = true)
    (h : ∀ ports ∈ portGates, onPorts ports localPort remotePort = false) :
    analyzeUdpPacket payload localPort remotePort isOutgoing =
      orElse (attempt (portsOr [3478, 5349] localPort remotePort (Stun.isLikelyStun payload))
        (Stun.analyzeStun payload) .stun)
        (attempt (pure true) (BitTorrent.analyzeUdpBittorrent payload) .bitTorrent) := by
  simp only [portGates, List.forall_mem_cons, List.not_mem_nil, false_implies, implies_true,
    and_true] at h
  rw [analyzeUdpPacket, if_neg hne]
  simp only [h, attempt_false, orElse_none]

namespace UdpMessage

variable [QuicCrypto]

/-- **A message is reported as what it is**, whatever is tried before its protocol.

It is sent from or to a port of its protocol, where this is recognised on its ports only (`hports`),
and neither port is reserved for another protocol (`hfree`). Its length is one that a slice can have
(`hlen`). What else is asked of the message, its constructor says. -/
theorem analyzeUdpPacket_encode (m : UdpMessage) (localPort remotePort : UInt16)
    (isOutgoing : Bool) (hlen : m.encode.length < 2 ^ 63)
    (hports : m.needsPort = true → onPorts m.ports localPort remotePort = true)
    (hfree : ∀ port ∈ reservedPorts, port ∉ m.ports → localPort ≠ port ∧ remotePort ≠ port) :
    analyzeUdpPacket m.encode localPort remotePort isOutgoing = pure (some ⟨m.label⟩) := by
  -- the ports of the other protocols are not among the packet's
  have hclosed (ports : List UInt16) (hmem : ports ⊆ reservedPorts)
      (hother : ∀ port ∈ ports, port ∉ m.ports) : onPorts ports localPort remotePort = false :=
    onPorts_eq_false fun port hport => hfree port (hmem hport) (hother port hport)
  cases m with
  -- each message is not empty, and comes to its own analysis past the closed gates
  | dhcp message said decoded =>
    have hne : ¬ message.encode.isEmpty = true := by
      intro hempty
      have hfront := message.length_front
      have hnil := congrArg List.length (List.isEmpty_iff.mp hempty)
      rw [Dhcp.Message.encode, List.length_append, List.length_nil] at hnil
      omega
    rw [encode, analyzeUdpPacket, if_neg hne]
    simp only [hclosed [53] (by simp [reservedPorts]) (by simp [ports]),
      hclosed [443] (by simp [reservedPorts]) (by simp [ports]),
      hclosed [5353] (by simp [reservedPorts]) (by simp [ports]),
      attempt_false, orElse_none]
    have hopen : onPorts [67, 68] localPort remotePort = true := hports rfl
    rw [hopen, Dhcp.Message.analyzeDhcp_encode message hlen, decoded, Option.map_some, attempt_some,
      orElse_some]
    rfl
  | ssdp message ascii =>
    have hne : ¬ message.encode.isEmpty = true := by
      intro hempty
      have hlength := message.length_encode
      rw [List.isEmpty_iff.mp hempty] at hlength
      exact absurd hlength (by decide)
    rw [encode, analyzeUdpPacket, if_neg hne]
    simp only [hclosed [53] (by simp [reservedPorts]) (by simp [ports]),
      hclosed [443] (by simp [reservedPorts]) (by simp [ports]),
      hclosed [5353] (by simp [reservedPorts]) (by simp [ports]),
      hclosed [67, 68] (by simp [reservedPorts]) (by simp [ports]),
      hclosed [123] (by simp [reservedPorts]) (by simp [ports]),
      hclosed [5355] (by simp [reservedPorts]) (by simp [ports]), attempt_false, orElse_none]
    have hopen : onPorts [1900] localPort remotePort = true := hports rfl
    rw [hopen, message.analyzeSsdp_encode, if_pos ascii, attempt_some, orElse_some]
    rfl
  -- by its ports or by its looks, either of which opens the gate
  | stun message rest =>
    have hsize := message.length_append_rest rest
    have hne : ¬ (message.encode ++ rest).isEmpty = true := by
      intro hempty
      rw [List.isEmpty_iff.mp hempty, List.length_nil] at hsize
      omega
    have hgate : portsOr [3478, 5349] localPort remotePort
        (Stun.isLikelyStun (message.encode ++ rest)) = pure true := by
      rw [portsOr, message.isLikelyStun_encode]
      exact ite_self _
    rw [encode, analyzeUdpPacket_of_closed hne fun ports hports =>
      hclosed ports (portGates_subset hports)
        (by simpa [UdpMessage.ports] using stunPorts_notMem hports), hgate,
      message.analyzeStun_encode hlen, attempt_some, orElse_some]
    rfl
  -- the table's messages have no port, and the last attempt reads them
  | dht message clear ten_le =>
    obtain ⟨rest, hencode⟩ : ∃ rest, message.encode = 0x64 :: rest := by
      rw [BitTorrent.Krpc.encode, Bencode.Value.encode]
      exact ⟨_, rfl⟩
    have hgate : portsOr [3478, 5349] localPort remotePort (Stun.isLikelyStun message.encode) =
        pure false := by
      rw [portsOr, hclosed [3478, 5349] (by simp [reservedPorts]) (by simp [ports]), hencode,
        isLikelyStun_of_bits (by decide)]
      rfl
    rw [encode, analyzeUdpPacket_of_closed (by simp [hencode]) fun ports hports =>
      hclosed ports (portGates_subset hports) fun _ _ => List.not_mem_nil, hgate, attempt_false,
      orElse_none, BitTorrent.analyzeUdpBittorrent, clear.analyzeDht hlen ten_le, pure_bind',
      attempt_some]
    rfl

end UdpMessage

/-- A search for all services. -/
def sampleSearch : Ssdp.Message where
  start := .mSearch
  target := " * HTTP/1.1".toList
  headers := [⟨"HOST".toList, " 239.255.255.250:1900".toList, by decide, by decide, by decide⟩,
    ⟨"ST".toList, " ssdp:all".toList, by decide, by decide, by decide⟩]
  target_break := by decide

/-- The search, sent to the port of SSDP. -/
theorem analyzeUdpPacket_encode_sampleSearch :
    letI : QuicCrypto := .silent
    analyzeUdpPacket sampleSearch.encode 50000 1900 true =
      pure (some ⟨.ssdp ⟨.mSearch, some "ssdp:all"⟩⟩) := by
  let _ : QuicCrypto := .silent
  exact UdpMessage.analyzeUdpPacket_encode (.ssdp sampleSearch (by decide +kernel)) 50000 1900 true
    (by decide +kernel) (fun _ => rfl) (by simp [reservedPorts, UdpMessage.ports])

end Dpi

end RustNet
