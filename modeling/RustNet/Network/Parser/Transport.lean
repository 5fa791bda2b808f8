import RustNet.Network.Parser.Packet

/-!
# Transport-layer parsing

The parsers of `protocol/`: from the bytes after the IP header to a `ParsedPacket`. Every index is
in bounds by the length check before it. Each parser builds the packet under the key of its own
protocol and address pair, which is what makes its proof fields hold by `rfl`.
-/

namespace RustNet

/-- `u16::from_be_bytes`: the number that two bytes of the network make, the first the more
significant. -/
def be16 (a b : UInt8) : UInt16 := a.toUInt16 <<< 8 ||| b.toUInt16

theorem be16_toNat (a b : UInt8) : (be16 a b).toNat = a.toNat * 256 + b.toNat := by
  have ha := a.toNat_lt
  have hb := b.toNat_lt
  have hshift : (8 : UInt16).toNat % 16 = 8 := by decide
  have hlow : a.toNat <<< 8 % 2 ^ 16 = a.toNat <<< 8 := Nat.mod_eq_of_lt (by omega)
  rw [be16, UInt16.toNat_or, UInt16.toNat_shiftLeft, UInt8.toNat_toUInt16, UInt8.toNat_toUInt16,
    hshift, hlow, ← Nat.shiftLeft_add_eq_or_of_lt (by omega), Nat.shiftLeft_eq]

/-- A 16-bit number is read back from its two bytes. -/
theorem be16_bytes (x : UInt16) : be16 (x >>> 8).toUInt8 x.toUInt8 = x := by
  have hshift : (8 : UInt16).toNat % 16 = 8 := by decide
  apply UInt16.toNat_inj.mp
  rw [be16_toNat, UInt16.toNat_toUInt8, UInt16.toNat_toUInt8, UInt16.toNat_shiftRight, hshift,
    Nat.shiftRight_eq_div_pow]
  have := x.toNat_lt
  omega

@[simp]
theorem be16_high (a b : UInt8) : (be16 a b >>> 8).toUInt8 = a := by
  have hshift : (8 : UInt16).toNat % 16 = 8 := by decide
  have ha := a.toNat_lt
  have hb := b.toNat_lt
  apply UInt8.toNat_inj.mp
  rw [UInt16.toNat_toUInt8, UInt16.toNat_shiftRight, hshift, be16_toNat,
    Nat.shiftRight_eq_div_pow]
  omega

@[simp]
theorem be16_low (a b : UInt8) : (be16 a b).toUInt8 = b := by
  have hb := b.toNat_lt
  apply UInt8.toNat_inj.mp
  rw [UInt16.toNat_toUInt8, be16_toNat]
  omega

/-- `u32::from_be_bytes`: the number that four bytes of the network make, the first the most
significant. -/
def be32 (a b c d : UInt8) : UInt32 :=
  a.toUInt32 <<< 24 ||| b.toUInt32 <<< 16 ||| c.toUInt32 <<< 8 ||| d.toUInt32

/-- `ParserConfig`; the tracker's callers set only `enable_dpi`. -/
structure ParserConfig where
  enableDpi : Bool
  /-- "Maximum number of packets per connection to inspect with DPI". -/
  dpiPacketLimit : ℕ := 10

/-- `ParserConfig::should_perform_dpi`: inspection is on, and the connection has had fewer packets
than the limit. -/
def ParserConfig.shouldPerformDpi (config : ParserConfig) (packetCount : ℕ) : Bool :=
  config.enableDpi && decide (packetCount < config.dpiPacketLimit)

/-- `TransportParams`: what the network layer hands to the parsers of the transports, with the
process that the capture may have named. -/
structure TransportParams where
  srcIp : IpAddr
  dstIp : IpAddr
  packetLen : UInt64
  processName : Option String
  processId : Option UInt32

/-- The local and the remote end of a packet: the source is local when its address is. -/
def TransportParams.endpoints (params : TransportParams) (localIps : Finset IpAddr)
    (srcPort dstPort : UInt16) : SocketAddr × SocketAddr :=
  if params.srcIp ∈ localIps then (⟨params.srcIp, srcPort⟩, ⟨params.dstIp, dstPort⟩)
  else (⟨params.dstIp, dstPort⟩, ⟨params.srcIp, srcPort⟩)

variable [DeepPacketInspection]

/-- `tcp::parse`: the header of 20 bytes at least, the two ends by which of them is local, and what
the inspection makes of the bytes behind the data offset. -/
def Tcp.parse (data : List UInt8) (params : TransportParams) (config : ParserConfig)
    (localIps : Finset IpAddr) : Option ParsedPacket :=
  if h : data.length < 20 then none
  else
    -- the data offset, in words; `saturating_sub` below makes up for one that is too large
    let tcpHeaderLen := (data[12] >>> 4).toNat * 4
    let (localAddr, remoteAddr) :=
      params.endpoints localIps (be16 data[0] data[1]) (be16 data[2] data[3])
    let isOutgoing := decide (params.srcIp ∈ localIps)
    some
      { connectionKey := connectionKey .tcp localAddr remoteAddr
        protocol := .tcp
        localAddr := localAddr
        remoteAddr := remoteAddr
        tcpHeader := some
          { seq := be32 data[4] data[5] data[6] data[7]
            ack := be32 data[8] data[9] data[10] data[11]
            window := be16 data[14] data[15]
            flags := parseTcpFlags data[13]
            payloadLen := UInt32.ofNat (data.length - tcpHeaderLen) }
        protocolState := .tcp .unknown
        isOutgoing := isOutgoing
        packetLen := params.packetLen
        dpiResult :=
          if config.enableDpi && decide (tcpHeaderLen < data.length) then
            DeepPacketInspection.analyzeTcpPacket (data.drop tcpHeaderLen) localAddr.port
              remoteAddr.port isOutgoing
          else none
        processName := params.processName
        processId := params.processId
        connectionKey_eq := rfl
        tcpHeader_isSome := rfl
        protocolState_protocol := rfl }

/-- `udp::parse`: the header of eight bytes, the two ends by which of them is local, and what the
inspection makes of the bytes behind it. -/
def Udp.parse (data : List UInt8) (params : TransportParams) (config : ParserConfig)
    (localIps : Finset IpAddr) : Option ParsedPacket :=
  if h : data.length < 8 then none
  else
    let (localAddr, remoteAddr) :=
      params.endpoints localIps (be16 data[0] data[1]) (be16 data[2] data[3])
    let isOutgoing := decide (params.srcIp ∈ localIps)
    some
      { connectionKey := connectionKey .udp localAddr remoteAddr
        protocol := .udp
        localAddr := localAddr
        remoteAddr := remoteAddr
        tcpHeader := none
        protocolState := .udp
        isOutgoing := isOutgoing
        packetLen := params.packetLen
        -- an empty payload is not inspected
        dpiResult :=
          if config.enableDpi && decide (8 < data.length) then
            DeepPacketInspection.analyzeUdpPacket (data.drop 8) localAddr.port remoteAddr.port
              isOutgoing
          else none
        processName := params.processName
        processId := params.processId
        connectionKey_eq := rfl
        tcpHeader_isSome := rfl
        protocolState_protocol := rfl }

theorem Tcp.parse_isSome_iff {data : List UInt8} {params : TransportParams}
    {config : ParserConfig} {localIps : Finset IpAddr} :
    (Tcp.parse data params config localIps).isSome ↔ 20 ≤ data.length := by
  unfold Tcp.parse
  split
  · next hlen => exact iff_of_false (by simp) (by omega)
  · next hlen => exact iff_of_true rfl (by omega)

theorem Udp.parse_isSome_iff {data : List UInt8} {params : TransportParams}
    {config : ParserConfig} {localIps : Finset IpAddr} :
    (Udp.parse data params config localIps).isSome ↔ 8 ≤ data.length := by
  unfold Udp.parse
  split
  · next hlen => exact iff_of_false (by simp) (by omega)
  · next hlen => exact iff_of_true rfl (by omega)

omit [DeepPacketInspection]

/-- What `icmp::parse` and `icmp::parse_v6` share: the echo ID is read for the two given types. -/
def Icmp.parseWith (echoRequest echoReply : UInt8) (data : List UInt8) (params : TransportParams)
    (localIps : Finset IpAddr) : Option ParsedPacket :=
  if h : data.length = 0 then none
  else
    let icmpType := data[0]
    -- only echo messages have an identifier
    let icmpId :=
      if hid : 6 ≤ data.length ∧ (icmpType = echoRequest ∨ icmpType = echoReply) then
        have := hid.1
        some (be16 data[4] data[5])
      else none
    let (localAddr, remoteAddr) := params.endpoints localIps 0 0
    some
      { connectionKey := connectionKey .icmp localAddr remoteAddr
        protocol := .icmp
        localAddr := localAddr
        remoteAddr := remoteAddr
        tcpHeader := none
        protocolState := .icmp icmpType icmpId
        isOutgoing := decide (params.srcIp ∈ localIps)
        packetLen := params.packetLen
        dpiResult := none
        processName := params.processName
        processId := params.processId
        connectionKey_eq := rfl
        tcpHeader_isSome := rfl
        protocolState_protocol := rfl }

/-- `icmp::parse`: echo requests are of type 8 there and replies of type 0. -/
def Icmp.parse : List UInt8 → TransportParams → Finset IpAddr → Option ParsedPacket :=
  Icmp.parseWith 8 0

/-- `icmp::parse_v6`: echo requests are of type 128 there and replies of type 129. -/
def Icmp.parseV6 : List UInt8 → TransportParams → Finset IpAddr → Option ParsedPacket :=
  Icmp.parseWith 128 129

/-- `igmp::parse`: the type, and the group of the messages that have one at a fixed place, which is
none of IGMPv3's reports. -/
def Igmp.parse (data : List UInt8) (params : TransportParams) (localIps : Finset IpAddr) :
    Option ParsedPacket :=
  if h : data.length = 0 then none
  else
    let igmpType := data[0]
    -- an IGMPv3 report carries no group address of its own
    let groupAddr : Option Ipv4Addr :=
      if hg : igmpType ≠ 0x22 ∧ 8 ≤ data.length then
        have := hg.2
        some ⟨#v[data[4], data[5], data[6], data[7]]⟩
      else none
    let (localAddr, remoteAddr) := params.endpoints localIps 0 0
    some
      { connectionKey := connectionKey .igmp localAddr remoteAddr
        protocol := .igmp
        localAddr := localAddr
        remoteAddr := remoteAddr
        tcpHeader := none
        protocolState := .igmp igmpType groupAddr
        isOutgoing := decide (params.srcIp ∈ localIps)
        packetLen := params.packetLen
        dpiResult := none
        processName := params.processName
        processId := params.processId
        connectionKey_eq := rfl
        tcpHeader_isSome := rfl
        protocolState_protocol := rfl }

/-! ## Packets from their headers -/

namespace ParsedPacket

/-- A TCP packet whose payload was not inspected. -/
def ofTcp (localAddr remoteAddr : SocketAddr) (header : TcpHeaderInfo) (isOutgoing : Bool)
    (packetLen : UInt64) : ParsedPacket where
  connectionKey := RustNet.connectionKey .tcp localAddr remoteAddr
  protocol := .tcp
  localAddr := localAddr
  remoteAddr := remoteAddr
  tcpHeader := some header
  protocolState := .tcp .unknown
  isOutgoing := isOutgoing
  packetLen := packetLen
  dpiResult := none
  processName := none
  processId := none
  connectionKey_eq := rfl
  tcpHeader_isSome := rfl
  protocolState_protocol := rfl

/-- A UDP packet with the given inspection result. -/
def ofUdp (localAddr remoteAddr : SocketAddr) (dpiResult : Option DpiResult) (isOutgoing : Bool)
    (packetLen : UInt64) : ParsedPacket where
  connectionKey := RustNet.connectionKey .udp localAddr remoteAddr
  protocol := .udp
  localAddr := localAddr
  remoteAddr := remoteAddr
  tcpHeader := none
  protocolState := .udp
  isOutgoing := isOutgoing
  packetLen := packetLen
  dpiResult := dpiResult
  processName := none
  processId := none
  connectionKey_eq := rfl
  tcpHeader_isSome := rfl
  protocolState_protocol := rfl

/-- A UDP packet read as a QUIC packet of a connected flow with the given connection ID. -/
def ofQuic (localAddr remoteAddr : SocketAddr) (connectionIdHex : String) (isOutgoing : Bool)
    (packetLen : UInt64) : ParsedPacket :=
  ofUdp localAddr remoteAddr
    (some ⟨.quic
      { versionString := none
        packetType := .oneRtt
        connectionId := []
        connectionIdHex := some connectionIdHex
        connectionState := .connected
        tlsInfo := none
        hasCryptoFrame := false
        cryptoReassembler := none
        connectionClose := none
        idleTimeout := none }⟩)
    isOutgoing packetLen

end ParsedPacket

end RustNet
