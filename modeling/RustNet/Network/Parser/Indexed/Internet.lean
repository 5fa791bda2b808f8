import RustNet.Foundations.Checked
import RustNet.Network.Parser.LinkLayer

/-!
# Internet and transport parsing with every access written out

The parser of the other modules reads through bounds that its definitions carry. Here the same
functions are translated a second time, with every index and every slice of the source as a checked
access that can fail. Each function agrees with its counterpart and so never fails; each needs a
length check of the source for that, often one that a caller makes.

## Main results

* `Indexed.parseIpv6ExtensionHeaders_eq`: the walk over extension headers never fails, although the
  offset it returns can lie behind the end of the data;
* `Indexed.parseIpv4_eq`, `Indexed.parseIpv6_eq`, `Indexed.parseArpPacketWithOffset_eq`: nor do the
  parsers of the internet layer.
-/

namespace RustNet

/-- A packet of a protocol other than TCP, filed under its own key. -/
def ParsedPacket.ofState (state : ProtocolState) (h : state.protocol ≠ .tcp)
    (localAddr remoteAddr : SocketAddr) (isOutgoing : Bool) (packetLen : UInt64) :
    ParsedPacket where
  connectionKey := RustNet.connectionKey state.protocol localAddr remoteAddr
  protocol := state.protocol
  localAddr := localAddr
  remoteAddr := remoteAddr
  tcpHeader := none
  protocolState := state
  isOutgoing := isOutgoing
  packetLen := packetLen
  dpiResult := none
  processName := none
  processId := none
  connectionKey_eq := rfl
  tcpHeader_isSome := (decide_eq_false h).symm
  protocolState_protocol := rfl

/-- The packet with an inspection result, and with the process its parameters name. -/
def ParsedPacket.inspected (p : ParsedPacket) (dpiResult : Option DpiResult)
    (params : TransportParams) : ParsedPacket :=
  { p with
    dpiResult := dpiResult
    processName := params.processName
    processId := params.processId }

namespace Indexed

open Checked

/-! ## Numbers -/

/-- `u16::from_be_bytes` of the two bytes from `i` on. -/
def be16At (data : List UInt8) (i : ℕ) : Checked UInt16 := do
  let high ← index data i
  let low ← index data (i + 1)
  return be16 high low

/-- `u32::from_be_bytes` of the four bytes from `i` on. -/
def be32At (data : List UInt8) (i : ℕ) : Checked UInt32 := do
  let a ← index data i
  let b ← index data (i + 1)
  let c ← index data (i + 2)
  let d ← index data (i + 3)
  return be32 a b c d

section Numbers

variable {data : List UInt8} {i : ℕ}

theorem be16At_eq (h : i + 1 < data.length) : be16At data i = pure (be16 data[i] data[i + 1]) := by
  rw [be16At, index_eq (Nat.lt_of_succ_lt h), index_eq h]
  rfl

theorem be32At_eq (h : i + 3 < data.length) :
    be32At data i = pure (be32 data[i] data[i + 1] data[i + 2] data[i + 3]) := by
  rw [be32At, index_eq (by omega : i < data.length), index_eq (by omega : i + 1 < data.length),
    index_eq (by omega : i + 2 < data.length), index_eq h]
  rfl

end Numbers

/-! ## Transport layer -/

section Transport

variable [DeepPacketInspection]

/-- `tcp::parse`, with each of its indices checked: the fields of the header, the offset of the
payload and what the inspection reads of it. -/
def Tcp.parse (data : List UInt8) (params : TransportParams) (config : ParserConfig)
    (localIps : Finset IpAddr) : Checked (Option ParsedPacket) := do
  if data.length < 20 then return none
  let srcPort ← be16At data 0
  let dstPort ← be16At data 2
  let seq ← be32At data 4
  let ack ← be32At data 8
  let window ← be16At data 14
  let flags ← index data 13
  let dataOffset ← index data 12
  let tcpHeaderLen := (dataOffset >>> 4).toNat * 4
  let header : TcpHeaderInfo :=
    { seq := seq
      ack := ack
      window := window
      flags := parseTcpFlags flags
      -- `saturating_sub`
      payloadLen := UInt32.ofNat (data.length - tcpHeaderLen) }
  let isOutgoing := decide (params.srcIp ∈ localIps)
  let ends := params.endpoints localIps srcPort dstPort
  let dpiResult ←
    if config.enableDpi && decide (tcpHeaderLen < data.length) then do
      let payload ← sliceFrom data tcpHeaderLen
      pure (DeepPacketInspection.analyzeTcpPacket payload ends.1.port ends.2.port isOutgoing)
    else pure none
  return some ((ParsedPacket.ofTcp ends.1 ends.2 header isOutgoing params.packetLen).inspected
    dpiResult params)

/-- `udp::parse`, with each of its indices checked: the two ports and the payload behind the
header. -/
def Udp.parse (data : List UInt8) (params : TransportParams) (config : ParserConfig)
    (localIps : Finset IpAddr) : Checked (Option ParsedPacket) := do
  if data.length < 8 then return none
  let srcPort ← be16At data 0
  let dstPort ← be16At data 2
  let isOutgoing := decide (params.srcIp ∈ localIps)
  let ends := params.endpoints localIps srcPort dstPort
  -- an empty payload is not inspected
  let dpiResult ←
    if config.enableDpi && decide (8 < data.length) then do
      let payload ← sliceFrom data 8
      pure (DeepPacketInspection.analyzeUdpPacket payload ends.1.port ends.2.port isOutgoing)
    else pure none
  return some ((ParsedPacket.ofState .udp (by decide) ends.1 ends.2 isOutgoing
    params.packetLen).inspected dpiResult params)

variable (data : List UInt8) (params : TransportParams) (config : ParserConfig)
  (localIps : Finset IpAddr)

theorem Tcp.parse_eq :
    Tcp.parse data params config localIps =
      pure (RustNet.Tcp.parse data params config localIps) := by
  unfold Tcp.parse RustNet.Tcp.parse
  split_ifs with hlen
  · rfl
  · simp (disch := omega) only [be16At_eq, be32At_eq, index_eq, pure_bind']
    split_ifs with hdpi
    · have hpayload := of_decide_eq_true (Bool.and_eq_true_iff.mp hdpi).2
      rw [sliceFrom_eq hpayload.le, pure_bind']
      rfl
    · rfl

theorem Udp.parse_eq :
    Udp.parse data params config localIps =
      pure (RustNet.Udp.parse data params config localIps) := by
  unfold Udp.parse RustNet.Udp.parse
  by_cases hlen : data.length < 8
  · rw [if_pos hlen, dif_pos hlen]
  · rw [if_neg hlen, dif_neg hlen]
    simp (disch := omega) only [be16At_eq, pure_bind']
    split_ifs with hdpi
    · have hpayload := of_decide_eq_true (Bool.and_eq_true_iff.mp hdpi).2
      rw [sliceFrom_eq hpayload.le, pure_bind']
      rfl
    · rfl

omit [DeepPacketInspection]

/-- What `icmp::parse` and `icmp::parse_v6` share. -/
def Icmp.parseWith (echoRequest echoReply : UInt8) : Checked (Option ParsedPacket) := do
  if data.isEmpty then return none
  let icmpType ← index data 0
  let icmpId ←
    if 6 ≤ data.length ∧ (icmpType = echoRequest ∨ icmpType = echoReply) then do
      let id ← be16At data 4
      pure (some id)
    else pure none
  let ends := params.endpoints localIps 0 0
  return some ((ParsedPacket.ofState (.icmp icmpType icmpId) (by simp [ProtocolState.protocol])
    ends.1 ends.2 (decide (params.srcIp ∈ localIps)) params.packetLen).inspected none params)

/-- `icmp::parse`, with each of its indices checked: echo requests are of type 8 there and replies
of type 0. -/
def Icmp.parse : Checked (Option ParsedPacket) := Icmp.parseWith data params localIps 8 0

/-- `icmp::parse_v6`, with each of its indices checked: echo requests are of type 128 there and
replies of type 129. -/
def Icmp.parseV6 : Checked (Option ParsedPacket) := Icmp.parseWith data params localIps 128 129

/-- `igmp::parse`, with each of its indices checked: the type, and the group of the messages that
have one at a fixed place. -/
def Igmp.parse : Checked (Option ParsedPacket) := do
  if data.isEmpty then return none
  let igmpType ← index data 0
  -- a report of version 3 has no group at this place
  let groupAddr ←
    if igmpType ≠ 0x22 ∧ 8 ≤ data.length then do
      let a ← index data 4
      let b ← index data 5
      let c ← index data 6
      let d ← index data 7
      pure (some (⟨#v[a, b, c, d]⟩ : Ipv4Addr))
    else pure none
  let ends := params.endpoints localIps 0 0
  return some ((ParsedPacket.ofState (.igmp igmpType groupAddr) (by simp [ProtocolState.protocol])
    ends.1 ends.2 (decide (params.srcIp ∈ localIps)) params.packetLen).inspected none params)

theorem Icmp.parseWith_eq (echoRequest echoReply : UInt8) :
    Icmp.parseWith data params localIps echoRequest echoReply =
      pure (RustNet.Icmp.parseWith echoRequest echoReply data params localIps) := by
  unfold Icmp.parseWith RustNet.Icmp.parseWith
  by_cases hlen : data.length = 0
  · rw [if_pos (by simpa using hlen), dif_pos hlen]
  · rw [if_neg (by simpa using hlen), dif_neg hlen, index_eq (by omega), pure_bind']
    by_cases hid : 6 ≤ data.length ∧ (data[0] = echoRequest ∨ data[0] = echoReply)
    · rw [if_pos hid, be16At_eq (by omega)]
      simp only [dif_pos hid]
      rfl
    · rw [if_neg hid]
      simp only [dif_neg hid]
      rfl

theorem Icmp.parse_eq :
    Icmp.parse data params localIps = pure (RustNet.Icmp.parse data params localIps) :=
  Icmp.parseWith_eq data params localIps 8 0

theorem Icmp.parseV6_eq :
    Icmp.parseV6 data params localIps = pure (RustNet.Icmp.parseV6 data params localIps) :=
  Icmp.parseWith_eq data params localIps 128 129

theorem Igmp.parse_eq :
    Igmp.parse data params localIps = pure (RustNet.Igmp.parse data params localIps) := by
  unfold Igmp.parse RustNet.Igmp.parse
  by_cases hlen : data.length = 0
  · rw [if_pos (by simpa using hlen), dif_pos hlen]
  · rw [if_neg (by simpa using hlen), dif_neg hlen, index_eq (by omega), pure_bind']
    by_cases hgroup : data[0] ≠ 0x22 ∧ 8 ≤ data.length
    · rw [if_pos hgroup]
      simp (disch := omega) only [dif_pos hgroup, index_eq, pure_bind']
      rfl
    · rw [if_neg hgroup]
      simp only [dif_neg hgroup]
      rfl

end Transport

/-! ## Extension headers -/

/-- `parse_ipv6_extension_headers`, from `offset` on: the headers that are known are skipped by the
lengths they give, and the first other one is the transport's. -/
def parseIpv6ExtensionHeaders (nextHeader : UInt8) (data : List UInt8) (offset : ℕ) :
    Checked (UInt8 × ℕ) :=
  -- hop-by-hop options, routing, destination options
  if nextHeader = 0 ∨ nextHeader = 43 ∨ nextHeader = 60 then
    if data.length < offset + 2 then pure (nextHeader, offset)
    else do
      let next ← index data offset
      let words ← index data (offset + 1)
      let headerLen := (words.toNat + 1) * 8
      if _h : offset + headerLen < data.length then
        parseIpv6ExtensionHeaders next data (offset + headerLen)
      else pure (next, offset + headerLen)
  -- fragment
  else if nextHeader = 44 then
    if data.length < offset + 8 then pure (nextHeader, offset)
    else do
      let next ← index data offset
      if _h : offset + 8 < data.length then parseIpv6ExtensionHeaders next data (offset + 8)
      else pure (next, offset + 8)
  -- authentication
  else if nextHeader = 51 then
    if data.length < offset + 2 then pure (nextHeader, offset)
    else do
      let next ← index data offset
      let words ← index data (offset + 1)
      let headerLen := (words.toNat + 2) * 4
      if _h : offset + headerLen < data.length then
        parseIpv6ExtensionHeaders next data (offset + headerLen)
      else pure (next, offset + headerLen)
  else pure (nextHeader, offset)
termination_by data.length - offset
decreasing_by all_goals omega

/-- One round of the walk, by what the header at `offset` announces. -/
theorem parseIpv6ExtensionHeaders_step (nextHeader : UInt8) (data : List UInt8) (offset : ℕ) :
    parseIpv6ExtensionHeaders nextHeader data offset =
      match extensionHeaderAt nextHeader data offset with
      | none => pure (nextHeader, offset)
      | some (next, headerLen) =>
        if offset + headerLen < data.length then
          parseIpv6ExtensionHeaders next data (offset + headerLen)
        else pure (next, offset + headerLen) := by
  rw [parseIpv6ExtensionHeaders, extensionHeaderAt]
  by_cases hoptions : nextHeader = 0 ∨ nextHeader = 43 ∨ nextHeader = 60
  -- hop-by-hop options, routing and destination options
  · rw [if_pos hoptions, if_pos hoptions]
    by_cases hlen : data.length < offset + 2
    · rw [if_pos hlen, dif_pos hlen]
    · rw [if_neg hlen, dif_neg hlen, index_eq (by omega), pure_bind', index_eq (by omega),
        pure_bind']
      rfl
  rw [if_neg hoptions, if_neg hoptions]
  by_cases hfragment : nextHeader = 44
  -- a fragment header
  · rw [if_pos hfragment, if_pos hfragment]
    by_cases hlen : data.length < offset + 8
    · rw [if_pos hlen, dif_pos hlen]
    · rw [if_neg hlen, dif_neg hlen, index_eq (by omega), pure_bind']
      rfl
  rw [if_neg hfragment, if_neg hfragment]
  by_cases hauthentication : nextHeader = 51
  -- an authentication header
  · rw [if_pos hauthentication, if_pos hauthentication]
    by_cases hlen : data.length < offset + 2
    · rw [if_pos hlen, dif_pos hlen]
    · rw [if_neg hlen, dif_neg hlen, index_eq (by omega), pure_bind', index_eq (by omega),
        pure_bind']
      rfl
  · rw [if_neg hauthentication, if_neg hauthentication]

/-- The walk never reads outside the data. -/
theorem parseIpv6ExtensionHeaders_eq (nextHeader : UInt8) (data : List UInt8) (offset : ℕ) :
    parseIpv6ExtensionHeaders nextHeader data offset =
      pure (RustNet.parseIpv6ExtensionHeaders nextHeader data offset) := by
  fun_induction RustNet.parseIpv6ExtensionHeaders nextHeader data offset with
  | case1 nextHeader offset hnone => rw [parseIpv6ExtensionHeaders_step, hnone]
  | case2 nextHeader offset next headerLen hsome hlen ih =>
    rw [parseIpv6ExtensionHeaders_step, hsome]
    exact (if_pos hlen).trans ih
  | case3 nextHeader offset next headerLen hsome hlen =>
    rw [parseIpv6ExtensionHeaders_step, hsome]
    exact if_neg hlen

/-! ## Internet layer -/

/-- `Ipv4Addr::new` of the octets from `i` on. -/
def ipv4At (data : List UInt8) (i : ℕ) : Checked IpAddr := do
  let a ← index data i
  let b ← index data (i + 1)
  let c ← index data (i + 2)
  let d ← index data (i + 3)
  return .v4 ⟨#v[a, b, c, d]⟩

/-- `Ipv6Addr::new` of the segments from `i` on. -/
def ipv6At (data : List UInt8) (i : ℕ) : Checked IpAddr := do
  let a ← be16At data i
  let b ← be16At data (i + 2)
  let c ← be16At data (i + 4)
  let d ← be16At data (i + 6)
  let e ← be16At data (i + 8)
  let f ← be16At data (i + 10)
  let g ← be16At data (i + 12)
  let h ← be16At data (i + 14)
  return .v6 ⟨#v[a, b, c, d, e, f, g, h]⟩

theorem ipv4At_eq {data : List UInt8} {i : ℕ} (h : i + 4 ≤ data.length) :
    ipv4At data i = pure (RustNet.ipv4At data i h) := by
  unfold ipv4At
  simp (disch := omega) only [index_eq, pure_bind']
  rfl

theorem ipv6At_eq {data : List UInt8} {i : ℕ} (h : i + 16 ≤ data.length) :
    ipv6At data i = pure (RustNet.ipv6At data i h) := by
  unfold ipv6At
  simp (disch := omega) only [be16At_eq, pure_bind']
  rfl

section Internet

variable [DeepPacketInspection] (parser : PacketParser)

/-- The dispatch on `protocol_num`: ICMP, IGMP, TCP and UDP have parsers, and a datagram of another
protocol gives no packet. -/
def parseIpv4Transport (d : Datagram) : Checked (Option ParsedPacket) :=
  match d.protocolNum with
  | 1 => Icmp.parse d.transportData d.params parser.localIps
  | 2 => Igmp.parse d.transportData d.params parser.localIps
  | 6 => Tcp.parse d.transportData d.params parser.config parser.localIps
  | 17 => Udp.parse d.transportData d.params parser.config parser.localIps
  | _ => return none

/-- The dispatch on `final_next_header`: ICMP for version 6, TCP and UDP have parsers, and a
datagram of another protocol gives no packet. -/
def parseIpv6Transport (d : Datagram) : Checked (Option ParsedPacket) :=
  match d.protocolNum with
  | 58 => Icmp.parseV6 d.transportData d.params parser.localIps
  | 6 => Tcp.parse d.transportData d.params parser.config parser.localIps
  | 17 => Udp.parse d.transportData d.params parser.config parser.localIps
  | _ => return none

theorem parseIpv4Transport_eq (d : Datagram) :
    parseIpv4Transport parser d = pure (parser.parseIpv4Transport d) := by
  unfold parseIpv4Transport PacketParser.parseIpv4Transport
  split
  · next hnum => simpa only [hnum] using Icmp.parse_eq _ _ _
  · next hnum => simpa only [hnum] using Igmp.parse_eq _ _ _
  · next hnum => simpa only [hnum] using Tcp.parse_eq _ _ _ _
  · next hnum => simpa only [hnum] using Udp.parse_eq _ _ _ _
  · simp

theorem parseIpv6Transport_eq (d : Datagram) :
    parseIpv6Transport parser d = pure (parser.parseIpv6Transport d) := by
  unfold parseIpv6Transport PacketParser.parseIpv6Transport
  split
  · next hnum => simpa only [hnum] using Icmp.parseV6_eq _ _ _
  · next hnum => simpa only [hnum] using Tcp.parse_eq _ _ _ _
  · next hnum => simpa only [hnum] using Udp.parse_eq _ _ _ _
  · simp

/-- What the IPv4 parsers share; `linkLen` bytes of link-layer header stand before `ipData`. -/
def parseIpv4 (linkLen : ℕ) (ipData : List UInt8) (processName : Option String)
    (processId : Option UInt32) : Checked (Option ParsedPacket) := do
  if ipData.length < 20 then return none
  let first ← index ipData 0
  if first >>> 4 ≠ 4 then return none
  let ipTotalLength ← be16At ipData 2
  let protocolNum ← index ipData 9
  let srcIp ← ipv4At ipData 12
  let dstIp ← ipv4At ipData 16
  -- the length of the header in words, with its options
  let ipHeaderLen := (first &&& 0x0F).toNat * 4
  if ipData.length < ipHeaderLen then return none
  let transportData ← sliceFrom ipData ipHeaderLen
  let params : TransportParams :=
    { srcIp := srcIp
      dstIp := dstIp
      packetLen := UInt64.ofNat (linkLen + ipTotalLength.toNat)
      processName := processName
      processId := processId }
  parseIpv4Transport parser ⟨protocolNum, transportData, params⟩

/-- What the IPv6 parsers share. -/
def parseIpv6 (linkLen : ℕ) (ipData : List UInt8) (processName : Option String)
    (processId : Option UInt32) : Checked (Option ParsedPacket) := do
  if ipData.length < 40 then return none
  let first ← index ipData 0
  if first >>> 4 ≠ 6 then return none
  let ipv6PayloadLength ← be16At ipData 4
  let nextHeader ← index ipData 6
  let srcIp ← ipv6At ipData 8
  let dstIp ← ipv6At ipData 24
  let transportData ← sliceFrom ipData 40
  let walked ← parseIpv6ExtensionHeaders nextHeader transportData 0
  -- without the minimum, a header that announces too much would slice past the end
  let finalTransportData ← sliceFrom transportData (min walked.2 transportData.length)
  let params : TransportParams :=
    { srcIp := srcIp
      dstIp := dstIp
      packetLen := UInt64.ofNat (linkLen + 40 + ipv6PayloadLength.toNat)
      processName := processName
      processId := processId }
  parseIpv6Transport parser ⟨walked.1, finalTransportData, params⟩

theorem parseIpv4_eq (linkLen : ℕ) (ipData : List UInt8) (processName : Option String)
    (processId : Option UInt32) :
    parseIpv4 parser linkLen ipData processName processId =
      pure (parser.parseIp .v4 linkLen ipData processName processId) := by
  rw [PacketParser.parseIp, Datagram.ofIp, Datagram.ofIpv4, parseIpv4]
  by_cases hlen : 20 ≤ ipData.length
  · rw [if_neg (not_lt.mpr hlen), dif_pos hlen]
    simp (disch := omega) only [be16At_eq, index_eq, ipv4At_eq, pure_bind']
    split_ifs with hversion hheader
    · rfl
    · rfl
    · rw [sliceFrom_eq (not_lt.mp hheader), pure_bind', parseIpv4Transport_eq]
      rfl
  · rw [if_pos (not_le.mp hlen), dif_neg hlen]
    rfl

theorem parseIpv6_eq (linkLen : ℕ) (ipData : List UInt8) (processName : Option String)
    (processId : Option UInt32) :
    parseIpv6 parser linkLen ipData processName processId =
      pure (parser.parseIp .v6 linkLen ipData processName processId) := by
  rw [PacketParser.parseIp, Datagram.ofIp, Datagram.ofIpv6, parseIpv6]
  by_cases hlen : ipData.length < 40
  · rw [if_pos hlen, dif_pos hlen]
    rfl
  · rw [if_neg hlen, dif_neg hlen]
    simp (disch := omega) only [be16At_eq, index_eq, ipv6At_eq, sliceFrom_eq,
      parseIpv6ExtensionHeaders_eq, pure_bind']
    split_ifs with hversion
    · rfl
    · rw [parseIpv6Transport_eq]
      rfl

/-- `parse_ipv4_packet_inner`: the slice behind the header of the link layer, which must be inside
the frame, and the IPv4 packet in it. -/
def parseIpv4PacketInner (data : List UInt8) (offset : ℕ) (processName : Option String)
    (processId : Option UInt32) : Checked (Option ParsedPacket) := do
  let ipData ← sliceFrom data offset
  parseIpv4 parser offset ipData processName processId

/-- `parse_ipv6_packet_inner`: the slice behind the header of the link layer, which must be inside
the frame, and the IPv6 packet in it. -/
def parseIpv6PacketInner (data : List UInt8) (offset : ℕ) (processName : Option String)
    (processId : Option UInt32) : Checked (Option ParsedPacket) := do
  let ipData ← sliceFrom data offset
  parseIpv6 parser offset ipData processName processId

/-- `parse_raw_ipv4_packet`: an IPv4 packet that begins with the frame, as it does where there is no
link layer. -/
def parseRawIpv4Packet (data : List UInt8) (processName : Option String)
    (processId : Option UInt32) : Checked (Option ParsedPacket) :=
  parseIpv4 parser 0 data processName processId

/-- `parse_raw_ipv6_packet`: an IPv6 packet that begins with the frame, as it does where there is no
link layer. -/
def parseRawIpv6Packet (data : List UInt8) (processName : Option String)
    (processId : Option UInt32) : Checked (Option ParsedPacket) :=
  parseIpv6 parser 0 data processName processId

section Inner

variable {parser} {data : List UInt8} {offset : ℕ} {processName : Option String}
  {processId : Option UInt32}

theorem parseIpv4PacketInner_eq (h : offset ≤ data.length) :
    parseIpv4PacketInner parser data offset processName processId =
      pure (parser.parseIpv4PacketInner data offset processName processId) := by
  rw [parseIpv4PacketInner, sliceFrom_eq h, pure_bind', parseIpv4_eq]
  rfl

theorem parseIpv6PacketInner_eq (h : offset ≤ data.length) :
    parseIpv6PacketInner parser data offset processName processId =
      pure (parser.parseIpv6PacketInner data offset processName processId) := by
  rw [parseIpv6PacketInner, sliceFrom_eq h, pure_bind', parseIpv6_eq]
  rfl

end Inner

end Internet

/-! ## ARP -/

/-- The six bytes from `start` on as a MAC address. -/
def macText (data : List UInt8) (start : ℕ) : Checked String := do
  let a ← index data start
  let b ← index data (start + 1)
  let c ← index data (start + 2)
  let d ← index data (start + 3)
  let e ← index data (start + 4)
  let f ← index data (start + 5)
  return ":".intercalate
    [hexByte a, hexByte b, hexByte c, hexByte d, hexByte e, hexByte f]

theorem macText_eq {data : List UInt8} {start : ℕ} (h : start + 6 ≤ data.length) :
    macText data start = pure (RustNet.macText data start h) := by
  unfold macText
  simp (disch := omega) only [index_eq, pure_bind']
  rfl

/-- `parse_arp_packet_with_offset`, with each of its indices checked: the fixed part of the message,
which must be Ethernet and IPv4, and the four addresses behind it. -/
def parseArpPacketWithOffset (parser : PacketParser) (data : List UInt8) (headerLen : ℕ)
    (processName : Option String) (processId : Option UInt32) :
    Checked (Option ParsedPacket) := do
  let arpData ← sliceFrom data headerLen
  if arpData.length < 28 then return none
  let hardwareType ← be16At arpData 0
  let protocolType ← be16At arpData 2
  let opcode ← be16At arpData 6
  -- Ethernet and IPv4
  if hardwareType ≠ 1 ∨ protocolType ≠ 0x0800 then return none
  let senderMac ← macText arpData 8
  let targetMac ← macText arpData 18
  let senderIp ← ipv4At arpData 14
  let targetIp ← ipv4At arpData 24
  return (arpOperation? opcode).map fun operation =>
    -- the message goes out if the address of the sender is local
    let isOutgoing := decide (senderIp ∈ parser.localIps)
    let arpInfo : ArpInfo :=
      { operation := operation
        senderMac := senderMac
        senderIp := senderIp
        targetMac := targetMac
        targetIp := targetIp
        senderVendor := parser.ouiLookup.bind fun lookup => lookup senderMac
        targetVendor := parser.ouiLookup.bind fun lookup => lookup targetMac }
    let packet := ParsedPacket.ofState (.arp arpInfo) (by simp [ProtocolState.protocol])
      ⟨if isOutgoing then senderIp else targetIp, 0⟩
      ⟨if isOutgoing then targetIp else senderIp, 0⟩ isOutgoing (UInt64.ofNat data.length)
    { packet with
      processName := processName
      processId := processId }

theorem parseArpPacketWithOffset_eq {parser : PacketParser} {data : List UInt8} {headerLen : ℕ}
    {processName : Option String} {processId : Option UInt32} (h : headerLen ≤ data.length) :
    parseArpPacketWithOffset parser data headerLen processName processId =
      pure (parser.parseArpPacketWithOffset data headerLen processName processId) := by
  unfold parseArpPacketWithOffset PacketParser.parseArpPacketWithOffset
  rw [sliceFrom_eq h, pure_bind']
  by_cases hlen : (data.drop headerLen).length < 28
  · rw [if_pos hlen, dif_pos hlen]
  · rw [if_neg hlen, dif_neg hlen]
    simp (disch := omega) only [be16At_eq, macText_eq, ipv4At_eq, pure_bind']
    by_cases hkind : be16 (data.drop headerLen)[0] (data.drop headerLen)[1] ≠ 1 ∨
        be16 (data.drop headerLen)[2] (data.drop headerLen)[3] ≠ 0x0800
    · exact (if_pos hkind).trans (congrArg pure (if_pos hkind).symm)
    · exact (if_neg hkind).trans (congrArg pure (if_neg hkind).symm)

end Indexed

end RustNet
