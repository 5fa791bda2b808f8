import RustNet.Network.Parser.Internet

/-!
# Link-layer parsing

`parse_packet` and the parsers of `link_layer/` on every system but macOS: Ethernet, the two Linux
cooked captures, raw IP and the TUN/TAP choice between them. Each of them looks at a few bytes of
the link-layer header and hands the frame to one parser of the layer above; what it chooses is a
`LinkPayload`.

## Main results

* `PacketParser.linkPayload?_stable`: bytes after the frame do not change the choice;
* `PacketParser.parsePacket_of_ipPayload`: a frame with an IP packet parses as that packet does.
-/

namespace RustNet

/-! ## ARP -/

/-- One byte as `{:02x}` writes it: two digits of base sixteen, the letters among them small. -/
def hexByte (b : UInt8) : String :=
  String.ofList [Nat.digitChar (b.toNat / 16), Nat.digitChar (b.toNat % 16)]

/-- The six bytes from `start` on as a MAC address. -/
def macText (data : List UInt8) (start : ℕ) (h : start + 6 ≤ data.length) : String :=
  ":".intercalate
    [hexByte data[start], hexByte data[start + 1], hexByte data[start + 2],
      hexByte data[start + 3], hexByte data[start + 4], hexByte data[start + 5]]

example : macText [0x00, 0x1a, 0x2b, 0x3c, 0xd4, 0xff] 0 (by decide) = "00:1a:2b:3c:d4:ff" := by
  decide +kernel

/-- The operation an ARP opcode stands for. -/
def arpOperation? (opcode : UInt16) : Option ArpOperation :=
  if opcode = 1 then some .request else if opcode = 2 then some .reply else none

/-- `parse_arp_packet_with_offset`; `parse_arp_packet_inner` is the same. -/
def PacketParser.parseArpPacketWithOffset (parser : PacketParser) (data : List UInt8)
    (headerLen : ℕ) (processName : Option String) (processId : Option UInt32) :
    Option ParsedPacket :=
  let arpData := data.drop headerLen
  if h : arpData.length < 28 then none
  else
    let hardwareType := be16 arpData[0] arpData[1]
    let protocolType := be16 arpData[2] arpData[3]
    if hardwareType ≠ 1 ∨ protocolType ≠ 0x0800 then none
    else
      let senderMac := macText arpData 8 (by omega)
      let targetMac := macText arpData 18 (by omega)
      let senderIp := ipv4At arpData 14 (by omega)
      let targetIp := ipv4At arpData 24 (by omega)
      (arpOperation? (be16 arpData[6] arpData[7])).map fun operation =>
        let isOutgoing := decide (senderIp ∈ parser.localIps)
        let localAddr : SocketAddr := ⟨if isOutgoing then senderIp else targetIp, 0⟩
        let remoteAddr : SocketAddr := ⟨if isOutgoing then targetIp else senderIp, 0⟩
        { connectionKey := connectionKey .arp localAddr remoteAddr
          protocol := .arp
          localAddr := localAddr
          remoteAddr := remoteAddr
          tcpHeader := none
          protocolState := .arp
            { operation := operation
              senderMac := senderMac
              senderIp := senderIp
              targetMac := targetMac
              targetIp := targetIp
              senderVendor := parser.ouiLookup.bind fun lookup => lookup senderMac
              targetVendor := parser.ouiLookup.bind fun lookup => lookup targetMac }
          isOutgoing := isOutgoing
          -- the whole frame, with whatever lies behind the ARP packet
          packetLen := UInt64.ofNat data.length
          dpiResult := none
          processName := processName
          processId := processId
          connectionKey_eq := rfl
          tcpHeader_isSome := by decide
          protocolState_protocol := rfl }

/-! ## What a link-layer parser chooses -/

/-- The parser a frame is handed to. -/
inductive LinkPayload
  /-- `parse_ipv4_packet_inner` or `parse_ipv6_packet_inner` with this offset. -/
  | framed (version : IpVersion) (offset : ℕ)
  /-- `parse_raw_ipv4_packet` or `parse_raw_ipv6_packet` on the bytes from `start` on. -/
  | raw (version : IpVersion) (start : ℕ)
  /-- `parse_arp_packet_with_offset` with this header length. -/
  | arp (headerLen : ℕ)
deriving DecidableEq

/-- The bytes in front of the payload. -/
def LinkPayload.start : LinkPayload → ℕ
  | framed _ offset => offset
  | raw _ start => start
  | arp headerLen => headerLen

/-- The match on an EtherType that the link-layer parsers share; `ip` is the copy of the IP parsers
they call. -/
def LinkPayload.ofEthertype (ip : IpVersion → ℕ → LinkPayload) (ethertype : UInt16) (start : ℕ) :
    Option LinkPayload :=
  match ethertype with
  | 0x0800 => some (ip .v4 start)
  | 0x86dd => some (ip .v6 start)
  | 0x0806 => some (.arp start)
  | _ => none

/-- `extract_ethertype`: the type of what the frame carries and the length of the header, with one
tag of a virtual network skipped. -/
def Ethernet.extractEthertype (data : List UInt8) (h : 14 ≤ data.length) : Option (UInt16 × ℕ) :=
  let ethertype := be16 data[12] data[13]
  -- an 802.1Q tag pushes the type of the payload back
  if ethertype = 0x8100 then
    if h' : data.length < 18 then none else some (be16 data[16] data[17], 18)
  else some (ethertype, 14)

/-- The choice of `ethernet::parse`: the header of 14 bytes, or of 18 with a tag, and the parser by
the type it gives. -/
def Ethernet.parse (data : List UInt8) : Option LinkPayload :=
  if h : data.length < 14 then none
  else
    -- the type of the payload and its offset
    (Ethernet.extractEthertype data (by omega)).bind fun found =>
      LinkPayload.ofEthertype .framed found.1 found.2

/-- What `parse_sll` and `parse_sll2` share: a header of `headerLen` bytes with the protocol at
`protocolAt`. -/
def LinuxSll.parseWith (headerLen protocolAt : ℕ) (hAt : protocolAt + 2 ≤ headerLen)
    (data : List UInt8) : Option LinkPayload :=
  if h : data.length < headerLen then none
  else
    let protocol := be16 data[protocolAt] data[protocolAt + 1]
    if protocol = 0x8100 then
      if h' : data.length < headerLen + 4 then none
      else
        LinkPayload.ofEthertype .raw (be16 data[headerLen + 2] data[headerLen + 3]) (headerLen + 4)
    else LinkPayload.ofEthertype .raw protocol headerLen

/-- The choice of `parse_sll`: Linux's cooked capture, where the type of the protocol stands at 14
in a header of 16 bytes. -/
def LinuxSll.parseSll : List UInt8 → Option LinkPayload :=
  LinuxSll.parseWith 16 14 (by decide)

/-- The choice of `parse_sll2`: the second version of the cooked capture, where the type of the
protocol stands in front of a header of 20 bytes. -/
def LinuxSll.parseSll2 : List UInt8 → Option LinkPayload :=
  LinuxSll.parseWith 20 0 (by decide)

/-- The choice of `raw_ip::parse`: the version in the first four bits says which of the two parsers
the frame goes to. -/
def RawIp.parse (data : List UInt8) : Option LinkPayload :=
  match data with
  | [] => none
  | first :: _ =>
    let version := first >>> 4
    if version = 4 then some (.raw .v4 0)
    else if version = 6 then some (.raw .v6 0)
    else none

/-- What `raw_ip::parse_ipv4` and `raw_ip::parse_ipv6` share. -/
def RawIp.parseVersion (number : UInt8) (minLen : ℕ) (version : IpVersion) (data : List UInt8) :
    Option LinkPayload :=
  if h : data.length = 0 ∨ data.length < minLen then none
  else if data[0] >>> 4 ≠ number then none
  else some (.raw version 0)

/-- The choice of `raw_ip::parse_ipv4`: a frame that is as long as a header at least and is of
version 4. -/
def RawIp.parseIpv4 : List UInt8 → Option LinkPayload := RawIp.parseVersion 4 20 .v4

/-- The choice of `raw_ip::parse_ipv6`: a frame that is as long as a header at least and is of
version 6. -/
def RawIp.parseIpv6 : List UInt8 → Option LinkPayload := RawIp.parseVersion 6 40 .v6

/-- The choice of `tun_tap::parse_tun`: the whole frame is read as a packet without a link layer. -/
def TunTap.parseTun : List UInt8 → Option LinkPayload := RawIp.parse

/-- The choice of `tun_tap::parse_tap`: the interface carries frames of Ethernet. -/
def TunTap.parseTap : List UInt8 → Option LinkPayload := Ethernet.parse

/-- The choice of `tun_tap::parse_by_dlt`: the parser by the type of the link. That of the loopback
goes to the parser of raw packets as well. -/
def TunTap.parseByDlt (data : List UInt8) (dlt : ℤ) : Option LinkPayload :=
  if dlt = 0 then parseTun data
  else if dlt = 1 then parseTap data
  else if dlt = 12 ∨ dlt = 101 then parseTun data
  else if dlt = 228 then RawIp.parseIpv4 data
  else if dlt = 229 then RawIp.parseIpv6 data
  else none

namespace PacketParser

/-- The choice of `parse_packet`: the parser by the type of the link, which is Ethernet when it is
not known or not one of those that are handled. -/
def linkPayload? (parser : PacketParser) (data : List UInt8) : Option LinkPayload :=
  match parser.linktype with
  | some linktype =>
    if linktype = 113 then LinuxSll.parseSll data
    else if linktype = 276 then LinuxSll.parseSll2 data
    else if linktype ∈ [0, 1, 12, 101, 228, 229] then TunTap.parseByDlt data linktype
    -- an unknown link type is read as Ethernet
    else Ethernet.parse data
  | none => Ethernet.parse data

section Parse

variable [DeepPacketInspection]

/-- The call the chosen parser gets. -/
def parseLinkPayload (parser : PacketParser) (data : List UInt8) (payload : LinkPayload)
    (processName : Option String) (processId : Option UInt32) : Option ParsedPacket :=
  match payload with
  | .framed .v4 offset => parser.parseIpv4PacketInner data offset processName processId
  | .framed .v6 offset => parser.parseIpv6PacketInner data offset processName processId
  | .raw .v4 start => parser.parseRawIpv4Packet (data.drop start) processName processId
  | .raw .v6 start => parser.parseRawIpv6Packet (data.drop start) processName processId
  | .arp headerLen => parser.parseArpPacketWithOffset data headerLen processName processId

/-- `parse_packet`: what the frame carries is found by its link layer and parsed there, without a
process, which only PKTAP would know. -/
def parsePacket (parser : PacketParser) (data : List UInt8) : Option ParsedPacket :=
  (parser.linkPayload? data).bind fun payload => parser.parseLinkPayload data payload none none

end Parse

end PacketParser

/-! ## Bytes after the frame -/

/-- A choice made on a frame stays when bytes follow, and the payload starts inside the frame. -/
def LinkPayload.Stable (choice : List UInt8 → Option LinkPayload) : Prop :=
  ∀ data pad payload, choice data = some payload →
    choice (data ++ pad) = some payload ∧ payload.start ≤ data.length

section Append

variable {data pad : List UInt8}

theorem LinkPayload.start_of_ofEthertype {ip : IpVersion → ℕ → LinkPayload}
    (hip : ∀ version start, (ip version start).start = start) {ethertype : UInt16} {start : ℕ}
    {payload : LinkPayload} (h : ofEthertype ip ethertype start = some payload) :
    payload.start = start := by
  unfold ofEthertype at h
  split at h
  · rw [← Option.some.inj h, hip]
  · rw [← Option.some.inj h, hip]
  · rw [← Option.some.inj h]
    rfl
  · exact absurd h (by simp)

/-- A length check passed by a frame is passed with bytes behind it. -/
theorem not_length_append_lt {n : ℕ} (h : ¬ data.length < n) : ¬ (data ++ pad).length < n := by
  rw [List.length_append]
  omega

theorem Ethernet.extractEthertype_append (h : 14 ≤ data.length) (h' : 14 ≤ (data ++ pad).length)
    {ethertype : UInt16} {offset : ℕ}
    (hdata : extractEthertype data h = some (ethertype, offset)) :
    extractEthertype (data ++ pad) h' = some (ethertype, offset) ∧ offset ≤ data.length := by
  unfold extractEthertype at hdata ⊢
  dsimp only at hdata ⊢
  simp (disch := omega) only [List.getElem_append_left]
  split_ifs at hdata with htag htagged
  · obtain ⟨rfl, rfl⟩ := Prod.mk.inj (Option.some.inj hdata)
    rw [if_pos htag, dif_neg (not_length_append_lt htagged)]
    simp (disch := omega) only [List.getElem_append_left]
    exact ⟨trivial, by omega⟩
  · obtain ⟨rfl, rfl⟩ := Prod.mk.inj (Option.some.inj hdata)
    rw [if_neg htag]
    exact ⟨rfl, h⟩

theorem Ethernet.parse_stable : LinkPayload.Stable Ethernet.parse := by
  intro data pad payload h
  unfold Ethernet.parse at h ⊢
  split_ifs at h with hlen
  obtain ⟨⟨ethertype, offset⟩, hextract, hchoice⟩ := Option.bind_eq_some_iff.mp h
  have hlen' : 14 ≤ (data ++ pad).length := not_lt.mp (not_length_append_lt hlen)
  obtain ⟨happend, hoffset⟩ := Ethernet.extractEthertype_append _ hlen' hextract
  rw [dif_neg (not_length_append_lt hlen), happend]
  exact ⟨hchoice, (LinkPayload.start_of_ofEthertype (fun _ _ => rfl) hchoice).trans_le hoffset⟩

theorem LinuxSll.parseWith_stable (headerLen protocolAt : ℕ) (hAt : protocolAt + 2 ≤ headerLen) :
    LinkPayload.Stable (LinuxSll.parseWith headerLen protocolAt hAt) := by
  intro data pad payload h
  unfold LinuxSll.parseWith at h ⊢
  dsimp only at h ⊢
  split_ifs at h with hlen htag htagged
  · rw [dif_neg (not_length_append_lt hlen)]
    simp (disch := omega) only [List.getElem_append_left]
    rw [if_pos htag, dif_neg (not_length_append_lt htagged)]
    exact ⟨h, (LinkPayload.start_of_ofEthertype (fun _ _ => rfl) h).trans_le (not_lt.mp htagged)⟩
  · rw [dif_neg (not_length_append_lt hlen)]
    simp (disch := omega) only [List.getElem_append_left]
    rw [if_neg htag]
    exact ⟨h, (LinkPayload.start_of_ofEthertype (fun _ _ => rfl) h).trans_le (not_lt.mp hlen)⟩

theorem RawIp.parse_stable : LinkPayload.Stable RawIp.parse := by
  intro data pad payload h
  rcases data with _ | ⟨first, rest⟩
  · exact absurd h (by simp [RawIp.parse])
  · refine ⟨h, ?_⟩
    simp only [RawIp.parse] at h
    split_ifs at h <;> obtain rfl := Option.some.inj h <;> exact Nat.zero_le _

theorem RawIp.parseVersion_stable (number : UInt8) (minLen : ℕ) (version : IpVersion) :
    LinkPayload.Stable (RawIp.parseVersion number minLen version) := by
  intro data pad payload h
  unfold RawIp.parseVersion at h ⊢
  by_cases hlen : data.length = 0 ∨ data.length < minLen
  · rw [dif_pos hlen] at h
    exact absurd h (by simp)
  -- what is appended makes no frame too short, and the first byte stays
  · have hlen' : ¬ ((data ++ pad).length = 0 ∨ (data ++ pad).length < minLen) := by
      rw [List.length_append]
      omega
    rw [dif_neg hlen] at h
    rw [dif_neg hlen']
    simp (disch := omega) only [List.getElem_append_left]
    split_ifs at h with hversion
    rw [if_neg hversion]
    obtain rfl := Option.some.inj h
    exact ⟨rfl, Nat.zero_le _⟩

theorem TunTap.parseByDlt_stable (dlt : ℤ) :
    LinkPayload.Stable fun data => TunTap.parseByDlt data dlt := by
  intro data pad payload h
  dsimp only [TunTap.parseByDlt] at h ⊢
  split_ifs at h ⊢
  · exact RawIp.parse_stable data pad payload h
  · exact Ethernet.parse_stable data pad payload h
  · exact RawIp.parse_stable data pad payload h
  · exact RawIp.parseVersion_stable _ _ _ data pad payload h
  · exact RawIp.parseVersion_stable _ _ _ data pad payload h

/-- Bytes after the frame do not change the choice of `parse_packet`. -/
theorem PacketParser.linkPayload?_stable (parser : PacketParser) :
    LinkPayload.Stable parser.linkPayload? := by
  intro data pad payload h
  unfold PacketParser.linkPayload? at h ⊢
  split at h
  · split_ifs at h ⊢
    · exact LinuxSll.parseWith_stable _ _ _ data pad payload h
    · exact LinuxSll.parseWith_stable _ _ _ data pad payload h
    · exact TunTap.parseByDlt_stable _ data pad payload h
    · exact Ethernet.parse_stable data pad payload h
  · exact Ethernet.parse_stable data pad payload h

end Append

/-! ## The IP packet of a frame -/

/-- An IP packet as its parser gets it. -/
structure IpPayload where
  version : IpVersion
  /-- The link-layer bytes that count into the packet length. -/
  linkLen : ℕ
  /-- The packet, with whatever follows it in the frame. -/
  ipData : List UInt8

namespace PacketParser

/-- The IP packet of a frame that carries one. -/
def ipPayload? (parser : PacketParser) (data : List UInt8) : Option IpPayload :=
  (parser.linkPayload? data).bind fun
    | .framed version offset => some ⟨version, offset, data.drop offset⟩
    | .raw version start => some ⟨version, 0, data.drop start⟩
    | .arp _ => none

/-- Bytes after a frame follow its IP packet. -/
theorem ipPayload?_append {parser : PacketParser} {data pad : List UInt8} {ip : IpPayload}
    (h : parser.ipPayload? data = some ip) :
    parser.ipPayload? (data ++ pad) = some { ip with ipData := ip.ipData ++ pad } := by
  obtain ⟨payload, hpayload, hip⟩ := Option.bind_eq_some_iff.mp h
  obtain ⟨happend, hstart⟩ := parser.linkPayload?_stable data pad payload hpayload
  have hdrop : (data ++ pad).drop payload.start = data.drop payload.start ++ pad :=
    List.drop_append_of_le_length hstart
  rw [ipPayload?, happend]
  rcases payload with ⟨version, offset⟩ | ⟨version, start⟩ | headerLen
  · obtain rfl := Option.some.inj hip
    exact congrArg (fun ipData => some (IpPayload.mk version offset ipData)) hdrop
  · obtain rfl := Option.some.inj hip
    exact congrArg (fun ipData => some (IpPayload.mk version 0 ipData)) hdrop
  · exact absurd hip (by simp)

/-- A frame with an IP packet parses as that packet does. -/
theorem parsePacket_of_ipPayload [DeepPacketInspection] {parser : PacketParser}
    {data : List UInt8} {ip : IpPayload} (h : parser.ipPayload? data = some ip) :
    parser.parsePacket data = parser.parseIp ip.version ip.linkLen ip.ipData none none := by
  obtain ⟨payload, hpayload, hip⟩ := Option.bind_eq_some_iff.mp h
  rw [parsePacket, hpayload, Option.bind_some]
  -- in either version, framed or raw, it is the same call
  rcases payload with ⟨_ | _, offset⟩ | ⟨_ | _, start⟩ | headerLen
  · obtain rfl := Option.some.inj hip
    rfl
  · obtain rfl := Option.some.inj hip
    rfl
  · obtain rfl := Option.some.inj hip
    rfl
  · obtain rfl := Option.some.inj hip
    rfl
  · exact absurd hip (by simp)

end PacketParser

end RustNet
