import RustNet.Network.Parser.Indexed.Internet

/-!
# Link-layer parsing with every access written out

`Indexed.parsePacket` is `parse_packet` with every index and slice as a checked access, on all
systems: the PKTAP header that macOS puts in front of a frame is parsed here too, since its length
is a field of the frame.

## Main results

* `Indexed.parsePacket_ensures`: parsing a frame never reads outside it, and returns what
  `PacketParser.parsePacket` does.
-/

namespace RustNet.Indexed

open Checked

/-! ## Link layer -/

/-- The match on an EtherType, with the calls for IPv4, IPv6 and ARP. -/
def ofEthertype (ethertype : UInt16) (ipv4 ipv6 arp : Checked (Option ParsedPacket)) :
    Checked (Option ParsedPacket) :=
  match ethertype with
  | 0x0800 => ipv4
  | 0x86dd => ipv6
  | 0x0806 => arp
  | _ => return none

theorem ofEthertype_eq {ethertype : UInt16} {start : ℕ} {ip : IpVersion → ℕ → LinkPayload}
    {f : LinkPayload → Option ParsedPacket} {ipv4 ipv6 arp : Checked (Option ParsedPacket)}
    (hipv4 : ipv4 = pure (f (ip .v4 start))) (hipv6 : ipv6 = pure (f (ip .v6 start)))
    (harp : arp = pure (f (.arp start))) :
    ofEthertype ethertype ipv4 ipv6 arp =
      pure ((LinkPayload.ofEthertype ip ethertype start).bind f) := by
  unfold ofEthertype LinkPayload.ofEthertype
  split
  · exact hipv4
  · exact hipv6
  · exact harp
  · simp

/-- `extract_ethertype`, with each of its indices checked: the type of what the frame carries and
the length of the header, with one tag of a virtual network skipped. -/
def Ethernet.extractEthertype (data : List UInt8) : Checked (Option (UInt16 × ℕ)) := do
  let ethertype ← be16At data 12
  if ethertype = 0x8100 then
    if data.length < 18 then return none
    -- the tag's identifier is read for a log line
    let _vlanId ← be16At data 14
    let inner ← be16At data 16
    return some (inner, 18)
  else return some (ethertype, 14)

section LinkLayer

variable [DeepPacketInspection] (parser : PacketParser) (data : List UInt8)
  (processName : Option String) (processId : Option UInt32)

/-- The parsers of packets behind a header that counts into the packet length. -/
def framed (ethertype : UInt16) (offset : ℕ) : Checked (Option ParsedPacket) :=
  ofEthertype ethertype (parseIpv4PacketInner parser data offset processName processId)
    (parseIpv6PacketInner parser data offset processName processId)
    (parseArpPacketWithOffset parser data offset processName processId)

/-- The parsers of packets behind a header that does not count. -/
def cooked (ethertype : UInt16) (start : ℕ) : Checked (Option ParsedPacket) :=
  ofEthertype ethertype
    (do
      let ipData ← sliceFrom data start
      parseRawIpv4Packet parser ipData processName processId)
    (do
      let ipData ← sliceFrom data start
      parseRawIpv6Packet parser ipData processName processId)
    (parseArpPacketWithOffset parser data start processName processId)

/-- `ethernet::parse`, with each of its indices checked: the header is skipped and the packet is
parsed by the type it gives. -/
def Ethernet.parse : Checked (Option ParsedPacket) := do
  if data.length < 14 then return none
  match ← Ethernet.extractEthertype data with
  | none => return none
  | some found => framed parser data processName processId found.1 found.2

/-- What `parse_sll` and `parse_sll2` share. -/
def LinuxSll.parseWith (headerLen protocolAt : ℕ) : Checked (Option ParsedPacket) := do
  if data.length < headerLen then return none
  let protocol ← be16At data protocolAt
  if protocol = 0x8100 then
    if data.length < headerLen + 4 then return none
    let innerProto ← be16At data (headerLen + 2)
    cooked parser data processName processId innerProto (headerLen + 4)
  else cooked parser data processName processId protocol headerLen

/-- `parse_sll`: Linux's cooked capture, where the type of the protocol stands at 14 in a header of
16 bytes. -/
def LinuxSll.parseSll : Checked (Option ParsedPacket) :=
  LinuxSll.parseWith parser data processName processId 16 14

/-- `parse_sll2`: the second version of the cooked capture, where the type of the protocol stands in
front of a header of 20 bytes. -/
def LinuxSll.parseSll2 : Checked (Option ParsedPacket) :=
  LinuxSll.parseWith parser data processName processId 20 0

/-- `raw_ip::parse`: the version in the first four bits says which of the two parsers the frame goes
to. -/
def RawIp.parse : Checked (Option ParsedPacket) := do
  if data.isEmpty then return none
  let first ← index data 0
  let version := first >>> 4
  if version = 4 then parseRawIpv4Packet parser data processName processId
  else if version = 6 then parseRawIpv6Packet parser data processName processId
  else return none

/-- `raw_ip::parse_ipv4`: a frame that is as long as a header at least and is of version 4. -/
def RawIp.parseIpv4 : Checked (Option ParsedPacket) := do
  if data.isEmpty || decide (data.length < 20) then return none
  let first ← index data 0
  if first >>> 4 ≠ 4 then return none
  parseRawIpv4Packet parser data processName processId

/-- `raw_ip::parse_ipv6`: a frame that is as long as a header at least and is of version 6. -/
def RawIp.parseIpv6 : Checked (Option ParsedPacket) := do
  if data.isEmpty || decide (data.length < 40) then return none
  let first ← index data 0
  if first >>> 4 ≠ 6 then return none
  parseRawIpv6Packet parser data processName processId

/-- `tun_tap::parse_tun`: the interface carries packets without a link layer, so that the whole
frame is read as one. -/
def TunTap.parseTun : Checked (Option ParsedPacket) :=
  RawIp.parse parser data processName processId

/-- `tun_tap::parse_tap`: the interface carries frames of Ethernet. -/
def TunTap.parseTap : Checked (Option ParsedPacket) :=
  Ethernet.parse parser data processName processId

/-- `tun_tap::parse_by_dlt`: the parser by the type of the link. That of the loopback goes to the
parser of raw packets as well. -/
def TunTap.parseByDlt (dlt : ℤ) : Checked (Option ParsedPacket) :=
  if dlt = 0 then TunTap.parseTun parser data processName processId
  else if dlt = 1 then TunTap.parseTap parser data processName processId
  else if dlt = 12 ∨ dlt = 101 then TunTap.parseTun parser data processName processId
  else if dlt = 228 then RawIp.parseIpv4 parser data processName processId
  else if dlt = 229 then RawIp.parseIpv6 parser data processName processId
  else return none

variable {parser data processName processId}

theorem framed_eq {ethertype : UInt16} {offset : ℕ} (h : offset ≤ data.length) :
    framed parser data processName processId ethertype offset =
      pure ((LinkPayload.ofEthertype .framed ethertype offset).bind fun payload =>
        parser.parseLinkPayload data payload processName processId) :=
  ofEthertype_eq (parseIpv4PacketInner_eq h) (parseIpv6PacketInner_eq h)
    (parseArpPacketWithOffset_eq h)

theorem cooked_eq {ethertype : UInt16} {start : ℕ} (h : start ≤ data.length) :
    cooked parser data processName processId ethertype start =
      pure ((LinkPayload.ofEthertype .raw ethertype start).bind fun payload =>
        parser.parseLinkPayload data payload processName processId) := by
  refine ofEthertype_eq ?_ ?_ (parseArpPacketWithOffset_eq h)
  · rw [sliceFrom_eq h, pure_bind', parseRawIpv4Packet, parseIpv4_eq]
    rfl
  · rw [sliceFrom_eq h, pure_bind', parseRawIpv6Packet, parseIpv6_eq]
    rfl

omit [DeepPacketInspection] in
/-- The offset that is found lies inside the frame. -/
theorem Ethernet.extractEthertype_eq (h : 14 ≤ data.length) :
    Ethernet.extractEthertype data = pure (RustNet.Ethernet.extractEthertype data h) ∧
      ∀ found ∈ RustNet.Ethernet.extractEthertype data h, found.2 ≤ data.length := by
  unfold Ethernet.extractEthertype RustNet.Ethernet.extractEthertype
  rw [be16At_eq (by omega), pure_bind']
  -- a tag needs four bytes more
  by_cases htag : be16 data[12] data[13] = 0x8100
  · simp only [htag, if_true]
    by_cases hlen : data.length < 18
    · rw [if_pos hlen, dif_pos hlen]
      exact ⟨rfl, by simp⟩
    · rw [if_neg hlen, dif_neg hlen, be16At_eq (by omega), pure_bind', be16At_eq (by omega),
        pure_bind']
      refine ⟨rfl, ?_⟩
      rintro found ⟨⟩
      exact not_lt.mp hlen
  · simp only [if_neg htag]
    refine ⟨trivial, ?_⟩
    rintro found ⟨⟩
    exact h

theorem Ethernet.parse_eq :
    Ethernet.parse parser data processName processId =
      pure ((RustNet.Ethernet.parse data).bind fun payload =>
        parser.parseLinkPayload data payload processName processId) := by
  unfold Ethernet.parse RustNet.Ethernet.parse
  by_cases hlen : data.length < 14
  · rw [if_pos hlen, dif_pos hlen]
    rfl
  · obtain ⟨hextract, hoffset⟩ := Ethernet.extractEthertype_eq (not_lt.mp hlen)
    rw [if_neg hlen, dif_neg hlen, hextract, pure_bind']
    rcases hfound : RustNet.Ethernet.extractEthertype data (not_lt.mp hlen) with _ | found
    · rfl
    · exact framed_eq (hoffset found hfound)

theorem LinuxSll.parseWith_eq {headerLen protocolAt : ℕ} (hAt : protocolAt + 2 ≤ headerLen) :
    LinuxSll.parseWith parser data processName processId headerLen protocolAt =
      pure ((RustNet.LinuxSll.parseWith headerLen protocolAt hAt data).bind fun payload =>
        parser.parseLinkPayload data payload processName processId) := by
  unfold LinuxSll.parseWith RustNet.LinuxSll.parseWith
  by_cases hlen : data.length < headerLen
  · rw [if_pos hlen, dif_pos hlen]
    rfl
  · rw [if_neg hlen, dif_neg hlen, be16At_eq (by omega), pure_bind']
    -- a VLAN tag takes four bytes more, which the code asks for again
    by_cases htag : be16 data[protocolAt] data[protocolAt + 1] = 0x8100
    · simp only [htag, if_true]
      by_cases htagged : data.length < headerLen + 4
      · rw [if_pos htagged, dif_pos htagged]
        rfl
      · rw [if_neg htagged, dif_neg htagged, be16At_eq (by omega), pure_bind']
        exact cooked_eq (not_lt.mp htagged)
    · simp only [htag, if_false]
      exact cooked_eq (not_lt.mp hlen)

theorem RawIp.parse_eq :
    RawIp.parse parser data processName processId =
      pure ((RustNet.RawIp.parse data).bind fun payload =>
        parser.parseLinkPayload data payload processName processId) := by
  rcases data with _ | ⟨first, rest⟩
  · rfl
  · have hindex : index (first :: rest) 0 = pure first := rfl
    simp only [RawIp.parse, List.isEmpty_cons, Bool.false_eq_true, if_false, hindex, pure_bind',
      parseRawIpv4Packet, parseRawIpv6Packet, parseIpv4_eq, parseIpv6_eq, RustNet.RawIp.parse]
    split_ifs <;> rfl

theorem RawIp.parseIpv4_eq :
    RawIp.parseIpv4 parser data processName processId =
      pure ((RustNet.RawIp.parseIpv4 data).bind fun payload =>
        parser.parseLinkPayload data payload processName processId) := by
  unfold RawIp.parseIpv4 RustNet.RawIp.parseIpv4 RustNet.RawIp.parseVersion
  by_cases hlen : data.length = 0 ∨ data.length < 20
  · rw [if_pos (by simpa using hlen), dif_pos hlen]
    rfl
  · rw [if_neg (by simpa using hlen), dif_neg hlen, index_eq (by omega), pure_bind',
      parseRawIpv4Packet, Indexed.parseIpv4_eq]
    split_ifs <;> rfl

theorem RawIp.parseIpv6_eq :
    RawIp.parseIpv6 parser data processName processId =
      pure ((RustNet.RawIp.parseIpv6 data).bind fun payload =>
        parser.parseLinkPayload data payload processName processId) := by
  unfold RawIp.parseIpv6 RustNet.RawIp.parseIpv6 RustNet.RawIp.parseVersion
  by_cases hlen : data.length = 0 ∨ data.length < 40
  · rw [if_pos (by simpa using hlen), dif_pos hlen]
    rfl
  · rw [if_neg (by simpa using hlen), dif_neg hlen, index_eq (by omega), pure_bind',
      parseRawIpv6Packet, Indexed.parseIpv6_eq]
    split_ifs <;> rfl

theorem TunTap.parseByDlt_eq (dlt : ℤ) :
    TunTap.parseByDlt parser data processName processId dlt =
      pure ((RustNet.TunTap.parseByDlt data dlt).bind fun payload =>
        parser.parseLinkPayload data payload processName processId) := by
  unfold TunTap.parseByDlt RustNet.TunTap.parseByDlt
  split_ifs
  · exact RawIp.parse_eq
  · exact Ethernet.parse_eq
  · exact RawIp.parse_eq
  · exact RawIp.parseIpv4_eq
  · exact RawIp.parseIpv6_eq
  · rfl

end LinkLayer

/-! ## PKTAP -/

/-- The fields of `PktapHeader` that parsing uses. -/
structure PktapHeader where
  length : UInt32
  dlt : UInt32
  epid : UInt32
  /-- `pth_comm`. -/
  comm : List UInt8
  pid : UInt32
  /-- `pth_e_comm`. -/
  effectiveComm : List UInt8

/-- `char::is_whitespace`: the characters that Unicode counts as white space. -/
def isWhitespace (c : Char) : Bool :=
  let n := c.toNat
  (9 ≤ n && n ≤ 13) || n == 0x20 || n == 0x85 || n == 0xa0 || n == 0x1680 ||
    (0x2000 ≤ n && n ≤ 0x200a) || n == 0x2028 || n == 0x2029 || n == 0x202f || n == 0x205f ||
    n == 0x3000

/-- `char::is_control`: the control characters of ASCII and of the block that follows it. -/
def isControl (c : Char) : Bool :=
  let n := c.toNat
  n ≤ 0x1f || (0x7f ≤ n && n ≤ 0x9f)

/-- The text with every run of whitespace and control characters as one space, and none at its
ends. -/
def normalizeSpace (raw : String) : String :=
  let spaced := raw.toList.map fun c => if isWhitespace c || isControl c then ' ' else c
  " ".intercalate (((spaced.splitOn ' ').filter (!·.isEmpty)).map String.ofList)

/-- `extract_process_name_from_bytes`: the bytes in front of the first zero, if they are UTF-8 and,
once their white space is made even, are a name that can be printed. -/
def extractProcessNameFromBytes (bytes : List UInt8) : Checked (Option String) := do
  let endPos := bytes.findIdx (· == 0)
  let content ← sliceTo bytes endPos
  match String.fromUTF8? ⟨content.toArray⟩ with
  | none => return none
  | some rawStr =>
    let normalized := normalizeSpace rawStr
    -- `is_ascii_graphic` or a space
    let plain := normalized.toList.all fun c => 0x20 ≤ c.toNat && c.toNat ≤ 0x7e
    return if normalized.isEmpty || !plain then none else some normalized

/-- A 32-bit number of the header, in the byte order of the only systems that have it. -/
def le32At (data : List UInt8) (i : ℕ) : Checked UInt32 := do
  let a ← index data i
  let b ← index data (i + 1)
  let c ← index data (i + 2)
  let d ← index data (i + 3)
  return be32 d c b a

namespace PktapHeader

/-- `PktapHeader::from_bytes`. The header is read as a whole, from its 112 bytes. -/
def fromBytes (data : List UInt8) : Checked (Option PktapHeader) := do
  if data.length < 112 then return none
  let length ← le32At data 0
  if length < 108 || decide (data.length < length.toNat) then return none
  let dlt ← le32At data 8
  -- the effective process first, then the one behind it
  let epid ← le32At data 52
  let comm ← slice data 56 76
  let pid ← le32At data 88
  let effectiveComm ← slice data 92 112
  return some
    { length := length
      dlt := dlt
      epid := epid
      comm := comm
      pid := pid
      effectiveComm := effectiveComm }

/-- `PktapHeader::get_process_info`: the name and the number of the process; those that the header
calls effective go first. -/
def getProcessInfo (header : PktapHeader) : Checked (Option String × Option UInt32) := do
  let processName ← extractProcessNameFromBytes header.comm
  let pid :=
    if header.epid ≠ 0 ∧ header.epid < 65535 then some header.epid
    else if header.pid ≠ 0 ∧ header.pid < 65535 then some header.pid
    else none
  match processName with
  | some name => return (some name, pid)
  | none =>
    let effectiveName ← extractProcessNameFromBytes header.effectiveComm
    return (effectiveName, pid)

/-- `PktapHeader::is_valid`: the lengths and link types that a header of macOS can have, so that
other data is not read as one. -/
def isValid (header : PktapHeader) : Bool :=
  decide (108 ≤ header.length ∧ header.length ≤ 4096 ∧ 0 < header.dlt ∧ header.dlt < 1000)

end PktapHeader

/-- `pktap::parse_pktap_packet`, with each of its indices checked: the header, and the packet behind
the length that the header gives. -/
def Pktap.parsePktapPacket (data : List UInt8) : Checked (Option (PktapHeader × List UInt8)) := do
  match ← PktapHeader.fromBytes data with
  | none => return none
  | some header =>
    if !header.isValid then return none
    let payloadOffset := header.length.toNat
    if data.length ≤ payloadOffset then return none
    let payload ← sliceFrom data payloadOffset
    return some (header, payload)

section Pktap

variable {data : List UInt8}

theorem ensures_le32At {i : ℕ} (h : i + 3 < data.length) :
    Ensures (le32At data i) fun _ => True := by
  refine (ensures_index (by omega)).bind fun a _ => ?_
  refine (ensures_index (by omega)).bind fun b _ => ?_
  refine (ensures_index (by omega)).bind fun c _ => ?_
  exact (ensures_index h).bind fun d _ => ensures_pure trivial

theorem extractProcessNameFromBytes_ensures (bytes : List UInt8) :
    Ensures (extractProcessNameFromBytes bytes) fun _ => True := by
  refine (ensures_sliceTo List.findIdx_le_length).bind fun content _ => ?_
  dsimp only
  split <;> exact ensures_pure trivial

/-- A header that is read announces no more than the frame has. -/
theorem PktapHeader.fromBytes_ensures (data : List UInt8) :
    Ensures (PktapHeader.fromBytes data) fun found =>
      ∀ header ∈ found, header.length.toNat ≤ data.length := by
  unfold PktapHeader.fromBytes
  refine Ensures.ite (fun _ => ensures_pure (by simp)) fun hlen => ?_
  refine (ensures_le32At (by omega)).bind fun length _ => ?_
  refine Ensures.ite (fun _ => ensures_pure (by simp)) fun hlength => ?_
  refine (ensures_le32At (by omega)).bind fun dlt _ => ?_
  refine (ensures_le32At (by omega)).bind fun epid _ => ?_
  refine (ensures_slice (by omega) (by omega)).bind fun comm _ => ?_
  refine (ensures_le32At (by omega)).bind fun pid _ => ?_
  refine (ensures_slice (by omega) (by omega)).bind fun effectiveComm _ => ensures_pure ?_
  rintro header ⟨⟩
  simp only [Bool.or_eq_true, decide_eq_true_eq, not_or, not_lt] at hlength
  exact hlength.2

theorem PktapHeader.getProcessInfo_ensures (header : PktapHeader) :
    Ensures header.getProcessInfo fun _ => True := by
  refine (extractProcessNameFromBytes_ensures header.comm).bind fun processName _ => ?_
  dsimp only
  split
  · exact ensures_pure trivial
  · exact (extractProcessNameFromBytes_ensures header.effectiveComm).bind fun _ _ =>
      ensures_pure trivial

theorem Pktap.parsePktapPacket_ensures (data : List UInt8) :
    Ensures (Pktap.parsePktapPacket data) fun _ => True := by
  refine (PktapHeader.fromBytes_ensures data).bind fun found hfound => ?_
  rcases found with _ | header
  · exact ensures_pure trivial
  · refine Ensures.ite (fun _ => ensures_pure trivial) fun _ => ?_
    refine Ensures.ite (fun _ => ensures_pure trivial) fun _ => ?_
    exact (ensures_sliceFrom (hfound header rfl)).bind fun _ _ => ensures_pure trivial

end Pktap

section Frame

variable [DeepPacketInspection] (parser : PacketParser)

/-- `PacketParser::parse_pktap_packet`. Its part for raw IP packets is that of `raw_ip::parse`. -/
def parsePktapPacket (data : List UInt8) : Checked (Option ParsedPacket) := do
  match ← Pktap.parsePktapPacket data with
  | none => return none
  | some (header, payload) =>
    let info ← header.getProcessInfo
    match header.dlt with
    | 1 => Ethernet.parse parser payload info.1 info.2
    | 12 => RawIp.parse parser payload info.1 info.2
    | _ => return none

/-- `parse_packet`; PKTAP is compiled in on macOS only. -/
def parsePacket (macos : Bool) (data : List UInt8) : Checked (Option ParsedPacket) :=
  match parser.linktype with
  | some linktype =>
    if macos ∧ (linktype = 149 ∨ linktype = 258) then parsePktapPacket parser data
    else if linktype = 113 then LinuxSll.parseSll parser data none none
    else if linktype = 276 then LinuxSll.parseSll2 parser data none none
    else if linktype ∈ [0, 1, 12, 101, 228, 229] then
      TunTap.parseByDlt parser data none none linktype
    else Ethernet.parse parser data none none
  | none => Ethernet.parse parser data none none

theorem parsePktapPacket_ensures (data : List UInt8) :
    Ensures (parsePktapPacket parser data) fun _ => True := by
  refine (Pktap.parsePktapPacket_ensures data).bind fun found _ => ?_
  rcases found with _ | ⟨header, payload⟩
  · exact ensures_pure trivial
  · refine header.getProcessInfo_ensures.bind fun info _ => ?_
    split
    · exact ⟨_, Ethernet.parse_eq, trivial⟩
    · exact ⟨_, RawIp.parse_eq, trivial⟩
    · exact ensures_pure trivial

/-- **Parsing never leaves the frame.** For every link type, every set of local addresses and every
byte string, each index and slice that `parse_packet` takes is in bounds, and on systems without
PKTAP its result is that of the parser that reads through bounds. Nothing is asked of the frame:
headers may be cut anywhere, and their lengths may say anything. -/
theorem parsePacket_ensures (macos : Bool) (data : List UInt8) :
    Ensures (parsePacket parser macos data) fun result =>
      macos = false → result = parser.parsePacket data := by
  -- outside macOS both parsers make the same choice
  have hplain {c : Checked (Option ParsedPacket)} {choice : Option LinkPayload}
      (hc : c = pure (choice.bind fun payload => parser.parseLinkPayload data payload none none))
      (hchoice : parser.linkPayload? data = choice) :
      Ensures c fun result => macos = false → result = parser.parsePacket data :=
    ⟨_, hc, fun _ => by rw [PacketParser.parsePacket, hchoice]⟩
  unfold parsePacket
  split
  · next linktype hlinktype =>
    have hchoice : parser.linkPayload? data =
        if linktype = 113 then RustNet.LinuxSll.parseSll data
        else if linktype = 276 then RustNet.LinuxSll.parseSll2 data
        else if linktype ∈ [0, 1, 12, 101, 228, 229] then RustNet.TunTap.parseByDlt data linktype
        else RustNet.Ethernet.parse data := by
      rw [PacketParser.linkPayload?, hlinktype]
    refine Ensures.ite (fun hmacos => ?_) fun _ => ?_
    · exact (parsePktapPacket_ensures parser data).mono fun _ _ hother =>
        absurd hmacos.1 (by simp [hother])
    · split_ifs at hchoice ⊢
      · exact hplain (LinuxSll.parseWith_eq (by decide)) hchoice
      · exact hplain (LinuxSll.parseWith_eq (by decide)) hchoice
      · exact hplain (TunTap.parseByDlt_eq linktype) hchoice
      · exact hplain (Ethernet.parse_eq) hchoice
  · next hlinktype =>
    exact hplain (Ethernet.parse_eq) (by rw [PacketParser.linkPayload?, hlinktype])

end Frame

end RustNet.Indexed
