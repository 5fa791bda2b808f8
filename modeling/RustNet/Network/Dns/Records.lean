import RustNet.Network.Dns.Names
import RustNet.Network.Types.Octets

/-!
# DNS messages

`analyze_dns`, and its variants for mDNS and LLMNR: the header, the questions, and the addresses of
the A and AAAA records. The record loops stop at a fixed number of records; the header's counts, the
lengths and the pointers are those that the sender chose.

## Main definitions

* `Dns.walkAAaaaRecords`, `Dns.skipRecords`: the record loops;
* `Dns.analyzeDns`, `Dns.analyzeMdns`, `Dns.analyzeLlmnr`.

## Main results

* `Dns.walkAAaaaRecords_ensures`: a record loop stays in the message and collects at most sixteen
  addresses, with those that were there before;
* `Dns.analyze_safe`: no message makes the analysis fail or a loop go on.
-/

namespace RustNet

namespace Dns

open Checked

/-- `MAX_ANSWERS_TO_PARSE`: as many records of a section are looked at. -/
def maxAnswersToParse : ℕ := 64

/-- `MAX_RESPONSE_IPS_PER_PACKET`: as many addresses are collected. -/
def maxResponseIpsPerPacket : ℕ := 16

/-! ## Records -/

/-- The length of a record's data, and where the record ends, read behind its name: what
`walk_a_aaaa_records` and `skip_records` check in the same way. -/
def recordAt (payload : List UInt8) (afterName : ℕ) : Checked (Option (ℕ × ℕ)) := do
  let some rdataStart := checkedAdd afterName 10 | return none
  if payload.length < rdataStart then return none
  let rdlength ← be16At payload (afterName + 8)
  let some rdataEnd := checkedAdd rdataStart rdlength.toNat | return none
  if payload.length < rdataEnd then return none
  return some (rdlength.toNat, rdataEnd)

/-- The match on `(atype, rdlength)`: the address of an A or AAAA record. -/
def recordAddress (payload : List UInt8) (atype : UInt16) (rdlength rdataStart rdataEnd : ℕ) :
    Checked (Option IpAddr) :=
  if atype = 1 ∧ rdlength = 4 then do
    let octets ← slice payload rdataStart rdataEnd
    return some (.v4 (.fromOctets octets))
  else if atype = 28 ∧ rdlength = 16 then do
    let octets ← slice payload rdataStart rdataEnd
    return some (.v6 (.fromOctets octets))
  -- CNAME, NS and all others
  else return none

/-- The loop of `walk_a_aaaa_records`, for the records that are left. -/
def recordsLoop (payload : List UInt8) : ℕ → ℕ → List IpAddr → Checked (ℕ × List IpAddr)
  | 0, offset, ips => return (offset, ips)
  | records + 1, offset, ips => do
    let some afterName ← skipDnsName payload offset | return (offset, ips)
    let some (rdlength, rdataEnd) ← recordAt payload afterName | return (offset, ips)
    let atype ← be16At payload afterName
    if ips.length < maxResponseIpsPerPacket then do
      let address ← recordAddress payload atype rdlength (afterName + 10) rdataEnd
      recordsLoop payload records rdataEnd (ips ++ address.toList)
    else recordsLoop payload records rdataEnd ips

/-- `walk_a_aaaa_records`: the addresses of a section go behind those collected before. -/
def walkAAaaaRecords (payload : List UInt8) (start count : ℕ) (ips : List IpAddr) :
    Checked (ℕ × List IpAddr) :=
  recordsLoop payload (min count maxAnswersToParse) start ips

/-- The loop of `skip_records`: one record after the other, none where one does not fit. -/
def skipRecordsLoop (payload : List UInt8) : ℕ → ℕ → Checked (Option ℕ)
  | 0, offset => return some offset
  | records + 1, offset => do
    let some afterName ← skipDnsName payload offset | return none
    let some (_, rdataEnd) ← recordAt payload afterName | return none
    skipRecordsLoop payload records rdataEnd

/-- `skip_records`: where a section ends, without collecting anything. -/
def skipRecords (payload : List UInt8) (start : ℕ) (count : UInt16) : Checked (Option ℕ) :=
  skipRecordsLoop payload (min count.toNat maxAnswersToParse) start

/-! ## Messages -/

/-- `DnsHeaderCounts`: the direction of a message, and its counts but that of the authorities. -/
structure DnsHeaderCounts where
  isResponse : Bool
  qdcount : UInt16
  ancount : UInt16
  arcount : UInt16

/-- `dns_header_counts`: none where the header is cut off. -/
def dnsHeaderCounts (payload : List UInt8) : Checked (Option DnsHeaderCounts) := do
  if payload.length < 12 then return none
  let flags ← be16At payload 2
  let qdcount ← be16At payload 4
  let ancount ← be16At payload 6
  let arcount ← be16At payload 10
  return some ⟨flags &&& 0x8000 != 0, qdcount, ancount, arcount⟩

/-- `header_nscount`: the count of the authorities, zero where the header is cut off. -/
def headerNscount (payload : List UInt8) : Checked UInt16 :=
  if payload.length < 12 then return 0 else be16At payload 8

/-- `analyze_dns`: the questions of any message, and of a response the addresses of its answers. -/
def analyzeDns (payload : List UInt8) : Checked (Option DnsInfo) := do
  let some header ← dnsHeaderCounts payload | return none
  let parsed ← parseQuestionsStartingAtHeader payload header.qdcount
  let (_, responseIps) ←
    if header.isResponse then walkAAaaaRecords payload parsed.offset header.ancount.toNat []
    else pure (parsed.offset, [])
  return some ⟨parsed.queryName, parsed.queryType, responseIps, header.isResponse⟩

/-- The addresses of the answers and, behind the authority section, of the additional records. -/
def mdnsResponseIps (payload : List UInt8) (header : DnsHeaderCounts) (start : ℕ) :
    Checked (List IpAddr) := do
  let (offset, ips) ← walkAAaaaRecords payload start header.ancount.toNat []
  let nscount ← headerNscount payload
  let some afterAuthority ← skipRecords payload offset nscount | return ips
  let (_, ips) ← walkAAaaaRecords payload afterAuthority header.arcount.toNat ips
  return ips

/-- `analyze_dns_for_mdns`: the same, but a response has its addresses in the answers and the
additional records. -/
def analyzeDnsForMdns (payload : List UInt8) : Checked (Option DnsInfo) := do
  let some header ← dnsHeaderCounts payload | return none
  let parsed ← parseQuestionsStartingAtHeader payload header.qdcount
  let responseIps ←
    if header.isResponse then mdnsResponseIps payload header parsed.offset else pure []
  return some ⟨parsed.queryName, parsed.queryType, responseIps, header.isResponse⟩

/-- `analyze_mdns`: the analysis for mDNS under its own record. -/
def analyzeMdns (payload : List UInt8) : Checked (Option MdnsInfo) := do
  let some info ← analyzeDnsForMdns payload | return none
  return some ⟨info.queryName, info.queryType, info.isResponse, info.responseIps⟩

/-- `analyze_llmnr`: the analysis of DNS under its own record. -/
def analyzeLlmnr (payload : List UInt8) : Checked (Option LlmnrInfo) := do
  let some info ← analyzeDns payload | return none
  return some ⟨info.queryName, info.queryType, info.isResponse, info.responseIps⟩

/-! ## Safety -/

section Safety

variable {payload : List UInt8} {offset : ℕ} {ips : List IpAddr}

theorem recordAt_ensures (hlen : payload.length < 2 ^ 63) {afterName : ℕ}
    (hname : afterName ≤ payload.length) :
    Ensures (recordAt payload afterName) fun record? => ∀ record, record? = some record →
      afterName + 10 + record.1 = record.2 ∧ record.2 ≤ payload.length := by
  rw [recordAt, checkedAdd_eq (by omega)]
  refine Ensures.ite (fun _ => ensures_none) fun _ => ?_
  refine (be16At_ensures (by omega)).bind fun rdlength _ => ?_
  have hdata := rdlength.toNat_lt
  rw [checkedAdd_eq (by omega)]
  exact Ensures.ite (fun _ => ensures_none) fun hfits => ensures_some ⟨rfl, Nat.not_lt.mp hfits⟩

theorem recordAddress_ensures {atype : UInt16} {rdlength rdataStart rdataEnd : ℕ}
    (hstart : rdataStart ≤ rdataEnd) (hend : rdataEnd ≤ payload.length) :
    Ensures (recordAddress payload atype rdlength rdataStart rdataEnd) fun _ => True := by
  refine Ensures.ite (fun _ => ?_) fun _ => Ensures.ite (fun _ => ?_) fun _ => ensures_pure trivial
  · exact (ensures_slice hstart hend).bind fun _ _ => ensures_pure trivial
  · exact (ensures_slice hstart hend).bind fun _ _ => ensures_pure trivial

theorem recordsLoop_ensures (hlen : payload.length < 2 ^ 63) {records : ℕ}
    (hips : ips.length ≤ maxResponseIpsPerPacket) :
    Ensures (recordsLoop payload records offset ips) fun walked =>
      walked.2.length ≤ maxResponseIpsPerPacket := by
  induction records generalizing offset ips with
  | zero => exact ensures_pure hips
  | succ records ih =>
    rw [recordsLoop]
    refine (skipDnsName_ensures hlen offset).bindOption (fun afterName hname => ?_)
      (ensures_pure hips)
    refine (recordAt_ensures hlen hname.2).bindOption (fun record hrecord => ?_) (ensures_pure hips)
    refine (be16At_ensures (by omega)).bind fun atype _ => ?_
    refine Ensures.ite (fun hroom => ?_) fun _ => ih hips
    refine (recordAddress_ensures (by omega) hrecord.2).bind fun address _ => ih ?_
    -- a record has one address at most
    rw [List.length_append]
    exact (Nat.add_le_add_left Option.length_toList_le _).trans hroom

/-- A record loop stays in the message, and does not collect more than sixteen addresses. -/
theorem walkAAaaaRecords_ensures (hlen : payload.length < 2 ^ 63) (count : ℕ)
    (hips : ips.length ≤ maxResponseIpsPerPacket) :
    Ensures (walkAAaaaRecords payload offset count ips) fun walked =>
      walked.2.length ≤ maxResponseIpsPerPacket :=
  recordsLoop_ensures hlen hips

theorem skipRecordsLoop_ensures (hlen : payload.length < 2 ^ 63) {records : ℕ} :
    Ensures (skipRecordsLoop payload records offset) fun _ => True := by
  induction records generalizing offset with
  | zero => exact ensures_pure trivial
  | succ records ih =>
    rw [skipRecordsLoop]
    refine (skipDnsName_ensures hlen offset).bindOption (fun afterName hname => ?_)
      (ensures_pure trivial)
    exact (recordAt_ensures hlen hname.2).bindOption (fun record _ => ih) (ensures_pure trivial)

theorem dnsHeaderCounts_ensures (payload : List UInt8) :
    Ensures (dnsHeaderCounts payload) fun header? => ∀ header, header? = some header →
      12 ≤ payload.length := by
  refine Ensures.ite (fun _ => ensures_none) fun hshort => ?_
  refine (be16At_ensures (by omega)).bind fun flags _ => ?_
  refine (be16At_ensures (by omega)).bind fun qdcount _ => ?_
  refine (be16At_ensures (by omega)).bind fun ancount _ => ?_
  exact (be16At_ensures (by omega)).bind fun arcount _ => ensures_some (Nat.not_lt.mp hshort)

theorem analyzeDns_ensures (hlen : payload.length < 2 ^ 63) :
    Ensures (analyzeDns payload) fun info? => ∀ info, info? = some info →
      info.responseIps.length ≤ maxResponseIpsPerPacket := by
  refine (dnsHeaderCounts_ensures payload).bindOption (fun header hheader => ?_) ensures_none
  refine (parseQuestionsStartingAtHeader_ensures hlen hheader _).bind fun parsed _ => ?_
  refine Ensures.ite (fun _ => ?_) fun _ => ensures_some (Nat.zero_le _)
  exact (walkAAaaaRecords_ensures hlen _ (Nat.zero_le _)).bind fun walked hwalked =>
    ensures_some hwalked

theorem mdnsResponseIps_ensures (hlen : payload.length < 2 ^ 63) (hheader : 12 ≤ payload.length)
    (header : DnsHeaderCounts) :
    Ensures (mdnsResponseIps payload header offset) fun ips =>
      ips.length ≤ maxResponseIpsPerPacket := by
  refine (walkAAaaaRecords_ensures hlen _ (Nat.zero_le _)).bind fun walked hwalked => ?_
  have hnscount : Ensures (headerNscount payload) fun _ => True :=
    Ensures.ite (fun _ => ensures_pure trivial) fun _ => be16At_ensures (by omega)
  refine hnscount.bind fun nscount _ => (skipRecordsLoop_ensures hlen).bind fun after? _ => ?_
  rcases after? with _ | afterAuthority
  · exact ensures_pure hwalked
  -- the additional records add to what the answers gave
  · exact (walkAAaaaRecords_ensures hlen _ hwalked).bind fun walked hwalked => ensures_pure hwalked

theorem analyzeDnsForMdns_ensures (hlen : payload.length < 2 ^ 63) :
    Ensures (analyzeDnsForMdns payload) fun info? => ∀ info, info? = some info →
      info.responseIps.length ≤ maxResponseIpsPerPacket := by
  refine (dnsHeaderCounts_ensures payload).bindOption (fun header hheader => ?_) ensures_none
  refine (parseQuestionsStartingAtHeader_ensures hlen hheader _).bind fun parsed _ => ?_
  refine Ensures.ite (fun _ => ?_) fun _ => ensures_some (Nat.zero_le _)
  exact (mdnsResponseIps_ensures hlen hheader header).bind fun ips hips => ensures_some hips

theorem analyzeMdns_ensures (hlen : payload.length < 2 ^ 63) :
    Ensures (analyzeMdns payload) fun info? => ∀ info, info? = some info →
      info.responseIps.length ≤ maxResponseIpsPerPacket :=
  (analyzeDnsForMdns_ensures hlen).bindOption (fun _ hinfo => ensures_some hinfo) ensures_none

/-- The loops of the analysis, each with the rounds that it is given: one more than the message has
bytes for those over names and questions, and sixty-four for those over records. -/
structure BoundedLoops (payload : List UInt8) : Prop where
  skip : ∀ start, Ensures (skipLoop payload 0 (payload.length + 1) start) fun _ => True
  labels : ∀ start ≤ payload.length,
    Ensures (labelsLoop payload (payload.length + 1) start "") fun _ => True
  questions : 12 ≤ payload.length → ∀ qdcount : UInt16,
    Ensures (questionsLoop payload qdcount.toNat (payload.length + 1) 0 ⟨none, none, 12⟩)
      fun _ => True
  records : ∀ start count ips, ips.length ≤ 16 → ∃ n ≤ 64,
    walkAAaaaRecords payload start count ips = recordsLoop payload n start ips ∧
      Ensures (recordsLoop payload n start ips) fun _ => True
  skipped : ∀ start count, ∃ n ≤ 64,
    skipRecords payload start count = skipRecordsLoop payload n start ∧
      Ensures (skipRecordsLoop payload n start) fun _ => True

theorem boundedLoops (hlen : payload.length < 2 ^ 63) : BoundedLoops payload where
  skip start := (skipDnsName_ensures hlen start).mono fun _ _ => trivial
  labels start hstart := (labelsLoop_ensures hlen hstart (by omega)).mono fun _ _ => trivial
  questions hheader qdcount :=
    (parseQuestionsStartingAtHeader_ensures hlen hheader qdcount).mono fun _ _ => trivial
  records start count ips hips := by
    refine ⟨min count maxAnswersToParse, Nat.min_le_right _ _, rfl, ?_⟩
    exact (recordsLoop_ensures hlen hips).mono fun _ _ => trivial
  skipped start count :=
    ⟨min count.toNat maxAnswersToParse, Nat.min_le_right _ _, rfl, skipRecordsLoop_ensures hlen⟩

/-- **No message harms the analysis.** Whatever its counts, lengths and pointers are, no access
leaves the message, every loop ends within its rounds, and over all sections no more than sixteen
addresses are collected. All that is asked of the message is a length that a slice can have
(`hlen`), so that no offset into it overflows. -/
theorem analyze_safe (payload : List UInt8) (hlen : payload.length < 2 ^ 63) :
    BoundedLoops payload ∧
      Ensures (analyzeDns payload) (fun info? => ∀ info, info? = some info →
        info.responseIps.length ≤ 16) ∧
      Ensures (analyzeMdns payload) fun info? => ∀ info, info? = some info →
        info.responseIps.length ≤ 16 :=
  ⟨boundedLoops hlen, analyzeDns_ensures hlen, analyzeMdns_ensures hlen⟩

end Safety

/-- A response with the largest counts and one question, whose name points at itself. -/
def loopingResponse : List UInt8 :=
  [0x00, 0x00, 0x80, 0x00, 0xff, 0xff, 0xff, 0xff, 0xff, 0xff, 0xff, 0xff, 0xc0, 0x0c, 0x00, 0x01]

/-- It is analysed, and has no addresses. -/
theorem analyze_safe_loopingResponse :
    loopingResponse.length < 2 ^ 63 ∧ BoundedLoops loopingResponse ∧
      Ensures (analyzeDns loopingResponse) (fun info? => ∀ info, info? = some info →
        info.responseIps.length ≤ 16) ∧
      Ensures (analyzeMdns loopingResponse) fun info? => ∀ info, info? = some info →
        info.responseIps.length ≤ 16 :=
  have hlen : loopingResponse.length < 2 ^ 63 := by decide
  ⟨hlen, analyze_safe loopingResponse hlen⟩

example : (analyzeDns loopingResponse).toOption.join.map DnsInfo.responseIps = some [] := by
  decide +kernel

end Dns

end RustNet
