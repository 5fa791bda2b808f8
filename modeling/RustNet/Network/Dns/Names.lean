import RustNet.Foundations.Checked
import RustNet.Network.Parser.Transport
import RustNet.Network.Tls.HostName

/-!
# Names and questions of a DNS message

The two walks over a name: `skip_dns_name`, which finds its end in the answer section, and
`parse_question`, which collects its labels. Every access is a checked one. The loops have one round
more than the message has bytes, and a loop that would need more stops with a fault.

## Main definitions

* `Dns.skipDnsName`, `Dns.parseQuestion`, `Dns.parseQuestionsStartingAtHeader`;
* `Dns.pushLabel`: how a label is added to the text of a name.

## Main results

* `Dns.skipDnsName_ensures`: a name that is skipped ends in the message, at most one byte behind it;
* `Dns.parseQuestionsStartingAtHeader_ensures`: the questions end after at most as many rounds as
  there are bytes, whatever the header counts.
-/

namespace RustNet

namespace Dns

open Checked

/-- `MAX_DNS_NAME_LEN`: a name is collected up to this many bytes. -/
def maxDnsNameLen : ℕ := 253

/-- `MAX_NAME_POINTER_HOPS`: more pointers are not followed. -/
def maxNamePointerHops : ℕ := 16

/-- `u16::from_be_bytes` of the bytes at `i`. -/
def be16At (payload : List UInt8) (i : ℕ) : Checked UInt16 := do
  let high ← index payload i
  let low ← index payload (i + 1)
  return be16 high low

/-- `usize::checked_add`: none where the sum does not fit. -/
def checkedAdd (a b : ℕ) : Option ℕ := if a + b < 2 ^ 64 then some (a + b) else none

/-- `usize::saturating_add`: the largest number where the sum does not fit. -/
def saturatingAdd (a b : ℕ) : ℕ := min (a + b) (2 ^ 64 - 1)

/-! ## Skipping a name -/

/-- The loop of `skip_dns_name`. A pointer ends the name, so that `hops` stays zero until then. -/
def skipLoop (payload : List UInt8) (hops : ℕ) : ℕ → ℕ → Checked (Option ℕ)
  | 0, _ => throw .endless
  | rounds + 1, offset => do
    if payload.length ≤ offset then return none
    let labelLen ← index payload offset
    if labelLen = 0 then do
      let stop ← add offset 1
      return some stop
    else if labelLen &&& 0xC0 = 0xC0 then do
      let second ← add offset 1
      if payload.length ≤ second then return none
      if maxNamePointerHops < hops + 1 then return none
      let stop ← add offset 2
      return some stop
    -- the two reserved patterns
    else if labelLen &&& 0xC0 ≠ 0 then return none
    else do
      let some next := checkedAdd offset (1 + labelLen.toNat) | return none
      if payload.length < next then return none
      skipLoop payload hops rounds next

/-- `skip_dns_name`: where a name ends, without collecting it. -/
def skipDnsName (payload : List UInt8) (start : ℕ) : Checked (Option ℕ) :=
  skipLoop payload 0 (payload.length + 1) start

/-! ## Questions -/

/-- A label is added behind a dot. One that is not UTF-8 adds the dot only. -/
def pushLabel (name : String) (label : List UInt8) : String :=
  (if name.isEmpty then name else name ++ ".") ++ (fromUtf8 label).getD ""

/-- The loop of `parse_question` over the labels: the name, and where the walk stops. -/
def labelsLoop (payload : List UInt8) : ℕ → ℕ → String → Checked (String × ℕ)
  | 0, _, _ => throw .endless
  | rounds + 1, offset, name => do
    if payload.length ≤ offset then return (name, offset)
    let labelLen ← index payload offset
    if labelLen = 0 then do
      let stop ← add offset 1
      return (name, stop)
    else if 0xC0 ≤ labelLen then do
      let stop ← add offset 2
      return (name, stop)
    else do
      let next ← add offset (1 + labelLen.toNat)
      if payload.length < next then return (name, offset)
      let label ← slice payload (offset + 1) next
      let name := pushLabel name label
      -- a name that is too long is left at its last label
      if maxDnsNameLen < name.utf8ByteSize then return (name, offset)
      labelsLoop payload rounds next name

/-- The match on `qtype`: a name for the common types, and the number of any other. -/
def queryTypeOf (qtype : UInt16) : DnsQueryType :=
  match qtype.toNat with
  | 1 => .A
  | 2 => .NS
  | 5 => .CNAME
  | 6 => .SOA
  | 12 => .PTR
  | 13 => .HINFO
  | 15 => .MX
  | 16 => .TXT
  | 17 => .RP
  | 18 => .AFSDB
  | 24 => .SIG
  | 25 => .KEY
  | 28 => .AAAA
  | 29 => .LOC
  | 33 => .SRV
  | 35 => .NAPTR
  | 36 => .KX
  | 37 => .CERT
  | 39 => .DNAME
  | 42 => .APL
  | 43 => .DS
  | 44 => .SSHFP
  | 45 => .IPSECKEY
  | 46 => .RRSIG
  | 47 => .NSEC
  | 48 => .DNSKEY
  | 49 => .DHCID
  | 50 => .NSEC3
  | 51 => .NSEC3PARAM
  | 52 => .TLSA
  | 53 => .SMIMEA
  | 55 => .HIP
  | 59 => .CDS
  | 60 => .CDNSKEY
  | 61 => .OPENPGPKEY
  | 62 => .CSYNC
  | 63 => .ZONEMD
  | 64 => .SVCB
  | 65 => .HTTPS
  | 108 => .EUI48
  | 109 => .EUI64
  | 249 => .TKEY
  | 250 => .TSIG
  | 256 => .URI
  | 257 => .CAA
  | 32768 => .TA
  | 32769 => .DLV
  | _ => .other qtype

/-- A question: its name and its type as far as they are there, and where the next one starts. -/
structure ParsedQuestion where
  queryName : Option String
  queryType : Option DnsQueryType
  offset : ℕ

/-- `parse_question`: the name as a text, the type if it is there, and the offset behind both. -/
def parseQuestion (payload : List UInt8) (start : ℕ) : Checked ParsedQuestion := do
  let (name, offset) ← labelsLoop payload (payload.length + 1) start ""
  let queryName := if name.isEmpty then none else some name
  let typeEnd ← add offset 2
  let queryType ←
    if typeEnd ≤ payload.length then do
      let qtype ← be16At payload offset
      pure (some (queryTypeOf qtype))
    else pure none
  return ⟨queryName, queryType, saturatingAdd offset 4⟩

/-- The loop of `parse_questions_starting_at_header`: the first question is kept. -/
def questionsLoop (payload : List UInt8) (qdcount : ℕ) :
    ℕ → ℕ → ParsedQuestion → Checked ParsedQuestion
  | 0, _, _ => throw .endless
  | rounds + 1, i, parsed => do
    if i < qdcount then do
      let question ← parseQuestion payload parsed.offset
      let parsed :=
        if i = 0 then question else { parsed with offset := question.offset }
      if payload.length < parsed.offset then return parsed
      questionsLoop payload qdcount rounds (i + 1) parsed
    else return parsed

/-- `parse_questions_starting_at_header`: as many questions as the header counts; the first name and
type are kept. -/
def parseQuestionsStartingAtHeader (payload : List UInt8) (qdcount : UInt16) :
    Checked ParsedQuestion :=
  questionsLoop payload qdcount.toNat (payload.length + 1) 0 ⟨none, none, 12⟩

/-! ## Safety -/

section Safety

variable {payload : List UInt8} {start : ℕ}

theorem checkedAdd_eq {a b : ℕ} (h : a + b < 2 ^ 64) : checkedAdd a b = some (a + b) := if_pos h

theorem saturatingAdd_eq {a b : ℕ} (h : a + b < 2 ^ 64) : saturatingAdd a b = a + b :=
  Nat.min_eq_left (by omega)

theorem be16At_ensures {i : ℕ} (h : i + 2 ≤ payload.length) :
    Ensures (be16At payload i) fun _ => True := by
  refine (ensures_index (by omega)).bind fun high _ => ?_
  exact (ensures_index (by omega)).bind fun low _ => ensures_pure trivial

theorem skipLoop_ensures (hlen : payload.length < 2 ^ 63) {hops rounds offset : ℕ}
    (hrounds : payload.length - offset < rounds) :
    Ensures (skipLoop payload hops rounds offset) fun stop? =>
      ∀ stop, stop? = some stop → offset < stop ∧ stop ≤ payload.length := by
  induction rounds generalizing offset with
  | zero => exact absurd hrounds (Nat.not_lt_zero _)
  | succ rounds ih =>
    rw [skipLoop]
    refine Ensures.ite (fun _ => ensures_none) fun hmore => ?_
    refine (ensures_index (by omega)).bind fun labelLen _ => ?_
    have hlabel := labelLen.toNat_lt
    refine Ensures.ite (fun _ => ?_) fun _ => Ensures.ite (fun _ => ?_) fun _ =>
      Ensures.ite (fun _ => ensures_none) fun _ => ?_
    · exact (ensures_add (by omega)).bind fun stop hstop => ensures_some (by omega)
    -- both bytes of a pointer are in the message
    · refine (ensures_add (by omega)).bind fun second hsecond => ?_
      refine Ensures.ite (fun _ => ensures_none) fun _ => ?_
      refine Ensures.ite (fun _ => ensures_none) fun _ => ?_
      exact (ensures_add (by omega)).bind fun stop hstop => ensures_some (by omega)
    · rw [checkedAdd_eq (by omega)]
      refine Ensures.ite (fun _ => ensures_none) fun _ => (ih (by omega)).mono fun stop? hstop => ?_
      exact fun stop heq => ⟨(by omega : offset < _).trans (hstop stop heq).1, (hstop stop heq).2⟩

/-- A name that is skipped ends in the message. -/
theorem skipDnsName_ensures (hlen : payload.length < 2 ^ 63) (start : ℕ) :
    Ensures (skipDnsName payload start) fun stop? =>
      ∀ stop, stop? = some stop → start < stop ∧ stop ≤ payload.length :=
  skipLoop_ensures hlen (by omega)

theorem labelsLoop_ensures (hlen : payload.length < 2 ^ 63) {rounds offset : ℕ} {name : String}
    (hoffset : offset ≤ payload.length) (hrounds : payload.length - offset < rounds) :
    Ensures (labelsLoop payload rounds offset name) fun parsed =>
      offset ≤ parsed.2 ∧ parsed.2 ≤ payload.length + 1 := by
  -- each label moves the offset on, so that the rounds cannot run out
  induction rounds generalizing offset name with
  | zero => exact absurd hrounds (Nat.not_lt_zero _)
  | succ rounds ih =>
    rw [labelsLoop]
    refine Ensures.ite (fun _ => ensures_pure ⟨le_rfl, by omega⟩) fun hmore => ?_
    refine (ensures_index (by omega)).bind fun labelLen _ => ?_
    have hlabel := labelLen.toNat_lt
    refine Ensures.ite (fun _ => ?_) fun _ => Ensures.ite (fun _ => ?_) fun _ => ?_
    · exact (ensures_add (by omega)).bind fun stop hstop => ensures_pure (by omega)
    · exact (ensures_add (by omega)).bind fun stop hstop => ensures_pure (by omega)
    · refine (ensures_add (by omega)).bind fun next hnext => ?_
      refine Ensures.ite (fun _ => ensures_pure ⟨le_rfl, by omega⟩) fun _ => ?_
      refine (ensures_slice (by omega) (by omega)).bind fun label _ => ?_
      refine Ensures.ite (fun _ => ensures_pure ⟨le_rfl, by omega⟩) fun _ => ?_
      exact (ih (by omega) (by omega)).mono fun parsed hparsed => by omega

/-- A question takes up at least four bytes, and may end behind the message. -/
theorem parseQuestion_ensures (hlen : payload.length < 2 ^ 63) (hstart : start ≤ payload.length) :
    Ensures (parseQuestion payload start) fun question =>
      start + 4 ≤ question.offset ∧ question.offset ≤ payload.length + 5 := by
  refine (labelsLoop_ensures hlen hstart (by omega)).bind fun parsed hparsed => ?_
  refine (ensures_add (by omega)).bind fun typeEnd htype => ?_
  have hoffset : start + 4 ≤ saturatingAdd parsed.2 4 ∧
      saturatingAdd parsed.2 4 ≤ payload.length + 5 := by
    rw [saturatingAdd_eq (by omega)]
    omega
  refine Ensures.ite (fun hfits => ?_) fun _ => ensures_pure hoffset
  exact (be16At_ensures (by omega)).bind fun _ _ => ensures_pure hoffset

/-- Whichever question is kept, the next one is expected behind the last. -/
theorem offset_firstQuestion (i : ℕ) (question parsed : ParsedQuestion) :
    (if i = 0 then question else { parsed with offset := question.offset }).offset =
      question.offset := by
  split_ifs
  · rfl
  · rfl

/-- As every question takes up four bytes, there are fewer rounds than bytes. -/
theorem questionsLoop_ensures (hlen : payload.length < 2 ^ 63) {qdcount rounds i : ℕ}
    {parsed : ParsedQuestion} (hoffset : parsed.offset ≤ payload.length)
    (hrounds : payload.length - parsed.offset < rounds) :
    Ensures (questionsLoop payload qdcount rounds i parsed) fun parsed =>
      parsed.offset ≤ payload.length + 5 := by
  induction rounds generalizing i parsed with
  | zero => exact absurd hrounds (Nat.not_lt_zero _)
  | succ rounds ih =>
    rw [questionsLoop]
    refine Ensures.ite (fun _ => ?_) fun _ => ensures_pure (by omega)
    refine (parseQuestion_ensures hlen hoffset).bind fun question hquestion => ?_
    have hnext := offset_firstQuestion i question parsed
    exact Ensures.ite (fun _ => ensures_pure (by omega)) fun _ => ih (by omega) (by omega)

/-- The questions end after at most as many rounds as there are bytes, whatever the header
counts. -/
theorem parseQuestionsStartingAtHeader_ensures (hlen : payload.length < 2 ^ 63)
    (hheader : 12 ≤ payload.length) (qdcount : UInt16) :
    Ensures (parseQuestionsStartingAtHeader payload qdcount) fun parsed =>
      parsed.offset ≤ payload.length + 5 :=
  questionsLoop_ensures hlen hheader (by omega)

end Safety

end Dns

end RustNet
