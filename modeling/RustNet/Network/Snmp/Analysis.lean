import RustNet.Foundations.Ber
import RustNet.Foundations.Septets
import RustNet.Network.Tls.Handshake

/-!
# SNMP messages

`analyze_snmp` reads the version of a message and, for the first two versions, its community. The
PDU of these is what comes next. In version 3 it lies behind security parameters that are not
parsed: `find_pdu_type` takes the first of fifty bytes that has the value of a PDU's tag.

## Main definitions

* `Snmp.parseBerLength`, `Snmp.analyzeSnmp`: the analysis;
* `Snmp.Message`: messages of the three versions, built of BER elements;
* `Snmp.Message.Readable`: those that are within the limits of the analysis.

## Main results

* `Snmp.parseBerLength_encode`: which length is read, if at all;
* `Snmp.Message.analyzeSnmp_encode`: what is reported of a message.
-/

namespace RustNet

deriving instance DecidableEq for SnmpVersion

namespace Snmp

open Checked

/-! ## Parsing -/

/-- `MIN_SNMP_SIZE`: shorter payloads are not read as a message. -/
def minSnmpSize : ℕ := 10

/-- `BER_SEQUENCE`: the tag that a message begins with. -/
def berSequence : UInt8 := 0x30

/-- `BER_INTEGER`: the tag of the version. -/
def berInteger : UInt8 := 0x02

/-- `BER_OCTET_STRING`: the tag of the community. -/
def berOctetString : UInt8 := 0x04

/-- `parse_ber_length`: the length and the bytes it takes. -/
def parseBerLength (data : List UInt8) : Checked (Option (ℕ × ℕ)) := do
  if data.isEmpty = true then return none
  let first ← index data 0
  if first < 0x80 then return some (first.toNat, 1)
  -- the indefinite form
  if first = 0x80 then return none
  let numBytes := (first &&& 0x7F).toNat
  if 4 < numBytes ∨ data.length < 1 + numBytes then return none
  let octets ← indices data 1 numBytes
  return some (BigEndian.value octets, 1 + numBytes)

/-- `parse_version`, by the last byte. -/
def parseVersion (data : List UInt8) : Option SnmpVersion :=
  match data.getLast? with
  | none => none
  | some number =>
    if number = 0 then some .v1
    else if number = 1 then some .v2c
    else if number = 3 then some .v3
    else none

/-- The kind of PDU that a tag stands for. -/
def pduTypeOf (tag : UInt8) : Option SnmpPduType :=
  if tag = 0xA0 then some .getRequest
  else if tag = 0xA1 then some .getNextRequest
  else if tag = 0xA2 then some .getResponse
  else if tag = 0xA3 then some .setRequest
  else if tag = 0xA4 then some .trap
  else if tag = 0xA5 then some .getBulkRequest
  else if tag = 0xA6 then some .informRequest
  else if tag = 0xA7 then some .trapV2
  else if tag = 0xA8 then some .report
  else none

/-- `find_pdu_type`: the first of the next fifty bytes that is the tag of a type of message,
wherever it stands. -/
def findPduType (data : List UInt8) : Option SnmpPduType := (data.take 50).findSome? pduTypeOf

/-- The community at `offset` and the offset behind it; `none` if its length cannot be read. -/
def parseCommunity (payload : List UInt8) (offset : ℕ) : Checked (Option (Option String × ℕ)) := do
  if payload.length ≤ offset then return some (none, offset)
  let tag ← index payload offset
  if tag ≠ berOctetString then return some (none, offset)
  let lengthAt ← add offset 1
  let behind ← sliceFrom payload lengthAt
  match ← parseBerLength behind with
  | none => return none
  | some (commLen, lenBytes) => do
    let start ← add lengthAt lenBytes
    let stop ← add start commLen
    -- a community that is cut off is left out, and the search goes on behind its length
    if payload.length < stop then return some (none, start)
    let communityBytes ← slice payload start stop
    return some (fromUtf8 communityBytes, stop)

/-- The community of a message; version 3 has none. -/
def communityOf (payload : List UInt8) (offset : ℕ) (version : SnmpVersion) :
    Checked (Option (Option String × ℕ)) :=
  if version = .v1 ∨ version = .v2c then parseCommunity payload offset
  else pure (some (none, offset))

/-- The part of `analyze_snmp` behind the version. -/
def analyzeBody (payload : List UInt8) (offset : ℕ) (version : SnmpVersion) :
    Checked (Option SnmpInfo) := do
  match ← communityOf payload offset version with
  | none => return none
  | some (community, offset) => do
    let behind ← sliceFrom payload offset
    return (findPduType behind).map fun pduType => ⟨version, community, pduType⟩

/-- The part of `analyze_snmp` behind the header of the SEQUENCE. -/
def analyzeVersion (payload : List UInt8) (offset : ℕ) : Checked (Option SnmpInfo) := do
  if payload.length ≤ offset then return none
  let tag ← index payload offset
  if tag ≠ berInteger then return none
  let lengthAt ← add offset 1
  let behind ← sliceFrom payload lengthAt
  match ← parseBerLength behind with
  | none => return none
  | some (versionLen, lenBytes) => do
    let start ← add lengthAt lenBytes
    let stop ← add start versionLen
    if payload.length < stop then return none
    let number ← slice payload start stop
    -- an unknown version ends the analysis
    match parseVersion number with
    | none => return none
    | some version => analyzeBody payload stop version

/-- `analyze_snmp`: a sequence that fits into the payload, and behind its length the version, the
community and the type of the message. -/
def analyzeSnmp (payload : List UInt8) : Checked (Option SnmpInfo) := do
  if payload.length < minSnmpSize then return none
  let tag ← index payload 0
  if tag ≠ berSequence then return none
  let behind ← sliceFrom payload 1
  match ← parseBerLength behind with
  | none => return none
  | some (seqLen, lenBytes) => do
    let offset ← add lenBytes 1
    let stop ← add offset seqLen
    if payload.length < stop then return none
    analyzeVersion payload offset

/-! ## Messages -/

/-- An OCTET STRING: its bytes, and the form of the length in front of them, which must be able to
hold their number. -/
structure OctetString where
  form : Ber.LengthForm
  bytes : List UInt8
  fits : form.Fits bytes.length

/-- The element of an OCTET STRING. -/
def OctetString.element (s : OctetString) : Ber.Element := ⟨berOctetString, s.form, s.bytes, s.fits⟩

/-- The bytes of some elements. -/
def encodeElements (elements : List Ber.Element) : List UInt8 := elements.flatMap Ber.Element.encode

/-- A PDU: its fields are elements, of which it has one at least. -/
structure Pdu where
  tag : UInt8
  form : Ber.LengthForm
  fields : List Ber.Element
  tag_mem : 0xA0 ≤ tag ∧ tag ≤ 0xA8
  fields_ne : fields ≠ []
  fits : form.Fits (encodeElements fields).length

/-- The element of a PDU. -/
def Pdu.element (pdu : Pdu) : Ber.Element :=
  ⟨pdu.tag, pdu.form, encodeElements pdu.fields, pdu.fits⟩

/-- The PDU of version 3 with its context, in clear text. -/
structure ScopedPdu where
  form : Ber.LengthForm
  contextEngineId : OctetString
  contextName : OctetString
  pdu : Pdu
  fits : form.Fits
    (encodeElements [contextEngineId.element, contextName.element, pdu.element]).length

/-- The element of a PDU with its context. -/
def ScopedPdu.element (data : ScopedPdu) : Ber.Element where
  tag := berSequence
  form := data.form
  content := encodeElements
    [data.contextEngineId.element, data.contextName.element, data.pdu.element]
  fits := data.fits

/-- What comes behind the version. -/
inductive Body
  | v1 (community : OctetString) (pdu : Pdu)
  | v2c (community : OctetString) (pdu : Pdu)
  | v3 (globalData : Ber.Element) (securityParameters : OctetString) (data : ScopedPdu)

namespace Body

/-- The version of a message. -/
def version : Body → SnmpVersion
  | v1 _ _ => .v1
  | v2c _ _ => .v2c
  | v3 _ _ _ => .v3

/-- The number of the version. -/
def number : Body → UInt8
  | v1 _ _ => 0
  | v2c _ _ => 1
  | v3 _ _ _ => 3

/-- The elements behind the version. -/
def elements : Body → List Ber.Element
  | v1 community pdu => [community.element, pdu.element]
  | v2c community pdu => [community.element, pdu.element]
  | v3 globalData securityParameters data =>
    [globalData, securityParameters.element, data.element]

/-- The PDU of a message. -/
def pdu : Body → Pdu
  | v1 _ pdu => pdu
  | v2c _ pdu => pdu
  | v3 _ _ data => data.pdu

/-- The community of a message that has one, if it is text. -/
def community : Body → Option String
  | v1 community _ => fromUtf8 community.bytes
  | v2c community _ => fromUtf8 community.bytes
  | v3 _ _ _ => none

end Body

/-- A message: the version and what stands behind it, and the forms of the lengths of the version
and of the whole, which must be able to hold them. -/
structure Message where
  form : Ber.LengthForm
  versionForm : Ber.LengthForm
  body : Body
  versionFits : versionForm.Fits 1
  fits : form.Fits (encodeElements
    (⟨berInteger, versionForm, [body.number], versionFits⟩ :: body.elements)).length

namespace Message

/-- The element of the version. -/
def versionElement (message : Message) : Ber.Element :=
  ⟨berInteger, message.versionForm, [message.body.number], message.versionFits⟩

/-- The element of the whole message. -/
def element (message : Message) : Ber.Element :=
  ⟨berSequence, message.form, encodeElements (message.versionElement :: message.body.elements),
    message.fits⟩

/-- The bytes of a message. -/
def encode (message : Message) : List UInt8 := message.element.encode

end Message

/-! ## The limits of the analysis -/

namespace Body

/-- The bytes that are searched before the PDU comes. -/
def beforePdu : Body → List UInt8
  | v1 _ _ => []
  | v2c _ _ => []
  | v3 globalData securityParameters data =>
    globalData.encode ++ (securityParameters.element.encode ++
      (berSequence :: (data.form.encode data.element.content.length ++
        (data.contextEngineId.element.encode ++ data.contextName.element.encode))))

/-- The length of the community has four bytes at most, or the PDU of a message of version 3 is
found: it is near, and no tag of another one is in front of it. -/
def Readable : Body → Prop
  | v1 community _ => community.form.octets ≤ 4
  | v2c community _ => community.form.octets ≤ 4
  | v3 globalData securityParameters data =>
    (v3 globalData securityParameters data).beforePdu.length < 50 ∧
      ∀ b ∈ (v3 globalData securityParameters data).beforePdu,
        0xA0 ≤ b ∧ b ≤ 0xA8 → b = data.pdu.tag

end Body

/-- The lengths in front of the PDU have four bytes at most where they are read. -/
def Message.Readable (message : Message) : Prop :=
  message.form.octets ≤ 4 ∧ message.versionForm.octets ≤ 4 ∧ message.body.Readable

/-! ## Lengths and tags -/

section Reading

variable {payload rest : List UInt8} {offset : ℕ}

/-- A length is read if it takes four bytes at most behind the first one. -/
theorem parseBerLength_encode {form : Ber.LengthForm} {n : ℕ} (h : form.Fits n)
    (rest : List UInt8) :
    parseBerLength (form.encode n ++ rest) =
      pure (if form.octets ≤ 4 then some (n, 1 + form.octets) else none) := by
  rcases form with _ | k
  -- the first byte is the length
  · have hn : n < 128 := h
    have hfirst : (UInt8.ofNat n).toNat = n := UInt8.toNat_ofNat_of_lt' (hn.trans (by decide))
    have hshort : UInt8.ofNat n < 0x80 := by
      rw [UInt8.lt_iff_toNat_lt, hfirst]
      exact hn
    rw [parseBerLength, Ber.LengthForm.encode, List.singleton_append, if_neg (by simp),
      (At.start _).index, pure_bind', if_pos hshort, hfirst]
    rfl
  -- the first byte says in how many bytes the length follows
  · have hfirst := Ber.LengthForm.toNat_first h
    obtain ⟨hpos, hle, hn⟩ := h
    have hshort : ¬ UInt8.ofNat (128 + k) < 0x80 := by
      rw [UInt8.lt_iff_toNat_lt, hfirst]
      exact Nat.not_lt.mpr (Nat.le_add_right 128 k)
    have hindefinite : UInt8.ofNat (128 + k) ≠ 0x80 := by
      rw [ne_eq, ← UInt8.toNat_inj, hfirst]
      show ¬ 128 + k = 128
      omega
    have hnum : (UInt8.ofNat (128 + k) &&& 0x7F).toNat = k := by
      rw [Septets.low_toNat, hfirst, Nat.add_mod_left, Nat.mod_eq_of_lt (by omega)]
    have hat : At (UInt8.ofNat (128 + k) :: (BigEndian.bytes k n ++ rest)) 1
        (BigEndian.bytes k n ++ rest) := (At.start _).next
    have hindices := hat.indices
    rw [BigEndian.length_bytes] at hindices
    rw [parseBerLength, Ber.LengthForm.encode, List.cons_append, if_neg (by simp),
      (At.start _).index, pure_bind', if_neg hshort, if_neg hindefinite, hnum]
    by_cases hlimit : k ≤ 4
    · have hfits : ¬ (4 < k ∨ (UInt8.ofNat (128 + k) ::
          (BigEndian.bytes k n ++ rest)).length < 1 + k) := by
        rw [List.length_cons, List.length_append, BigEndian.length_bytes]
        omega
      rw [if_neg hfits, hindices, pure_bind', BigEndian.value_bytes, Nat.mod_eq_of_lt hn,
        Ber.LengthForm.octets, if_pos hlimit]
    · rw [if_pos (Or.inl (Nat.not_le.mp hlimit)), Ber.LengthForm.octets, if_neg hlimit]

theorem pduTypeOf_isSome (tag : UInt8) :
    (pduTypeOf tag).isSome = true ↔ 0xA0 ≤ tag ∧ tag ≤ 0xA8 := by
  revert tag
  decide +kernel

/-- The tag of a PDU is found behind bytes that are not another's. -/
theorem findPduType_append (before : List UInt8) {tag : UInt8} {pduType : SnmpPduType}
    (htype : pduTypeOf tag = some pduType) (hlength : before.length < 50)
    (hbefore : ∀ b ∈ before, 0xA0 ≤ b ∧ b ≤ 0xA8 → b = tag) (rest : List UInt8) :
    findPduType (before ++ tag :: rest) = some pduType := by
  have htake : (before ++ tag :: rest).take 50 =
      before ++ tag :: rest.take (50 - before.length - 1) := by
    rw [List.take_append, List.take_of_length_le hlength.le,
      List.take_cons (Nat.sub_pos_of_lt hlength)]
  rw [findPduType, htake, List.findSome?_append, List.findSome?_cons, htype]
  rcases hfound : before.findSome? pduTypeOf with _ | found
  · rfl
  · -- whatever is found before the tag is the tag
    obtain ⟨b, hb, hfoundb⟩ := List.exists_of_findSome?_eq_some hfound
    have hrange := (pduTypeOf_isSome b).mp (by rw [hfoundb]; rfl)
    rw [hbefore b hb hrange, htype] at hfoundb
    rw [Option.some_or, hfoundb]

/-- Behind the tag of an element comes its length. -/
theorem at_length {e : Ber.Element} (h : At payload offset (e.encode ++ rest)) :
    At payload (offset + 1) (e.form.encode e.content.length ++ (e.content ++ rest)) := by
  rw [Ber.Element.encode, List.cons_append, List.append_assoc] at h
  exact h.next

/-- And behind that its content. -/
theorem at_content {e : Ber.Element} (h : At payload offset (e.encode ++ rest)) :
    At payload (offset + 1 + (1 + e.form.octets)) (e.content ++ rest) :=
  (at_length h).skip_of_length (Ber.LengthForm.length_encode _ _)

theorem index_tag {e : Ber.Element} (h : At payload offset (e.encode ++ rest)) :
    index payload offset = pure e.tag := h.index

/-- A community is read with its length, and left out if it is not text. -/
theorem parseCommunity_eq (hlen : payload.length < 2 ^ 63) {community : OctetString}
    (hform : community.form.octets ≤ 4)
    (h : At payload offset (community.element.encode ++ rest)) :
    parseCommunity payload offset =
      pure (some (fromUtf8 community.bytes, offset + community.element.encode.length)) := by
  -- the tag, the length and the content, each behind the one before
  have hlengthAt := at_length h
  have hcontent := at_content h
  have hsize := hcontent.skip.length_eq
  have hend : offset + 1 + (1 + community.element.form.octets) + community.element.content.length =
      offset + community.element.encode.length := by
    rw [Ber.Element.length_encode]
    omega
  have htag : community.element.tag = berOctetString := rfl
  have hoctets : community.element.form.octets ≤ 4 := hform
  rw [parseCommunity, if_neg (by omega), index_tag h, pure_bind', htag, if_neg (not_not.mpr rfl),
    add_eq (by omega), pure_bind', hlengthAt.sliceFrom, pure_bind',
    parseBerLength_encode community.element.fits, pure_bind', if_pos hoctets]
  simp only []
  rw [add_eq (by omega), pure_bind', add_eq (by omega), pure_bind', if_neg (by omega),
    hcontent.slice, pure_bind', hend]
  rfl

/-- The PDU behind a community. -/
theorem analyzeBody_community (hlen : payload.length < 2 ^ 63) {community : OctetString} {pdu : Pdu}
    {version : SnmpVersion} (hversion : version = .v1 ∨ version = .v2c)
    (hform : community.form.octets ≤ 4) {pduType : SnmpPduType}
    (htype : pduTypeOf pdu.tag = some pduType)
    (h : At payload offset (community.element.encode ++ (pdu.element.encode ++ rest))) :
    analyzeBody payload offset version =
      pure (some ⟨version, fromUtf8 community.bytes, pduType⟩) := by
  have hfound : findPduType (pdu.element.encode ++ rest) = some pduType :=
    findPduType_append [] htype (by decide) (fun b hb => absurd hb List.not_mem_nil) _
  rw [analyzeBody, communityOf, if_pos hversion, parseCommunity_eq hlen hform h, pure_bind']
  simp only []
  rw [h.skip.sliceFrom, pure_bind', hfound, Option.map_some]

/-- What is read behind the version. -/
theorem analyzeBody_eq (hlen : payload.length < 2 ^ 63) {body : Body} (hreadable : body.Readable)
    {pduType : SnmpPduType} (htype : pduTypeOf body.pdu.tag = some pduType)
    (h : At payload offset (encodeElements body.elements ++ rest)) :
    analyzeBody payload offset body.version =
      pure (some ⟨body.version, body.community, pduType⟩) := by
  rcases body with ⟨community, pdu⟩ | ⟨community, pdu⟩ | ⟨globalData, securityParameters, data⟩
  -- versions 1 and 2c have a community and a PDU
  · simp only [Body.elements, encodeElements, List.flatMap_cons, List.flatMap_nil, List.append_nil,
      List.append_assoc] at h
    exact analyzeBody_community hlen (Or.inl rfl) hreadable htype h
  · simp only [Body.elements, encodeElements, List.flatMap_cons, List.flatMap_nil, List.append_nil,
      List.append_assoc] at h
    exact analyzeBody_community hlen (Or.inr rfl) hreadable htype h
  · -- what stands before the PDU's tag is searched with it
    have hsplit : encodeElements (Body.v3 globalData securityParameters data).elements ++ rest =
        (Body.v3 globalData securityParameters data).beforePdu ++ data.pdu.tag ::
          (data.pdu.form.encode data.pdu.element.content.length ++ (data.pdu.element.content ++
            rest)) := by
      simp only [Body.elements, Body.beforePdu, encodeElements, List.flatMap_cons,
        List.flatMap_nil, List.append_nil, List.append_assoc, List.cons_append, Ber.Element.encode,
        ScopedPdu.element, Pdu.element, OctetString.element]
    have htag : pduTypeOf data.pdu.tag = some pduType := htype
    have hfound := findPduType_append _ htag hreadable.1 hreadable.2
      (data.pdu.form.encode data.pdu.element.content.length ++ (data.pdu.element.content ++ rest))
    have hcommunity : communityOf payload offset .v3 = pure (some (none, offset)) := rfl
    rw [Body.version, analyzeBody, hcommunity, pure_bind']
    simp only []
    rw [h.sliceFrom, pure_bind', hsplit, hfound]
    rfl

/-- The version, and what is read behind it. -/
theorem analyzeVersion_eq (hlen : payload.length < 2 ^ 63) {message : Message}
    (hform : message.versionForm.octets ≤ 4) (hreadable : message.body.Readable)
    {pduType : SnmpPduType} (htype : pduTypeOf message.body.pdu.tag = some pduType)
    (h : At payload offset
      (message.versionElement.encode ++ (encodeElements message.body.elements ++ rest))) :
    analyzeVersion payload offset =
      pure (some ⟨message.body.version, message.body.community, pduType⟩) := by
  have hcontent := at_content h
  have hsize := hcontent.skip.length_eq
  have htag : message.versionElement.tag = berInteger := rfl
  have hoctets : message.versionElement.form.octets ≤ 4 := hform
  -- the body fixes the number of the version
  have hnumber : parseVersion message.versionElement.content = some message.body.version := by
    rcases hbody : message.body with _ | _ | _ <;>
      simp [Message.versionElement, hbody, parseVersion, Body.number, Body.version]
  rw [analyzeVersion, if_neg (by omega), index_tag h, pure_bind', htag, if_neg (not_not.mpr rfl),
    add_eq (by omega), pure_bind', (at_length h).sliceFrom, pure_bind',
    parseBerLength_encode message.versionElement.fits, pure_bind', if_pos hoctets]
  simp only []
  rw [add_eq (by omega), pure_bind', add_eq (by omega), pure_bind', if_neg (by omega),
    hcontent.slice, pure_bind', hnumber]
  exact analyzeBody_eq hlen hreadable htype hcontent.skip

theorem Body.length_elements (body : Body) : 6 ≤ (encodeElements body.elements).length := by
  -- a PDU has at least one field, of two bytes at least
  have hpdu : ∀ pdu : Pdu, 4 ≤ pdu.element.encode.length := by
    intro pdu
    obtain ⟨field, fields, hfields⟩ := List.exists_cons_of_ne_nil pdu.fields_ne
    simp only [Pdu.element, Ber.Element.length_encode, encodeElements, hfields, List.flatMap_cons,
      List.length_append]
    omega
  rcases body with ⟨community, pdu⟩ | ⟨community, pdu⟩ | ⟨globalData, securityParameters, data⟩
  · have h := hpdu pdu
    simp only [elements, encodeElements, List.flatMap_cons, List.flatMap_nil, List.append_nil,
      List.length_append, community.element.length_encode]
    omega
  · have h := hpdu pdu
    simp only [elements, encodeElements, List.flatMap_cons, List.flatMap_nil, List.append_nil,
      List.length_append, community.element.length_encode]
    omega
  · simp only [elements, encodeElements, List.flatMap_cons, List.flatMap_nil, List.append_nil,
      List.length_append, Ber.Element.length_encode]
    omega

end Reading

/-- A message within the limits is reported with its version, the tag of its PDU and, if it has
one that is text, its community, whatever follows it. It is of any of the three versions, with
lengths in the short form or in a long one of at most four bytes; a PDU of version 3 is looked
for in the fifty bytes behind the version (`hreadable`). Message and rest are what a slice can
hold (`hlen`). -/
theorem Message.analyzeSnmp_encode (message : Message) (rest : List UInt8)
    (hreadable : message.Readable) (hlen : (message.encode ++ rest).length < 2 ^ 63) :
    ∃ pduType, pduTypeOf message.body.pdu.tag = some pduType ∧
      analyzeSnmp (message.encode ++ rest) =
        pure (some ⟨message.body.version, message.body.community, pduType⟩) := by
  obtain ⟨hform, hversionForm, hbody⟩ := hreadable
  obtain ⟨pduType, htype⟩ := Option.isSome_iff_exists.mp
    ((pduTypeOf_isSome _).mpr message.body.pdu.tag_mem)
  refine ⟨pduType, htype, ?_⟩
  -- the outer element, with the version and the body as its content
  have hstart : At (message.encode ++ rest) 0 (message.element.encode ++ rest) := At.start _
  have hlengthAt : At (message.encode ++ rest) 1 _ := at_length hstart
  have hcontent := at_content hstart
  have hcons : encodeElements (message.versionElement :: message.body.elements) =
      message.versionElement.encode ++ encodeElements message.body.elements := List.flatMap_cons
  have hversion : At (message.encode ++ rest) (1 + message.form.octets + 1)
      (message.versionElement.encode ++ (encodeElements message.body.elements ++ rest)) := by
    rw [← List.append_assoc, ← hcons, Nat.add_comm _ 1]
    exact hcontent
  have hsize := hcontent.skip.length_eq
  have hbodyLength := message.body.length_elements
  have hcontentLength : message.element.content.length =
      message.versionElement.encode.length + (encodeElements message.body.elements).length := by
    rw [← List.length_append, ← hcons]
    rfl
  rw [message.versionElement.length_encode] at hcontentLength
  have htag : message.element.tag = berSequence := rfl
  have hoctets : message.element.form.octets ≤ 4 := hform
  -- the tag and the length are read, and the content lies within the payload
  rw [analyzeSnmp, if_neg (by rw [minSnmpSize]; omega), index_tag hstart, pure_bind', htag,
    if_neg (not_not.mpr rfl), hlengthAt.sliceFrom, pure_bind',
    parseBerLength_encode message.element.fits, pure_bind', if_pos hoctets]
  simp only []
  rw [add_eq (by omega), pure_bind', add_eq (by omega), pure_bind', if_neg (by omega)]
  exact analyzeVersion_eq hlen hversionForm hbody htype hversion

/-- A PDU with a request number only. -/
def samplePdu : Pdu where
  tag := 0xA0
  form := .short
  fields := [⟨berInteger, .short, [7], by decide⟩]
  tag_mem := by decide
  fields_ne := by decide
  fits := by decide

/-- A message of version 2c whose length takes two bytes. -/
def sampleMessage : Message where
  form := .long 1
  versionForm := .short
  body := .v2c ⟨.short, [0x70, 0x75, 0x62], by decide⟩ samplePdu
  versionFits := by decide
  fits := by decide

theorem analyzeSnmp_sampleMessage :
    ∃ pduType, pduTypeOf 0xA0 = some pduType ∧
      analyzeSnmp (sampleMessage.encode ++ [0xFF]) = pure (some ⟨.v2c, some "pub", pduType⟩) :=
  sampleMessage.analyzeSnmp_encode [0xFF] ⟨by decide, by decide, Nat.zero_le 4⟩ (by decide)

/-- A message whose length takes six bytes. -/
def sampleLongLength : Message where
  form := .long 5
  versionForm := .short
  body := .v1 ⟨.short, [0x70], by decide⟩ samplePdu
  versionFits := by decide
  fits := by decide

/-- A message with a community that is not text. -/
def sampleNotText : Message where
  form := .short
  versionForm := .short
  body := .v1 ⟨.short, [0xFF], by decide⟩ samplePdu
  versionFits := by decide
  fits := by decide

/-- A message of version 3 with the PDU behind the name of an engine in fifty bytes. -/
def sampleFarPdu : Message where
  form := .short
  versionForm := .short
  body := .v3 ⟨berSequence, .short, [], by decide⟩ ⟨.short, [], by decide⟩
    ⟨.short, ⟨.short, List.replicate 50 0, by decide⟩, ⟨.short, [], by decide⟩, samplePdu,
      by decide⟩
  versionFits := by decide
  fits := by decide

/-- Two of these messages are not reported at all, and the other one without its community. -/
theorem analyzeSnmp_limits :
    analyzeSnmp sampleLongLength.encode = pure none ∧
      analyzeSnmp sampleNotText.encode = pure (some ⟨.v1, none, .getRequest⟩) ∧
      analyzeSnmp sampleFarPdu.encode = pure none := by
  refine ⟨rfl, rfl, rfl⟩

end Snmp

end RustNet
