import Mathlib.Data.FinEnum
import Mathlib.Data.List.DropRight
import Mathlib.Data.List.GetD
import RustNet.Network.Parser.Transport
import RustNet.Network.Tls.Handshake

/-!
# STUN messages

`analyze_stun`: the class, the method and the transaction of a message, and the text of its SOFTWARE
attribute. An attribute has its type, the length of its value and the value, padded to four bytes.
The walk over the attributes stops at the first SOFTWARE attribute and takes 128 bytes of its value
at most, which are reported if they are UTF-8, without the NULs at their end.

## Main definitions

* `Stun.parseSoftwareAttribute`, `Stun.analyzeStun`;
* `Stun.Attribute`, `Stun.Message`: messages and their bytes.

## Main results

* `Stun.Message.isLikelyStun_encode`: every message is taken for STUN;
* `Stun.Message.analyzeStun_encode`: what is reported of a message;
* `Stun.Message.analyzeStun_software`: the text of the first SOFTWARE attribute is.
-/

namespace RustNet


namespace Stun

open Checked
open Tls (beAt beAt_eq beAt_ensures)

/-! ## Parsing -/

/-- `STUN_HEADER_SIZE`: the attributes begin behind so many bytes. -/
def stunHeaderSize : ℕ := 20

/-- `STUN_MAGIC_COOKIE`: the number behind the length by which a message is recognised. -/
def stunMagicCookie : ℕ := 0x2112A442

/-- `ATTR_SOFTWARE`: the type of the attribute that names the program. -/
def attrSoftware : ℕ := 0x8022

/-- `MAX_SOFTWARE_LEN`: no more bytes of the name are read. -/
def maxSoftwareLen : ℕ := 128

/-- `trim_end_matches('\0')`: the text without the zeros that it ends in. -/
def trimNuls (s : String) : String := String.ofList (s.toList.rdropWhile (· = '\x00'))

/-- The loop of `parse_software_attribute`: attributes are skipped by their padded lengths up to the
first SOFTWARE attribute, whose text is the result if it is UTF-8. -/
def attributesLoop (payload : List UInt8) (attrsEnd : ℕ) : ℕ → ℕ → Checked (Option String)
  | 0, _ => throw .endless
  | rounds + 1, offset => do
    let headerEnd ← add offset 4
    if headerEnd ≤ attrsEnd then do
      let attrType ← beAt payload offset 2
      let attrLength ← beAt payload (offset + 2) 2
      let valueEnd ← add headerEnd attrLength
      if attrsEnd < valueEnd then return none
      if attrType = attrSoftware then do
        let textEnd ← add headerEnd (min attrLength maxSoftwareLen)
        let text ← slice payload headerEnd textEnd
        return (fromUtf8 text).map trimNuls
      else do
        -- the length is padded to the next multiple of four
        let next ← add headerEnd ((attrLength + 3) / 4 * 4)
        attributesLoop payload attrsEnd rounds next
    else return none

/-- `parse_software_attribute`: the attributes from the end of the header to the end of the message.
A round takes four bytes at least, so that the rounds cannot run out. -/
def parseSoftwareAttribute (payload : List UInt8) (messageLength : ℕ) :
    Checked (Option String) := do
  let attrsEnd ← add stunHeaderSize messageLength
  attributesLoop payload attrsEnd (payload.length + 1) stunHeaderSize

/-- The match on `class_bits`: the bits 8 and 4 of the message type. -/
def messageClass (msgType : UInt16) : StunMessageClass :=
  let c0 := (msgType >>> 4) &&& 0x1
  let c1 := (msgType >>> 8) &&& 0x1
  let classBits := (c1 <<< 1) ||| c0
  if classBits = 0 then .request
  else if classBits = 1 then .indication
  else if classBits = 2 then .successResponse
  else .errorResponse

/-- The match on `method_value`: the message type without the class bits. -/
def method (msgType : UInt16) : StunMethod :=
  let m0_3 := msgType &&& 0x000F
  let m4_6 := (msgType >>> 1) &&& 0x0070
  let m7_11 := (msgType >>> 2) &&& 0x0F80
  let methodValue := m7_11 ||| m4_6 ||| m0_3
  if methodValue = 0x0001 then .binding else .unknown methodValue

/-- `is_likely_stun`: the payload is as long as a header, begins with two zero bits and has the
cookie. -/
def isLikelyStun (payload : List UInt8) : Checked Bool := do
  if payload.length < stunHeaderSize then return false
  let first ← index payload 0
  if first &&& 0xC0 ≠ 0x00 then return false
  let cookie ← beAt payload 4 4
  return decide (cookie = stunMagicCookie)

/-- `analyze_stun`: besides the test the length must be a multiple of four and inside the payload;
then the class, the method, the transaction and the name of the program are read. -/
def analyzeStun (payload : List UInt8) : Checked (Option StunInfo) := do
  if payload.length < stunHeaderSize then return none
  let first ← index payload 0
  if first &&& 0xC0 ≠ 0x00 then return none
  let cookie ← beAt payload 4 4
  if cookie ≠ stunMagicCookie then return none
  let messageLength ← beAt payload 2 2
  if messageLength % 4 ≠ 0 then return none
  let messageEnd ← add stunHeaderSize messageLength
  if payload.length < messageEnd then return none
  let second ← index payload 1
  -- the first two bits are zero here, and masked all the same
  let msgType := be16 (first &&& 0x3F) second
  let transactionId ← slice payload 8 20
  let software ← parseSoftwareAttribute payload messageLength
  return some
    { messageClass := messageClass msgType
      method := method msgType
      transactionId := Vector.ofFn fun i => transactionId.getD i 0
      software := software }

/-! ## Messages -/

/-- An attribute with its padding. -/
structure Attribute where
  type : ℕ
  value : List UInt8
  padding : List UInt8
  type_lt : type < 2 ^ 16
  length_lt : value.length < 2 ^ 16
  length_padding : value.length + padding.length = (value.length + 3) / 4 * 4

/-- The bytes of an attribute. -/
def Attribute.encode (a : Attribute) : List UInt8 :=
  BigEndian.bytes 2 a.type ++ (BigEndian.bytes 2 a.value.length ++ (a.value ++ a.padding))

/-- The bytes of some attributes. -/
def encodeAttributes (attributes : List Attribute) : List UInt8 :=
  attributes.flatMap Attribute.encode

/-- A STUN message: its type, which begins with two zero bits, the transaction, and attributes whose
length fits into the header. -/
structure Message where
  msgType : UInt16
  transactionId : Vector UInt8 12
  attributes : List Attribute
  msgType_lt : msgType < 0x4000
  length_lt : (encodeAttributes attributes).length < 2 ^ 16

/-- The bytes of a message. -/
def Message.encode (message : Message) : List UInt8 :=
  [(message.msgType >>> 8).toUInt8, message.msgType.toUInt8] ++
    (BigEndian.bytes 2 (encodeAttributes message.attributes).length ++
      (BigEndian.bytes 4 stunMagicCookie ++
        (message.transactionId.toList ++ encodeAttributes message.attributes)))

/-- The value of the first SOFTWARE attribute. -/
def firstSoftware (attributes : List Attribute) : Option (List UInt8) :=
  (attributes.find? fun a => a.type = attrSoftware).map Attribute.value

/-- What is made of the value of a SOFTWARE attribute. -/
def softwareText (value : List UInt8) : Option String :=
  (fromUtf8 (value.take maxSoftwareLen)).map trimNuls

/-! ## The walk over the attributes -/

section Walk

variable {payload rest : List UInt8} {rounds offset attrsEnd : ℕ}

theorem Attribute.length_encode (a : Attribute) :
    a.encode.length = 4 + (a.value.length + 3) / 4 * 4 := by
  have hpadding := a.length_padding
  simp only [encode, List.length_append, BigEndian.length_bytes]
  omega

/-- One round of the loop, over an attribute. -/
theorem attributesLoop_attribute {a : Attribute} (hlen : payload.length < 2 ^ 63)
    (h : At payload offset (a.encode ++ rest)) (hend : offset + a.encode.length ≤ attrsEnd) :
    attributesLoop payload attrsEnd (rounds + 1) offset =
      if a.type = attrSoftware then pure (softwareText a.value)
      else attributesLoop payload attrsEnd rounds (offset + a.encode.length) := by
  have hpadding := a.length_padding
  have hsize := h.length_eq
  rw [List.length_append] at hsize
  rw [a.length_encode] at hend hsize
  rw [Attribute.encode] at h
  simp only [List.append_assoc] at h
  have hlength := h.skip_of_length (BigEndian.length_bytes 2 _)
  have hvalue : At payload (offset + 4) (a.value ++ (a.padding ++ rest)) :=
    hlength.skip_of_length (BigEndian.length_bytes 2 _)
  -- type and length are read, and the value is within the payload
  rw [attributesLoop, add_eq (by omega), pure_bind', if_pos (by omega), beAt_eq h a.type_lt,
    pure_bind', beAt_eq hlength a.length_lt, pure_bind', add_eq (by omega), pure_bind',
    if_neg (by omega)]
  by_cases htype : a.type = attrSoftware
  · have htext : slice payload (offset + 4) (offset + 4 + min a.value.length maxSoftwareLen) =
        pure (a.value.take maxSoftwareLen) := by
      rw [slice_eq (Nat.le_add_right _ _) (by omega), hvalue.drop_eq, Nat.add_sub_cancel_left,
        List.take_append_of_le_length (Nat.min_le_left _ _), Nat.min_comm,
        ← List.take_eq_take_min]
    rw [if_pos htype, if_pos htype, add_eq (by omega), pure_bind', htext, pure_bind']
    rfl
  · rw [if_neg htype, if_neg htype, add_eq (by omega), pure_bind', a.length_encode, Nat.add_assoc]

/-- The loop over some attributes. -/
theorem attributesLoop_encode {attributes : List Attribute} (hlen : payload.length < 2 ^ 63)
    (h : At payload offset (encodeAttributes attributes ++ rest))
    (hrounds : attributes.length < rounds) :
    attributesLoop payload (offset + (encodeAttributes attributes).length) rounds offset =
      pure ((firstSoftware attributes).bind softwareText) := by
  induction attributes generalizing rounds offset with
  -- the loop ends where no header is left
  | nil =>
    obtain ⟨rounds, rfl⟩ := Nat.exists_eq_add_of_le' (show 1 ≤ rounds by omega)
    have hle := h.le_length
    have hend : ¬ offset + 4 ≤ offset + (encodeAttributes []).length := by
      rw [encodeAttributes, List.flatMap_nil, List.length_nil]
      omega
    rw [attributesLoop, add_eq (by omega), pure_bind', if_neg hend]
    rfl
  | cons a attributes ih =>
    obtain ⟨rounds, rfl⟩ := Nat.exists_eq_add_of_le' (show 1 ≤ rounds by omega)
    have hcons : encodeAttributes (a :: attributes) = a.encode ++ encodeAttributes attributes :=
      List.flatMap_cons
    rw [hcons, List.append_assoc] at h
    rw [List.length_cons] at hrounds
    rw [hcons, List.length_append, ← Nat.add_assoc,
      attributesLoop_attribute hlen h (Nat.le_add_right _ _), firstSoftware, List.find?_cons]
    by_cases htype : a.type = attrSoftware
    · rw [if_pos htype, decide_eq_true htype]
      rfl
    · rw [if_neg htype, decide_eq_false htype, ih h.skip (by omega)]
      rfl

theorem length_le_encodeAttributes (attributes : List Attribute) :
    attributes.length ≤ (encodeAttributes attributes).length ∧
      (encodeAttributes attributes).length % 4 = 0 := by
  induction attributes with
  | nil => exact ⟨Nat.le_refl _, rfl⟩
  | cons a attributes ih =>
    rw [encodeAttributes, List.flatMap_cons, ← encodeAttributes, List.length_append,
      a.length_encode, List.length_cons]
    omega

end Walk

/-! ## Whole messages -/

namespace Message

variable (message : Message) {rest : List UInt8}

/-- The two bits in front of a message type are zero, and behind them it is read as it is. -/
theorem msgType_bits :
    (message.msgType >>> 8).toUInt8 &&& 0xC0 = 0x00 ∧
      be16 ((message.msgType >>> 8).toUInt8 &&& 0x3F) message.msgType.toUInt8 =
        message.msgType := by
  have hsmall : (message.msgType >>> 8).toUInt8 < 0x40 := by
    have hlt : message.msgType.toNat < 0x4000 := UInt16.lt_iff_toNat_lt.mp message.msgType_lt
    have hshift : (message.msgType >>> 8).toNat = message.msgType.toNat / 2 ^ 8 := by
      rw [UInt16.toNat_shiftRight]
      exact Nat.shiftRight_eq_div_pow _ 8
    rw [UInt8.lt_iff_toNat_lt, UInt16.toNat_toUInt8, hshift]
    show message.msgType.toNat / 2 ^ 8 % 2 ^ 8 < 64
    omega
  have hbits : ∀ b : UInt8, b < 0x40 → b &&& 0xC0 = 0x00 ∧ b &&& 0x3F = b := by decide +kernel
  obtain ⟨hhigh, hlow⟩ := hbits _ hsmall
  exact ⟨hhigh, by rw [hlow, be16_bytes]⟩

theorem transactionId_ofFn :
    (Vector.ofFn fun i => message.transactionId.toList.getD i 0) = message.transactionId := by
  ext i hi
  rw [Vector.getElem_ofFn, List.getD_eq_getElem _ _ (by simpa using hi), Vector.getElem_toList]

theorem at_start : At (message.encode ++ rest) 0
    ((message.msgType >>> 8).toUInt8 :: message.msgType.toUInt8 ::
      (BigEndian.bytes 2 (encodeAttributes message.attributes).length ++
        (BigEndian.bytes 4 stunMagicCookie ++ (message.transactionId.toList ++
          (encodeAttributes message.attributes ++ rest))))) := by
  refine ⟨Nat.zero_le _, ?_⟩
  simp only [encode, List.append_assoc, List.cons_append, List.nil_append, List.drop_zero]

theorem at_cookie : At (message.encode ++ rest) 4
    (BigEndian.bytes 4 stunMagicCookie ++ (message.transactionId.toList ++
      (encodeAttributes message.attributes ++ rest))) :=
  message.at_start.next.next.skip_of_length (BigEndian.length_bytes 2 _)

theorem at_attributes :
    At (message.encode ++ rest) 20 (encodeAttributes message.attributes ++ rest) :=
  (message.at_cookie.skip_of_length (BigEndian.length_bytes 4 _)).skip_of_length
    message.transactionId.length_toList

theorem length_append_rest (rest : List UInt8) : (message.encode ++ rest).length =
    20 + (encodeAttributes message.attributes).length + rest.length := by
  rw [message.at_attributes.length_eq, List.length_append, Nat.add_assoc]

/-- Every message is taken for STUN. -/
theorem isLikelyStun_encode : isLikelyStun (message.encode ++ rest) = pure true := by
  have hsize := message.length_append_rest rest
  have hcookie : beAt (message.encode ++ rest) 4 4 = pure stunMagicCookie :=
    beAt_eq message.at_cookie (by decide)
  rw [isLikelyStun, if_neg (by rw [stunHeaderSize]; omega), message.at_start.index, pure_bind',
    if_neg (not_not.mpr message.msgType_bits.1), hcookie, pure_bind']
  rfl

/-- A message is reported with the text of its first SOFTWARE attribute, whatever follows it. -/
theorem analyzeStun_encode (hlen : (message.encode ++ rest).length < 2 ^ 63) :
    analyzeStun (message.encode ++ rest) = pure (some
      { messageClass := messageClass message.msgType
        method := method message.msgType
        transactionId := message.transactionId
        software := (firstSoftware message.attributes).bind softwareText }) := by
  obtain ⟨hcount, hmultiple⟩ := length_le_encodeAttributes message.attributes
  have hlength := message.length_lt
  have htransaction : At (message.encode ++ rest) 8 _ :=
    message.at_cookie.skip_of_length (BigEndian.length_bytes 4 _)
  have hsize := message.length_append_rest rest
  -- the fields of the header, and the attributes behind it
  have hcookieSlice : beAt (message.encode ++ rest) 4 4 = pure stunMagicCookie :=
    beAt_eq message.at_cookie (by decide)
  have hlengthAt : beAt (message.encode ++ rest) 2 2 =
      pure (encodeAttributes message.attributes).length :=
    beAt_eq message.at_start.next.next hlength
  have hid : slice (message.encode ++ rest) 8 20 = pure message.transactionId.toList := by
    have h := htransaction.slice
    rwa [message.transactionId.length_toList] at h
  have hsoftware : parseSoftwareAttribute (message.encode ++ rest)
      (encodeAttributes message.attributes).length =
        pure ((firstSoftware message.attributes).bind softwareText) := by
    rw [parseSoftwareAttribute, stunHeaderSize, add_eq (by omega), pure_bind']
    exact attributesLoop_encode hlen message.at_attributes (by omega)
  obtain ⟨hbits, htype⟩ := message.msgType_bits
  -- the checks pass one after another, in the order of the code
  rw [analyzeStun, if_neg (by rw [stunHeaderSize]; omega), message.at_start.index, pure_bind',
    if_neg (not_not.mpr hbits), hcookieSlice, pure_bind', if_neg (not_not.mpr rfl), hlengthAt,
    pure_bind', if_neg (not_not.mpr hmultiple), stunHeaderSize, add_eq (by omega), pure_bind',
    if_neg (by omega), message.at_start.next.index, pure_bind', htype, hid, pure_bind', hsoftware,
    pure_bind', message.transactionId_ofFn]

end Message

/-! ## The text of the SOFTWARE attribute -/

/-- A text of which `cut` is reported: all of it, or 128 bytes of a longer one, where a character
ends there. -/
structure CutText where
  cut : String
  more : String
  fits : (nameBytes cut).length ≤ maxSoftwareLen
  full : more ≠ "" → (nameBytes cut).length = maxSoftwareLen

/-- The bytes of the whole text. -/
def CutText.bytes (text : CutText) : List UInt8 := nameBytes (text.cut ++ text.more)

theorem softwareText_bytes (text : CutText) :
    softwareText text.bytes = some (trimNuls text.cut) := by
  have htake : text.bytes.take maxSoftwareLen = nameBytes text.cut := by
    rw [CutText.bytes, nameBytes_append]
    by_cases hmore : text.more = ""
    · have hnone : nameBytes text.more = [] := by rw [hmore]; rfl
      rw [hnone, List.append_nil, List.take_of_length_le text.fits]
    · rw [← text.full hmore, List.take_left]
  rw [softwareText, htake, fromUtf8_nameBytes, Option.map_some]

/-- The text of the first SOFTWARE attribute is reported, cut to 128 bytes and without the NULs at
its end. The attribute may come after any others (`hfirst`), and the message may be followed by
anything, as far as a slice can hold it (`hlen`). A `CutText` is one whose cut does not fall into a
character. -/
theorem Message.analyzeStun_software (message : Message) (text : CutText) (rest : List UInt8)
    (hlen : (message.encode ++ rest).length < 2 ^ 63)
    (hfirst : firstSoftware message.attributes = some text.bytes) :
    ∃ info, analyzeStun (message.encode ++ rest) = pure (some info) ∧
      info.software = some (trimNuls text.cut) := by
  refine ⟨_, message.analyzeStun_encode hlen, ?_⟩
  show (firstSoftware message.attributes).bind softwareText = _
  rw [hfirst, Option.bind_some, softwareText_bytes]

/-- A SOFTWARE attribute padded with zeros. -/
def Attribute.ofSoftware (value : List UInt8) (hlength : value.length < 2 ^ 16) : Attribute where
  type := attrSoftware
  value := value
  padding := List.replicate ((4 - value.length % 4) % 4) 0
  type_lt := by decide
  length_lt := hlength
  length_padding := by
    rw [List.length_replicate]
    omega

/-- A binding request with the given attributes, for the concrete messages below. -/
def sampleRequest (attributes : List Attribute)
    (hlength : (encodeAttributes attributes).length < 2 ^ 16) : Message where
  msgType := 0x0001
  transactionId := Vector.replicate 12 0
  attributes := attributes
  msgType_lt := by decide
  length_lt := hlength

theorem analyzeStun_agent :
    ∃ info, analyzeStun
        ((sampleRequest [.ofSoftware [0x61, 0x67] (by decide)] (by decide)).encode ++ [0xFF]) =
      pure (some info) ∧ info.software = some "ag" := by
  have h := (sampleRequest [.ofSoftware [0x61, 0x67] (by decide)] (by decide)).analyzeStun_software
    ⟨"ag", "", by decide, fun h => absurd rfl h⟩ [0xFF] (by decide) (by decide)
  exact h

/-- A NUL at the end of the text is not reported, and no text is if the first SOFTWARE attribute has
none, though the second one has. -/
theorem analyzeStun_notText :
    (∃ info, analyzeStun
          ((sampleRequest [.ofSoftware [0x61, 0] (by decide)] (by decide)).encode ++ []) =
        pure (some info) ∧
      fromUtf8 [0x61, 0] = some "a\x00" ∧ info.software = some "a") ∧
    ∃ info, analyzeStun
          ((sampleRequest [.ofSoftware [0xFF] (by decide), .ofSoftware [0x61] (by decide)]
            (by decide)).encode ++ []) =
        pure (some info) ∧
      fromUtf8 [0xFF] = none ∧ fromUtf8 [0x61] = some "a" ∧ info.software = none := by
  constructor
  · refine ⟨_, Message.analyzeStun_encode _ (by decide), ?_, ?_⟩ <;> decide +kernel
  · refine ⟨_, Message.analyzeStun_encode _ (by decide), ?_, ?_, ?_⟩ <;> decide +kernel

end Stun

end RustNet
