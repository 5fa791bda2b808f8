import RustNet.Foundations.Septets
import RustNet.Network.Tls.Handshake

/-!
# MQTT packets

`analyze_mqtt` reads the fixed header of a packet, whose length field takes one to four bytes, and
of a CONNECT packet the protocol level and the client identifier, which lies behind two fields of
variable length. `is_mqtt_packet` takes a payload for MQTT by the protocol name of a CONNECT packet.

## Main definitions

* `Mqtt.decodeRemainingLength`, `Mqtt.isMqttPacket`, `Mqtt.analyzeMqtt`: the analysis;
* `Mqtt.Connect`: a CONNECT packet.

## Main results

* `Mqtt.decodeRemainingLength_encode`: a length is read as it was written;
* `Mqtt.Connect.isMqttPacket_encode`: every CONNECT packet is taken for MQTT;
* `Mqtt.Connect.analyzeMqtt_encode`: its version and client identifier are read off;
* `Mqtt.analyzeMqtt_ensures`: no payload makes the analysis fail.
-/

namespace RustNet

namespace Mqtt

open Checked
open Tls (beAt beAt_eq beAt_ensures)

/-! ## Lengths -/

/-- The loop of `decode_remaining_length`. Four groups of seven bits do not overflow. -/
def lengthLoop (payload : List UInt8) (offset : ℕ) :
    ℕ → ℕ → ℕ → ℕ → Checked (Option (ℕ × ℕ))
  | 0, _, _, _ => return none
  | rounds + 1, i, multiplier, value => do
    let idx ← add offset i
    if payload.length ≤ idx then return none
    let byte ← index payload idx
    let value := value + (byte &&& 0x7F).toNat * multiplier
    if byte &&& 0x80 = 0 then return some (value, i + 1)
    lengthLoop payload offset rounds (i + 1) (multiplier * 128) value

/-- `decode_remaining_length`: the length and the bytes it takes. -/
def decodeRemainingLength (payload : List UInt8) (offset : ℕ) : Checked (Option (ℕ × ℕ)) :=
  lengthLoop payload offset 4 0 1 0

/-! ## Detection -/

/-- The protocol names that are accepted: `MQTT` and `MQIsdp`. -/
def protocolNames : List (List UInt8) :=
  [[0x4D, 0x51, 0x54, 0x54], [0x4D, 0x51, 0x49, 0x73, 0x64, 0x70]]

/-- `has_mqtt_protocol_name`: behind the fixed header stands one of the two names of the protocol,
with its length in front. -/
def hasMqttProtocolName (payload : List UInt8) : Checked Bool := do
  if payload.length < 8 then return false
  let decoded ← decodeRemainingLength payload 1
  -- the length of the header, or one byte for a length that is not one
  let varStart ← add 1 (decoded.getD (0, 1)).2
  let nameStart ← add varStart 2
  if payload.length < nameStart then return false
  let nameLen ← beAt payload varStart 2
  let nameEnd ← add nameStart nameLen
  if payload.length < nameEnd then return false
  let name ← slice payload nameStart nameEnd
  return decide (name ∈ protocolNames)

/-- The flags that a packet type has to have, if the type fixes them. -/
def expectedFlags (packetType : UInt8) : Option UInt8 :=
  if packetType = 8 ∨ packetType = 10 then some 0x02
  else if packetType ∈ [1, 2, 4, 6, 7, 9, 11, 12, 13, 14] then some 0x00
  else none

/-- `is_mqtt_packet`: the type and its flags are allowed, the declared length ends at most four
bytes behind the payload, and the packet is a CONNECT with the protocol's name in it. -/
def isMqttPacket (payload : List UInt8) : Checked Bool := do
  if payload.length < 2 then return false
  let first ← index payload 0
  let packetType := first >>> 4
  let flags := first &&& 0x0F
  if ¬ (1 ≤ packetType ∧ packetType ≤ 14) then return false
  if (expectedFlags packetType).any (· ≠ flags) then return false
  match ← decodeRemainingLength payload 1 with
  | none => return false
  | some (remainingLen, headerBytes) => do
    let total ← add (1 + headerBytes) remainingLen
    -- a packet may be cut off by four bytes
    let limit ← add payload.length 4
    if limit < total then return false
    if packetType = 1 then hasMqttProtocolName payload else return false

/-! ## Analysis -/

/-- The match on the type of a packet; of the 14 types three have no kind of their own. -/
def packetTypeOf (typeByte : UInt8) : Option MqttPacketType :=
  if typeByte = 1 then some .connect
  else if typeByte = 2 then some .connack
  else if typeByte = 3 then some .publish
  else if typeByte = 4 then some .puback
  else if typeByte = 8 then some .subscribe
  else if typeByte = 9 then some .suback
  else if typeByte = 10 then some .unsubscribe
  else if typeByte = 11 then some .unsuback
  else if typeByte = 12 then some .pingreq
  else if typeByte = 13 then some .pingresp
  else if typeByte = 14 then some .disconnect
  else none

/-- The match on the protocol level. -/
def versionOf (level : UInt8) : Option MqttVersion :=
  if level = 3 then some .v31
  else if level = 4 then some .v311
  else if level = 5 then some .v50
  else none

/-- A text behind its length in two bytes, if all of it is there, it is UTF-8 and not empty. -/
def readText (payload : List UInt8) (start : ℕ) : Checked (Option String) := do
  let textStart ← add start 2
  if payload.length < textStart then return none
  let textLen ← beAt payload start 2
  let textEnd ← add textStart textLen
  if payload.length < textEnd then return none
  let text ← slice payload textStart textEnd
  return (fromUtf8 text).filter fun text => !text.isEmpty

/-- `skip_mqtt5_properties`: the offset behind the properties by their declared length, or the same
offset when that length cannot be read. -/
def skipMqtt5Properties (payload : List UInt8) (offset : ℕ) : Checked ℕ := do
  match ← decodeRemainingLength payload offset with
  | some (propLen, consumed) => do
    let next ← add offset consumed
    add next propLen
  | none => return offset

/-- `payload_start`: level 5 has properties in front of the payload. -/
def payloadStart (payload : List UInt8) (level : UInt8) (flagsEnd : ℕ) : Checked ℕ :=
  if level = 5 then skipMqtt5Properties payload flagsEnd else pure flagsEnd

/-- `parse_connect`: the version by the level behind the protocol's name, and the client identifier,
which stands behind the flags, the keep-alive time and the properties of version 5. -/
def parseConnect (payload : List UInt8) (varStart : ℕ) (info : MqttInfo) : Checked MqttInfo := do
  let nameStart ← add varStart 2
  if payload.length < nameStart then return info
  let nameLen ← beAt payload varStart 2
  let afterName ← add nameStart nameLen
  if payload.length ≤ afterName then return info
  let level ← index payload afterName
  let info := { info with version := versionOf level }
  -- the level, the flags and the two bytes of the keep-alive time
  let flagsEnd ← add afterName 4
  let start ← payloadStart payload level flagsEnd
  let clientId ← readText payload start
  return { info with clientId := clientId.or info.clientId }

/-- `parse_publish_topic`: the text in front of a published message. A topic that cannot be read
leaves the record as it is. -/
def parsePublishTopic (payload : List UInt8) (varStart : ℕ) (info : MqttInfo) :
    Checked MqttInfo := do
  let topic ← readText payload varStart
  return { info with topic := topic.or info.topic }

/-- `analyze_mqtt`: the fixed header, and the parts of CONNECT, PUBLISH and SUBSCRIBE that are
shown. Only the bytes of the first packet of the payload are read. -/
def analyzeMqtt (payload : List UInt8) : Checked (Option MqttInfo) := do
  if payload.length < 2 then return none
  let first ← index payload 0
  let typeByte := first >>> 4
  let flags := first &&& 0x0F
  match ← decodeRemainingLength payload 1 with
  | none => return none
  | some (remainingLen, headerLen) =>
    match packetTypeOf typeByte with
    | none => return none
    | some packetType => do
      let varStart ← add 1 headerLen
      let packetEnd ← add varStart remainingLen
      -- as far as the packet is there
      let available ← sliceTo payload (min payload.length packetEnd)
      let info : MqttInfo := ⟨none, packetType, none, none, none⟩
      match packetType with
      | .connect => do
        let info ← parseConnect available varStart info
        return some info
      | .publish => do
        let info ← parsePublishTopic available varStart
          { info with qos := some ((flags >>> 1) &&& 0x03) }
        return some info
      | .subscribe => return some { info with qos := some 1 }
      | _ => return some info

/-! ## Lengths are read as they were written -/

section Lengths

variable {payload rest : List UInt8} {offset : ℕ}

/-- The loop reads a number that fits in the rounds it has left, behind `i` bytes that gave
`value`. -/
theorem lengthLoop_encode (hlen : payload.length < 2 ^ 63) {rounds i n multiplier value : ℕ}
    (hrounds : 0 < rounds) (hn : n < 128 ^ rounds)
    (h : At payload (offset + i) (Septets.encode n ++ rest)) :
    lengthLoop payload offset rounds i multiplier value =
      pure (some (value + n * multiplier, i + (Septets.encode n).length)) := by
  induction rounds generalizing i n multiplier value with
  | zero => exact absurd hrounds (Nat.lt_irrefl 0)
  | succ rounds ih =>
    have hlength := h.length_eq
    rw [List.length_append] at hlength
    by_cases hlast : n < 128
    -- the last byte
    · have hbyte : (UInt8.ofNat n).toNat = n := UInt8.toNat_ofNat_of_lt' (hlast.trans (by decide))
      rw [Septets.encode_of_lt hlast] at h hlength ⊢
      rw [List.length_singleton] at hlength
      rw [lengthLoop, add_eq (by omega), pure_bind', if_neg (by omega), h.index, pure_bind',
        if_pos ((Septets.continues_iff _).mpr (hbyte.trans_lt hlast)), Septets.low_toNat, hbyte,
        Nat.mod_eq_of_lt hlast, List.length_singleton]
    -- seven bits, and the rest of the number in one round less
    · have hmore : 128 ≤ n := Nat.not_lt.mp hlast
      have hbyte : (UInt8.ofNat (n % 128 + 128)).toNat = n % 128 + 128 :=
        UInt8.toNat_ofNat_of_lt' (by rw [UInt8.size]; omega)
      have hrounds' : 0 < rounds := by
        rcases rounds with _ | rounds
        · exact absurd hn hlast
        · exact Nat.succ_pos rounds
      have hdiv : n / 128 < 128 ^ rounds := Nat.div_lt_of_lt_mul (pow_succ' 128 rounds ▸ hn)
      rw [Septets.encode_of_le hmore] at h hlength ⊢
      have hat : At payload (offset + i)
          (UInt8.ofNat (n % 128 + 128) :: (Septets.encode (n / 128) ++ rest)) := h
      have hcontinues : ¬ UInt8.ofNat (n % 128 + 128) &&& 0x80 = 0 := by
        rw [Septets.continues_iff, hbyte]
        omega
      have hvalue : value + n % 128 * multiplier + n / 128 * (multiplier * 128) =
          value + n * multiplier := by
        calc value + n % 128 * multiplier + n / 128 * (multiplier * 128)
            = value + (n % 128 + 128 * (n / 128)) * multiplier := by ring
          _ = value + n * multiplier := by rw [Nat.mod_add_div]
      rw [List.length_cons] at hlength ⊢
      rw [lengthLoop, add_eq (by omega), pure_bind', if_neg (by omega), hat.index, pure_bind',
        if_neg hcontinues, Septets.low_toNat, hbyte, Nat.add_mod_right, Nat.mod_mod,
        ih hrounds' hdiv hat.next, hvalue, Nat.add_assoc, Nat.add_comm 1]

/-- A length below `2 ^ 28` is read as it was written, whatever follows. -/
theorem decodeRemainingLength_eq (hlen : payload.length < 2 ^ 63) {n : ℕ} (hn : n < 2 ^ 28)
    (h : At payload offset (Septets.encode n ++ rest)) :
    decodeRemainingLength payload offset = pure (some (n, (Septets.encode n).length)) := by
  have hloop : lengthLoop payload offset 4 0 1 0 =
      pure (some (0 + n * 1, 0 + (Septets.encode n).length)) :=
    lengthLoop_encode hlen (by decide) hn h
  rwa [Nat.zero_add, Nat.mul_one, Nat.zero_add] at hloop

/-- What is read is below `2 ^ 28`, and it takes four bytes at most. -/
theorem lengthLoop_ensures {rounds i multiplier value : ℕ} (hbound : offset + i + rounds < 2 ^ 64)
    (hvalue : value < multiplier) :
    Ensures (lengthLoop payload offset rounds i multiplier value) fun decoded =>
      ∀ d, decoded = some d → d.1 < multiplier * 128 ^ rounds ∧ d.2 ≤ i + rounds := by
  induction rounds generalizing i multiplier value with
  | zero => exact ensures_none
  | succ rounds ih =>
    rw [lengthLoop]
    refine (ensures_add (by omega)).bind fun idx hidx => ?_
    refine Ensures.ite (fun _ => ensures_none) fun hend => ?_
    refine (ensures_index (by omega)).bind fun byte _ => ?_
    -- seven more bits are below the next multiplier
    have hlow : (byte &&& 0x7F).toNat + 1 ≤ 128 := by
      rw [Septets.low_toNat]
      exact Nat.mod_lt _ (by decide)
    have hnext : value + (byte &&& 0x7F).toNat * multiplier < multiplier * 128 :=
      calc value + (byte &&& 0x7F).toNat * multiplier
          < multiplier + (byte &&& 0x7F).toNat * multiplier := Nat.add_lt_add_right hvalue _
        _ = ((byte &&& 0x7F).toNat + 1) * multiplier := by ring
        _ ≤ 128 * multiplier := Nat.mul_le_mul_right _ hlow
        _ = multiplier * 128 := Nat.mul_comm _ _
    have hpow : multiplier * 128 * 128 ^ rounds = multiplier * 128 ^ (rounds + 1) := by ring
    refine Ensures.ite (fun _ => ?_) fun _ => ?_
    -- the last byte ends the number, another one goes on
    · refine ensures_some ⟨?_, by omega⟩
      rw [← hpow]
      exact hnext.trans_le (Nat.le_mul_of_pos_right _ (Nat.pow_pos (by decide)))
    · refine (ih (by omega) hnext).mono fun decoded hdecoded d hd => ?_
      obtain ⟨hlt, hle⟩ := hdecoded d hd
      exact ⟨hpow ▸ hlt, by omega⟩

theorem decodeRemainingLength_ensures (hbound : offset + 4 < 2 ^ 64) :
    Ensures (decodeRemainingLength payload offset) fun decoded =>
      ∀ d, decoded = some d → d.1 < 2 ^ 28 ∧ d.2 ≤ 4 := by
  refine (lengthLoop_ensures hbound Nat.one_pos).mono fun decoded hdecoded d hd => ?_
  obtain ⟨hlt, hle⟩ := hdecoded d hd
  exact ⟨hlt, by omega⟩

/-- A text behind its length is read as it is. -/
theorem readText_eq {payload : List UInt8} {start : ℕ} {text : String}
    (hlen : payload.length < 2 ^ 63) (htext : text ≠ "")
    (hlength : (nameBytes text).length < 2 ^ 16)
    (h : At payload start (BigEndian.bytes 2 (nameBytes text).length ++ (nameBytes text ++ rest))) :
    readText payload start = pure (some text) := by
  have hstart := h.skip_of_length (BigEndian.length_bytes 2 _)
  have hsize := hstart.length_eq
  rw [List.length_append] at hsize
  have hfilter : (some text).filter (fun text => !text.isEmpty) = some text := by
    rw [Option.filter_some, if_pos]
    simpa using htext
  rw [readText, add_eq (by omega), pure_bind', if_neg (by omega), beAt_eq h hlength, pure_bind',
    add_eq (by omega), pure_bind', if_neg (by omega), hstart.slice, pure_bind',
    fromUtf8_nameBytes, hfilter]

end Lengths

/-! ## Safety -/

section Safety

variable {payload : List UInt8} {info : MqttInfo}

theorem readText_ensures (hlen : payload.length < 2 ^ 63) {start : ℕ}
    (hstart : start < 2 ^ 63 + 2 ^ 30) :
    Ensures (readText payload start) fun _ => True := by
  refine (ensures_add (by omega)).bind fun textStart htextStart => ?_
  refine Ensures.ite (fun _ => ensures_pure trivial) fun _ => ?_
  refine (beAt_ensures (by omega)).bind fun textLen htextLen => ?_
  refine (ensures_add (by omega)).bind fun textEnd htextEnd => ?_
  refine Ensures.ite (fun _ => ensures_pure trivial) fun _ => ?_
  exact (ensures_slice (by omega) (by omega)).bind fun _ _ => ensures_pure trivial

theorem payloadStart_ensures {level : UInt8} {flagsEnd : ℕ} (hend : flagsEnd < 2 ^ 63 + 2 ^ 10) :
    Ensures (payloadStart payload level flagsEnd) fun start => start < 2 ^ 63 + 2 ^ 30 := by
  refine Ensures.ite (fun _ => ?_) fun _ => ensures_pure (by omega)
  refine (decodeRemainingLength_ensures (by omega)).bindOption (fun d hd => ?_)
    (ensures_pure (by omega))
  refine (ensures_add (by omega)).bind fun next hnext => ?_
  exact (ensures_add (by omega)).mono fun start hstart => by omega

theorem parseConnect_ensures (hlen : payload.length < 2 ^ 63) {varStart : ℕ}
    (hstart : varStart < 2 ^ 61) : Ensures (parseConnect payload varStart info) fun _ => True := by
  refine (ensures_add (by omega)).bind fun nameStart hnameStart => ?_
  refine Ensures.ite (fun _ => ensures_pure trivial) fun _ => ?_
  refine (beAt_ensures (by omega)).bind fun nameLen hnameLen => ?_
  refine (ensures_add (by omega)).bind fun afterName hafterName => ?_
  refine Ensures.ite (fun _ => ensures_pure trivial) fun _ => ?_
  refine (ensures_index (by omega)).bind fun level _ => ?_
  refine (ensures_add (by omega)).bind fun flagsEnd hflagsEnd => ?_
  refine (payloadStart_ensures (by omega)).bind fun start hstart => ?_
  exact (readText_ensures (by omega) hstart).bind fun _ _ => ensures_pure trivial

/-- No payload makes the analysis fail. -/
theorem analyzeMqtt_ensures (hlen : payload.length < 2 ^ 63) :
    Ensures (analyzeMqtt payload) fun _ => True := by
  refine Ensures.ite (fun _ => ensures_pure trivial) fun _ => ?_
  refine (ensures_index (by omega)).bind fun first _ => ?_
  refine (decodeRemainingLength_ensures (by decide)).bindOption (fun d hd => ?_)
    (ensures_pure trivial)
  simp only []
  -- an unknown type, a CONNECT, a PUBLISH, a SUBSCRIBE, and the others
  split
  · exact ensures_pure trivial
  · refine (ensures_add (by omega)).bind fun varStart hvarStart => ?_
    refine (ensures_add (by omega)).bind fun packetEnd hpacketEnd => ?_
    refine (ensures_sliceTo (Nat.min_le_left _ _)).bind fun available havailable => ?_
    split
    · exact (parseConnect_ensures (by omega) (by omega)).bind fun _ _ => ensures_pure trivial
    · refine Ensures.bind (p := fun _ => True) ?_ fun _ _ => ensures_pure trivial
      exact (readText_ensures (by omega) (by omega)).bind fun _ _ => ensures_pure trivial
    · exact ensures_pure trivial
    · exact ensures_pure trivial

end Safety

/-! ## CONNECT packets -/

/-- The protocol levels of a CONNECT packet. They decide what stands between the keep-alive time and
the client identifier. -/
inductive Level
  | v31 | v311
  /-- Level 5 has properties in front of the client identifier. -/
  | v50 (properties : List UInt8) (hlength : properties.length < 2 ^ 28)

namespace Level

/-- The level as it is written behind the protocol's name, from which `parse_connect` takes the
version. -/
def byte : Level → UInt8
  | v31 => 3
  | v311 => 4
  | v50 _ _ => 5

/-- The version that a level stands for. -/
def version : Level → MqttVersion
  | v31 => .v31
  | v311 => .v311
  | v50 _ _ => .v50

/-- The properties with their length. -/
def encode : Level → List UInt8
  | v50 properties _ => Septets.encode properties.length ++ properties
  | _ => []

end Level

/-- A CONNECT packet. Behind the client identifier are the will, the user name and the password. -/
structure Connect where
  name : List UInt8
  level : Level
  flags : UInt8
  keepAlive : List UInt8
  clientId : String
  more : List UInt8
  name_mem : name ∈ protocolNames
  length_keepAlive : keepAlive.length = 2
  clientId_ne : clientId ≠ ""
  length_clientId : (nameBytes clientId).length < 2 ^ 16

namespace Connect

variable (connect : Connect) {rest : List UInt8}

/-- The bytes behind the protocol level. -/
def tail : List UInt8 :=
  [connect.flags] ++ (connect.keepAlive ++ (connect.level.encode ++
    (BigEndian.bytes 2 (nameBytes connect.clientId).length ++
      (nameBytes connect.clientId ++ connect.more))))

/-- The bytes behind the fixed header. -/
def body : List UInt8 :=
  BigEndian.bytes 2 connect.name.length ++
    (connect.name ++ (connect.level.byte :: connect.tail))

/-- The bytes of the packet. -/
def encode : List UInt8 := 0x10 :: (Septets.encode connect.body.length ++ connect.body)

/-- What there is to report of the packet. -/
def info : MqttInfo where
  version := some connect.level.version
  packetType := .connect
  clientId := some connect.clientId
  topic := none
  qos := none

theorem length_name : 4 ≤ connect.name.length ∧ connect.name.length ≤ 6 := by
  have hmem := connect.name_mem
  simp only [protocolNames, List.mem_cons, List.not_mem_nil, or_false] at hmem
  rcases hmem with hmem | hmem <;> rw [hmem] <;> decide

theorem length_tail : 5 ≤ connect.tail.length := by
  simp only [tail, List.length_append, List.length_singleton, connect.length_keepAlive,
    BigEndian.length_bytes]
  omega

theorem versionOf_byte : versionOf connect.level.byte = some connect.level.version := by
  rcases connect.level with _ | _ | _ <;> rfl

/-- Behind the flags and the keep-alive time are the properties, if there are any, and then the
client identifier. -/
theorem payloadStart_eq {payload : List UInt8} {flagsEnd : ℕ} (hlen : payload.length < 2 ^ 63)
    (h : At payload flagsEnd (connect.level.encode ++ rest)) :
    payloadStart payload connect.level.byte flagsEnd =
      pure (flagsEnd + connect.level.encode.length) := by
  rcases hlevel : connect.level with _ | _ | ⟨properties, hlength⟩
  -- the two older levels have no properties
  · rfl
  · rfl
  · rw [hlevel, Level.encode, List.append_assoc] at h
    have hsize := h.skip.skip.length_eq
    rw [payloadStart, Level.byte, if_pos rfl, skipMqtt5Properties,
      decodeRemainingLength_eq hlen hlength h, pure_bind']
    simp only []
    rw [add_eq (by omega), pure_bind', add_eq (by omega), Level.encode, List.length_append,
      Nat.add_assoc]

/-- The version and the client identifier are read off the packet. -/
theorem parseConnect_body {payload : List UInt8} {varStart : ℕ} (hlen : payload.length < 2 ^ 63)
    (h : At payload varStart connect.body) :
    parseConnect payload varStart ⟨none, .connect, none, none, none⟩ = pure connect.info := by
  have hname : connect.name.length < 256 ^ 2 := connect.length_name.2.trans_lt (by decide)
  -- the parts of the body by their offsets
  have hstart := h.skip_of_length (BigEndian.length_bytes 2 _)
  have hlevel := hstart.skip
  have hproperties : At payload (varStart + 2 + connect.name.length + 4)
      (connect.level.encode ++ (BigEndian.bytes 2 (nameBytes connect.clientId).length ++
        (nameBytes connect.clientId ++ connect.more))) :=
    hlevel.next.skip.skip_of_length connect.length_keepAlive
  have hclient := hproperties.skip
  have hsize := hclient.length_eq
  rw [List.length_append, BigEndian.length_bytes] at hsize
  rw [parseConnect, add_eq (by omega), pure_bind', if_neg (by omega), beAt_eq h hname, pure_bind',
    add_eq (by omega), pure_bind', if_neg (by omega), hlevel.index, pure_bind',
    add_eq (by omega), pure_bind', versionOf_byte, connect.payloadStart_eq hlen hproperties,
    pure_bind', readText_eq hlen connect.clientId_ne connect.length_clientId hclient, pure_bind']
  rfl

theorem encode_append (rest : List UInt8) : connect.encode ++ rest =
    0x10 :: (Septets.encode connect.body.length ++ (connect.body ++ rest)) := by
  rw [encode, List.cons_append, List.append_assoc]

theorem body_append (rest : List UInt8) : connect.body ++ rest =
    BigEndian.bytes 2 connect.name.length ++
      (connect.name ++ (connect.level.byte :: (connect.tail ++ rest))) := by
  rw [body, List.append_assoc, List.append_assoc, List.cons_append]

theorem at_length (rest : List UInt8) : At (connect.encode ++ rest) 1
    (Septets.encode connect.body.length ++ (connect.body ++ rest)) := by
  have hfirst : At (connect.encode ++ rest) 0 _ := ⟨Nat.zero_le _, connect.encode_append rest⟩
  exact hfirst.next

theorem index_encode (rest : List UInt8) : index (connect.encode ++ rest) 0 = pure 0x10 := rfl

/-- The packet ends where its length says. -/
theorem length_encode :
    1 + (Septets.encode connect.body.length).length + connect.body.length =
      connect.encode.length := by
  rw [encode, List.length_cons, List.length_append]
  omega

/-- A CONNECT packet is analysed as what it says, whatever follows it. -/
theorem analyzeMqtt_encode (hbody : connect.body.length < 2 ^ 28)
    (hlen : (connect.encode ++ rest).length < 2 ^ 63) :
    analyzeMqtt (connect.encode ++ rest) = pure (some connect.info) := by
  have hheader := connect.at_length rest
  have hend := connect.length_encode
  have hpos := List.length_pos_iff.mpr (Septets.encode_ne_nil connect.body.length)
  have hwhole : connect.encode.length ≤ (connect.encode ++ rest).length := by
    rw [List.length_append]
    exact Nat.le_add_right _ _
  -- the declared length ends the packet, whatever is behind it
  have hbodyAt : At connect.encode (1 + (Septets.encode connect.body.length).length)
      connect.body := by
    rw [← Nat.zero_add 1]
    exact (At.start connect.encode).next.skip
  have htype : packetTypeOf ((0x10 : UInt8) >>> 4) = some .connect := rfl
  rw [analyzeMqtt, if_neg (by omega), index_encode, pure_bind',
    decodeRemainingLength_eq hlen hbody hheader, pure_bind']
  simp only [htype]
  rw [add_eq (by omega), pure_bind', add_eq (by omega), pure_bind', hend,
    Nat.min_eq_right hwhole, sliceTo_eq hwhole, List.take_left, pure_bind',
    connect.parseConnect_body (by omega) hbodyAt, pure_bind']

/-- The protocol name of a CONNECT packet is found. -/
theorem hasMqttProtocolName_encode (hbody : connect.body.length < 2 ^ 28)
    (hlen : (connect.encode ++ rest).length < 2 ^ 63) :
    hasMqttProtocolName (connect.encode ++ rest) = pure true := by
  have hheader := connect.at_length rest
  have hvar := hheader.skip
  rw [connect.body_append rest] at hvar
  -- the name stands behind its length, at the beginning of the body
  have hstart := hvar.skip_of_length (BigEndian.length_bytes 2 _)
  have hsize := hstart.skip.length_eq
  have htail := connect.length_tail
  have hpos := List.length_pos_iff.mpr (Septets.encode_ne_nil connect.body.length)
  have hname := connect.length_name
  have hrest : (connect.tail ++ rest).length = connect.tail.length + rest.length :=
    List.length_append
  rw [List.length_cons] at hsize
  rw [hasMqttProtocolName, if_neg (by omega), decodeRemainingLength_eq hlen hbody hheader,
    pure_bind', Option.getD_some, add_eq (by omega), pure_bind', add_eq (by omega), pure_bind',
    if_neg (by omega), beAt_eq hvar (hname.2.trans_lt (by decide)), pure_bind',
    add_eq (by omega), pure_bind', if_neg (by omega), hstart.slice, pure_bind',
    decide_eq_true connect.name_mem]

/-- A CONNECT packet is taken for MQTT, whatever follows it. -/
theorem isMqttPacket_encode (hbody : connect.body.length < 2 ^ 28)
    (hlen : (connect.encode ++ rest).length < 2 ^ 63) :
    isMqttPacket (connect.encode ++ rest) = pure true := by
  have hheader := connect.at_length rest
  have hend := connect.length_encode
  have hpos := List.length_pos_iff.mpr (Septets.encode_ne_nil connect.body.length)
  have hsize : (connect.encode ++ rest).length = connect.encode.length + rest.length :=
    List.length_append
  have htype : (0x10 : UInt8) >>> 4 = 1 := rfl
  have hflags : (expectedFlags 1).any (· ≠ (0x10 : UInt8) &&& 0x0F) = false := rfl
  rw [isMqttPacket, if_neg (by omega), index_encode, pure_bind', htype, if_neg (by decide), hflags,
    if_neg Bool.false_ne_true, decodeRemainingLength_eq hlen hbody hheader, pure_bind']
  simp only []
  rw [add_eq (by omega), pure_bind', add_eq (by omega), pure_bind', if_neg (by omega),
    if_pos trivial, connect.hasMqttProtocolName_encode hbody hlen]

end Connect

/-- A length is read as it was written, at any offset and with anything behind it, and of a CONNECT
packet the version and the client identifier are. A length is one below `2 ^ 28`, which four bytes
hold. A packet may have a user name, a password, a will and, in version 5, properties; what follows
its identifier is not looked at. -/
theorem analyzeMqtt_connect :
    (∀ (front rest : List UInt8) (n : ℕ), n < 2 ^ 28 →
      (front ++ (Septets.encode n ++ rest)).length < 2 ^ 63 →
      decodeRemainingLength (front ++ (Septets.encode n ++ rest)) front.length =
        pure (some (n, (Septets.encode n).length))) ∧
    ∀ (connect : Connect) (rest : List UInt8), connect.body.length < 2 ^ 28 →
      (connect.encode ++ rest).length < 2 ^ 63 →
      analyzeMqtt (connect.encode ++ rest) = pure (some connect.info) := by
  constructor
  · intro front rest n hn hlen
    have h : At (front ++ (Septets.encode n ++ rest)) (0 + front.length) _ := (At.start _).skip
    rw [Nat.zero_add] at h
    exact decodeRemainingLength_eq hlen hn h
  · exact fun connect rest hbody hlen => connect.analyzeMqtt_encode hbody hlen

/-- A CONNECT packet of level 5 with three bytes of properties. -/
def sampleConnect : Connect where
  name := [0x4D, 0x51, 0x54, 0x54]
  level := .v50 [0x21, 0, 20] (by decide)
  flags := 2
  keepAlive := [0, 60]
  clientId := "sensor"
  more := []
  name_mem := by decide
  length_keepAlive := rfl
  clientId_ne := by decide
  length_clientId := by decide +kernel

theorem analyzeMqtt_sampleConnect :
    decodeRemainingLength [0x30, 0x80, 0x01, 0xFF] 1 = pure (some (128, 2)) ∧
      analyzeMqtt (sampleConnect.encode ++ [0xC0, 0x00]) =
        pure (some ⟨some .v50, .connect, some "sensor", none, none⟩) := by
  have hencode : Septets.encode 128 = [0x80, 0x01] := by
    rw [Septets.encode_of_le (by decide), Septets.encode_of_lt (by decide)]
    rfl
  have hlength := analyzeMqtt_connect.1 [0x30] [0xFF] 128 (by decide) (by rw [hencode]; decide)
  rw [hencode] at hlength
  refine ⟨hlength, analyzeMqtt_connect.2 sampleConnect _ ?_ ?_⟩ <;> decide +kernel

end Mqtt

end RustNet
