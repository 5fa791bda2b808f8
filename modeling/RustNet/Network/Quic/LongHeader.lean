import RustNet.Network.Quic.Datagram
import RustNet.Network.Quic.FrameSequence

/-!
# Packets with a long header

The packets with a long header as values with an encoding of their own, and what the parser makes of
one at the front of a datagram: it reads the packet and goes on behind it. Conversely, where it goes
on behind a packet with a long header, the encoding of one stands there.

The parser reads a Length in every packet with a long header. Version Negotiation and Retry have
none: `Quic.LongPacket.CarriesLength` says for which packets what is read is a Length.

## Main results

* `Quic.parsePacket_encode`: the packet is read, and what lies behind it is left;
* `Quic.parsePacket_long`: the parser goes on behind a packet, or it stops there;
* `Quic.LongPacket.append_inj`: there is one packet at the front of a payload.
-/

namespace RustNet.Quic

open Checked

/-! ## Encoding -/

/-- The four bytes of a version. -/
structure Version where
  (b₀ b₁ b₂ b₃ : UInt8)

namespace Version

/-- The version as a number. -/
def number (v : Version) : UInt32 := be32 v.b₀ v.b₁ v.b₂ v.b₃

/-- The bytes in their order. -/
def encode (v : Version) : List UInt8 := [v.b₀, v.b₁, v.b₂, v.b₃]

end Version

/-- The length and the bytes. -/
def ConnectionId.encode (id : ConnectionId) : List UInt8 :=
  UInt8.ofNat id.bytes.length :: id.bytes

/-- The bytes of a token that may be absent. -/
def tokenBytes (token : Option LengthPrefixed) : List UInt8 :=
  (token.map LengthPrefixed.encode).getD []

/-- The packet type that the first byte and the version stand for. -/
def longPacketType (firstByte : UInt8) (version : UInt32) : QuicPacketType :=
  if version = 0 then .versionNegotiation else getLongPacketType firstByte version

/-- A packet with a long header. The body is the packet number and the payload; only an Initial
packet has a token. -/
structure LongPacket where
  firstByte : UInt8
  version : Version
  dcid : ConnectionId
  scid : ConnectionId
  token : Option LengthPrefixed
  body : LengthPrefixed
  long_form : firstByte &&& 0x80 ≠ 0
  token_isSome : token.isSome ↔ longPacketType firstByte version.number = .initial

namespace LongPacket

/-- The packet type, from the two bits of the first byte that the version gives a meaning to. -/
def packetType (p : LongPacket) : QuicPacketType := longPacketType p.firstByte p.version.number

/-- The types of the packets that have a Length. -/
def CarriesLength (p : LongPacket) : Prop :=
  p.packetType = .initial ∨ p.packetType = .zeroRtt ∨ p.packetType = .handshake

/-- What stands behind the version. -/
def fields (p : LongPacket) : List UInt8 :=
  p.dcid.encode ++ (p.scid.encode ++ (tokenBytes p.token ++ p.body.encode))

/-- The bytes of a packet. -/
def encode (p : LongPacket) : List UInt8 := p.firstByte :: (p.version.encode ++ p.fields)

end LongPacket

theorem LengthPrefixed.encode_ne_nil (p : LengthPrefixed) : p.encode ≠ [] :=
  List.append_ne_nil_of_left_ne_nil p.length.encode_ne_nil _

theorem ConnectionId.toNat_length (id : ConnectionId) :
    (UInt8.ofNat id.bytes.length).toNat = id.bytes.length := by
  rw [UInt8.toNat_ofNat']
  exact Nat.mod_eq_of_lt (Nat.lt_succ_of_le id.length_le)

/-! ## Fields -/

@[simp]
theorem ConnectionId.length_encode (id : ConnectionId) :
    id.encode.length = id.bytes.length + 1 := List.length_cons

section Packet

variable {payload rest : List UInt8} {offset : ℕ}

theorem skipToken_at {token : Option LengthPrefixed} {packetType : QuicPacketType}
    (htype : token.isSome ↔ packetType = .initial)
    (h : At payload offset (tokenBytes token ++ rest)) :
    skipToken payload packetType offset = pure (some (offset + (tokenBytes token).length)) := by
  unfold skipToken
  rcases token with _ | token
  · rw [if_neg (fun hinitial => nomatch htype.mpr hinitial)]
    rfl
  · have hbytes : tokenBytes (some token) = token.length.encode ++ token.data := rfl
    rw [hbytes, List.append_assoc] at h
    have hend := h.skip.skip.le_length
    rw [if_pos (htype.mp rfl), readVarint_at h, pure_bind']
    dsimp only
    rw [token.length_eq, if_pos hend, hbytes, List.length_append, Nat.add_assoc]

/-- The count of bytes that follow it, if the payload has that many. -/
theorem exists_lengthPrefixed (v : Varint) (rest : List UInt8) (h : v.value ≤ rest.length) :
    ∃ (p : LengthPrefixed) (rest' : List UInt8),
      p.length = v ∧ v.encode ++ rest = p.encode ++ rest' := by
  have hlength : v.value = (rest.take v.value).length := by
    rw [List.length_take, Nat.min_eq_left h]
  refine ⟨⟨v, rest.take v.value, hlength⟩, rest.drop v.value, rfl, ?_⟩
  rw [LengthPrefixed.encode, List.append_assoc, List.take_append_drop]

/-- The version and what stands behind it, if the payload has that many bytes. -/
theorem exists_version {firstByte : UInt8} {tail : List UInt8}
    (h : 6 ≤ (firstByte :: tail).length) :
    ∃ (v : Version) (len : UInt8) (rest : List UInt8), tail = v.encode ++ len :: rest := by
  rcases tail with _ | ⟨b₀, _ | ⟨b₁, _ | ⟨b₂, _ | ⟨b₃, _ | ⟨len, rest⟩⟩⟩⟩⟩
  iterate 5 exact absurd h (by simp)
  exact ⟨⟨b₀, b₁, b₂, b₃⟩, len, rest, rfl⟩

/-- The length of a connection ID, if the payload has that many bytes behind it. -/
theorem exists_connectionId_of_at {len : UInt8} (h : At payload offset (len :: rest))
    (hend : offset + 1 + len.toNat ≤ payload.length) :
    ∃ (id : ConnectionId) (rest' : List UInt8),
      len :: rest = id.encode ++ rest' ∧ At payload (offset + 1 + len.toNat) rest' := by
  have hpayload := h.next.length_eq
  have hlength : (rest.take len.toNat).length = len.toNat := by
    rw [List.length_take]
    omega
  have hle : (rest.take len.toNat).length ≤ 255 := hlength.trans_le (Nat.le_of_lt_succ len.toNat_lt)
  -- any length byte is the length of an id
  refine ⟨⟨rest.take len.toNat, hle⟩, rest.drop len.toNat, ?_, ?_⟩
  · show _ = UInt8.ofNat (rest.take len.toNat).length :: rest.take len.toNat ++ _
    rw [hlength, UInt8.ofNat_toNat, List.cons_append, List.take_append_drop]
  · have hnext := h.next
    rw [← List.take_append_drop len.toNat rest] at hnext
    have hskip := hnext.skip
    rwa [hlength] at hskip

theorem skipToken_of_at (packetType : QuicPacketType) {data : List UInt8}
    (h : At payload offset data) :
    Ensures (skipToken payload packetType offset) fun offset? => ∀ next, offset? = some next →
      ∃ (token : Option LengthPrefixed) (rest : List UInt8),
        (token.isSome ↔ packetType = .initial) ∧ data = tokenBytes token ++ rest ∧
          next = offset + (tokenBytes token).length := by
  unfold skipToken
  refine Ensures.ite (fun hinitial => ?_) fun hother => ensures_some ?_
  · refine (readVarint_of_at h).bindOption (fun tokenLen hread => ?_) ensures_none
    obtain ⟨v, rest, rfl, rfl⟩ := hread
    have hlen := h.skip.length_eq
    refine Ensures.ite (fun hend => ensures_some ?_) fun _ => ensures_none
    dsimp only at hend
    -- what was skipped is a token of that length
    obtain ⟨token, rest', rfl, hdata⟩ := exists_lengthPrefixed v rest (by omega)
    refine ⟨some token, rest', iff_of_true rfl hinitial, hdata, ?_⟩
    show _ = offset + token.encode.length
    rw [token.length_eq, LengthPrefixed.encode, List.length_append, Nat.add_assoc]
  · exact ⟨none, data, iff_of_false Bool.false_ne_true hother, rfl, rfl⟩

/-! ## One packet -/

variable [DeepPacketInspection] [QuicCrypto]

namespace LongPacket

/-- The record that the parser starts with. -/
def newInfo (p : LongPacket) : QuicInfo :=
  { QuicInfo.new p.version.number with packetType := p.packetType, connectionId := p.dcid.bytes }

/-- What the parser reads from the packet. -/
def record (p : LongPacket) : Checked QuicInfo :=
  extractTlsFromLongHeaderPacket p.encode p.newInfo p.dcid.bytes p.version.number p.packetType

/-- The record of the packet. -/
def info (p : LongPacket) : QuicInfo :=
  match p.record with
  | .ok info => info
  | .error _ => p.newInfo

theorem record_eq (p : LongPacket) :
    p.record = pure p.info ∧
      Records (longHeaderState p.packetType) p.info.connectionState p.info.connectionClose := by
  have hnew : p.newInfo.connectionClose = none := rfl
  obtain ⟨info, hrecord, hstate⟩ := extractTlsFromLongHeaderPacket_ensures p.encode p.dcid.bytes
    p.version.number p.packetType hnew
  have heq : p.record = pure info := hrecord
  have hinfo : p.info = info := by
    rw [LongPacket.info, heq]
    rfl
  rw [hinfo]
  exact ⟨heq, hstate⟩

end LongPacket

/-- Behind the connection IDs: the token, the Length, and the packet as far as it says. -/
theorem parseLongHeaderRest_at {token : Option LengthPrefixed} {body : LengthPrefixed}
    {packetType : QuicPacketType} (htype : token.isSome ↔ packetType = .initial)
    (info : QuicInfo) (dcid : List UInt8) (version : UInt32)
    (h : At payload offset (tokenBytes token ++ (body.encode ++ rest))) :
    parseLongHeaderRest payload info dcid version packetType offset = (do
      let total := offset + (tokenBytes token).length + body.encode.length
      let info ← extractTlsFromLongHeaderPacket (payload.take total) info dcid version packetType
      return (some info, total)) := by
  have hbody := h.skip
  have hend := hbody.skip.le_length
  have hpos := List.length_pos_of_ne_nil body.encode_ne_nil
  have hlength := hbody
  rw [LengthPrefixed.encode, List.append_assoc] at hlength
  -- the packet ends where its length says, behind the length itself
  have htotal : offset + (tokenBytes token).length + body.length.encode.length +
      body.length.value = offset + (tokenBytes token).length + body.encode.length := by
    rw [body.length_eq, LengthPrefixed.encode, List.length_append, Nat.add_assoc]
  rw [parseLongHeaderRest, skipToken_at htype h, pure_bind']
  dsimp only
  rw [if_neg (by omega), readVarint_at hlength, pure_bind']
  dsimp only
  rw [htotal, if_pos hend, sliceTo_eq hend, pure_bind', Nat.min_eq_left hend]

/-- The parser reads the packet and leaves what lies behind it. -/
theorem parseLongHeaderPacketWithLength_encode (p : LongPacket) (rest : List UInt8) :
    parseLongHeaderPacketWithLength (p.encode ++ rest) =
      pure (some p.info, p.encode.length) := by
  have hstart : At (p.encode ++ rest) 0 (p.firstByte :: (p.version.encode ++
      (UInt8.ofNat p.dcid.bytes.length :: (p.dcid.bytes ++
        (UInt8.ofNat p.scid.bytes.length :: (p.scid.bytes ++
          (tokenBytes p.token ++ (p.body.encode ++ rest)))))))) := by
    simpa only [LongPacket.encode, LongPacket.fields, ConnectionId.encode, List.cons_append,
      List.append_assoc] using At.start (p.encode ++ rest)
  -- the offsets that the parser computes are those of the fields
  have hversion : Indexed.be32At (p.encode ++ rest) 1 = pure p.version.number := rfl
  have hdcid : At (p.encode ++ rest) 5 _ := hstart.next.skip
  have hscid : At (p.encode ++ rest) (6 + p.dcid.bytes.length) _ := hdcid.next.skip
  have htoken := hscid.next.skip
  have hscidLen := hscid.length_eq
  rw [List.length_cons] at hscidLen
  have htokenLen := htoken.le_length
  have hbodyLen := htoken.skip.skip.length_eq
  -- the lengths of the fields add up to that of the packet
  have htotal : p.encode.length = 6 + p.dcid.bytes.length + 1 + p.scid.bytes.length +
      (tokenBytes p.token).length + p.body.encode.length := by
    rw [List.length_append] at hbodyLen
    omega
  -- the packet that is handed on is cut off at the Length
  have hpacket : (p.encode ++ rest).take p.encode.length = p.encode := List.take_left
  rw [parseLongHeaderPacketWithLength, if_neg (by omega), hstart.index, pure_bind', hversion,
    pure_bind', hdcid.index, pure_bind']
  dsimp only
  rw [p.dcid.toNat_length, if_neg (by omega), hdcid.next.slice, pure_bind', if_neg (by omega),
    hscid.index, pure_bind', p.scid.toNat_length, if_neg (by omega)]
  refine (parseLongHeaderRest_at p.token_isSome _ _ _ htoken).trans ?_
  rw [← htotal]
  dsimp only
  rw [hpacket]
  show p.record >>= _ = _
  rw [p.record_eq.1, pure_bind']

theorem parsePacket_encode (p : LongPacket) (rest : List UInt8) :
    parsePacket (p.encode ++ rest) = pure (some p.info, p.encode.length) := by
  have hstart : At (p.encode ++ rest) 0 (p.firstByte :: (p.version.encode ++ p.fields ++ rest)) :=
    At.start _
  rw [parsePacket, hstart.index, pure_bind', if_pos p.long_form,
    parseLongHeaderPacketWithLength_encode]

/-! ## What is read as a packet -/

/-- A packet behind which the payload goes on is there with all its fields. -/
theorem parseLongHeaderRest_of_at {info : QuicInfo} (dcid : List UInt8) (version : UInt32)
    (packetType : QuicPacketType) {data : List UInt8} (hnew : info.connectionClose = none)
    (h : At payload offset data) :
    Ensures (parseLongHeaderRest payload info dcid version packetType offset) fun parsed =>
      parsed.2 = payload.length ∨
        ∃ (token : Option LengthPrefixed) (body : LengthPrefixed) (rest : List UInt8),
          (token.isSome ↔ packetType = .initial) ∧
            data = tokenBytes token ++ (body.encode ++ rest) := by
  have hextract := fun packetData =>
    extractTlsFromLongHeaderPacket_ensures packetData dcid version packetType hnew
  unfold parseLongHeaderRest
  refine (skipToken_of_at packetType h).bindOption (fun next hnext => ?_) (ensures_pure (.inl rfl))
  obtain ⟨token, rest, htype, rfl, rfl⟩ := hnext
  refine Ensures.ite (fun _ => ensures_pure (.inl rfl)) fun _ => ?_
  refine (readVarint_of_at h.skip).bindOption (fun length hlength => ?_) (ensures_pure (.inl rfl))
  obtain ⟨v, rest, rfl, rfl⟩ := hlength
  have hlen := h.skip.skip.length_eq
  dsimp only
  refine Ensures.ite (fun htotal => ?_) fun htotal => ?_
  -- the Length is within the payload, so the body is there
  · obtain ⟨body, rest', -, hdata⟩ := exists_lengthPrefixed v rest (by omega)
    rw [sliceTo_eq htotal, pure_bind']
    refine (hextract _).bind fun _ _ => ensures_pure (.inr ⟨token, body, rest', htype, ?_⟩)
    rw [hdata]
  · rw [pure_bind']
    exact (hextract _).bind fun _ _ => ensures_pure (.inl (Nat.min_eq_right (by omega)))

/-- The parser goes on behind a packet, or stops, or takes up the rest. -/
theorem parseLongHeaderPacketWithLength_cases {firstByte : UInt8} {tail : List UInt8}
    (hlong : firstByte &&& 0x80 ≠ 0) :
    Ensures (parseLongHeaderPacketWithLength (firstByte :: tail)) fun parsed =>
      parsed.2 = 0 ∨ parsed.2 = (firstByte :: tail).length ∨
        ∃ (p : LongPacket) (rest : List UInt8), firstByte :: tail = p.encode ++ rest := by
  have hnone : Ensures (pure (none, 0) : Checked (Option QuicInfo × ℕ)) fun parsed =>
      parsed.2 = 0 ∨ parsed.2 = (firstByte :: tail).length ∨
        ∃ (p : LongPacket) (rest : List UInt8), firstByte :: tail = p.encode ++ rest :=
    ensures_pure (.inl rfl)
  unfold parseLongHeaderPacketWithLength
  refine Ensures.ite (fun _ => hnone) fun hlen => ?_
  obtain ⟨version, dcidLen, fields, rfl⟩ := exists_version (Nat.not_lt.mp hlen)
  have hstart := At.start (firstByte :: (version.encode ++ dcidLen :: fields))
  have hversion : Indexed.be32At (firstByte :: (version.encode ++ dcidLen :: fields)) 1 =
      pure version.number := rfl
  have hdcid : At (firstByte :: (version.encode ++ dcidLen :: fields)) 5 (dcidLen :: fields) :=
    hstart.next.skip
  rw [hstart.index, pure_bind', hversion, pure_bind', hdcid.index, pure_bind']
  dsimp only
  -- the destination connection ID
  refine Ensures.ite (fun _ => hnone) fun hfields => ?_
  refine (ensures_slice (Nat.le_add_right _ _) (Nat.not_lt.mp hfields)).bind fun _ _ => ?_
  -- the source connection ID
  refine Ensures.ite (fun _ => hnone) fun hscid => ?_
  obtain ⟨dcid, rest, hdcidBytes, hrest⟩ := exists_connectionId_of_at hdcid (Nat.not_lt.mp hfields)
  obtain ⟨scidLen, fields', rfl⟩ : ∃ scidLen fields', rest = scidLen :: fields' := by
    refine List.exists_cons_of_length_pos ?_
    have := hrest.length_eq
    omega
  rw [hrest.index, pure_bind']
  refine Ensures.ite (fun _ => hnone) fun hend => ?_
  obtain ⟨scid, rest, hscidBytes, htoken⟩ := exists_connectionId_of_at hrest (Nat.not_lt.mp hend)
  refine (parseLongHeaderRest_of_at _ _ _ rfl htoken).mono fun parsed hparsed => ?_
  -- the fields found on the way make up a packet
  obtain hall | ⟨token, body, rest, htype, rfl⟩ := hparsed
  · exact .inr (.inl hall)
  · refine .inr (.inr ⟨⟨firstByte, version, dcid, scid, token, body, hlong, htype⟩, rest, ?_⟩)
    rw [hdcidBytes, hscidBytes]
    simp only [LongPacket.encode, LongPacket.fields, List.cons_append, List.append_assoc]

/-- The parser goes on behind a packet, or it stops there. -/
theorem parsePacket_long {firstByte : UInt8} (tail : List UInt8)
    (hlong : firstByte &&& 0x80 ≠ 0) :
    Ensures (parsePacket (firstByte :: tail)) fun parsed =>
      (∃ (p : LongPacket) (rest : List UInt8), firstByte :: tail = p.encode ++ rest ∧
          parsed = (some p.info, p.encode.length)) ∨
        (parsed.2 = 0 ∨ parsed.2 = (firstByte :: tail).length) ∧
          ∀ info, parsed.1 = some info → LongRecord info := by
  obtain ⟨parsed, hparsed, hok⟩ := parsePacket_stepOk (List.cons_ne_nil firstByte tail)
  refine ⟨parsed, hparsed, ?_⟩
  have heq : parsePacket (firstByte :: tail) =
      parseLongHeaderPacketWithLength (firstByte :: tail) := by
    rw [parsePacket, (At.start _).index, pure_bind', if_pos hlong]
  -- what is known of the record also holds where the parser stops
  have hcases := (parseLongHeaderPacketWithLength_cases hlong).of_eq_pure (heq.symm.trans hparsed)
  obtain hzero | hall | ⟨p, rest, hbytes⟩ := hcases
  · exact .inr ⟨.inl hzero, hok.long (decide_eq_true hlong)⟩
  · exact .inr ⟨.inr hall, hok.long (decide_eq_true hlong)⟩
  · rw [hbytes, parsePacket_encode] at hparsed
    exact .inl ⟨p, rest, hbytes, (Except.ok.inj hparsed).symm⟩

/-! ## Uniqueness -/

namespace LongPacket

omit [DeepPacketInspection] [QuicCrypto] in
/-- The type of a packet can be told from its first five bytes. -/
theorem packetType_of_append_eq {p : LongPacket} {x y : List UInt8} {firstByte : UInt8}
    (version : Version) (h : p.encode ++ x = firstByte :: (version.encode ++ y)) :
    p.packetType = longPacketType firstByte version.number := by
  obtain ⟨hfirst, h₀, h₁, h₂, h₃, -⟩ : p.firstByte = firstByte ∧ p.version.b₀ = version.b₀ ∧
      p.version.b₁ = version.b₁ ∧ p.version.b₂ = version.b₂ ∧ p.version.b₃ = version.b₃ ∧
        p.fields ++ x = y := by
    simpa only [encode, Version.encode, List.cons_append, List.nil_append, List.cons.injEq] using h
  rw [packetType, Version.number, hfirst, h₀, h₁, h₂, h₃]
  rfl

omit [DeepPacketInspection] [QuicCrypto] in
theorem packetType_eq {p q : LongPacket} {x y : List UInt8}
    (h : p.encode ++ x = q.encode ++ y) : p.packetType = q.packetType := by
  refine packetType_of_append_eq q.version (y := q.fields ++ y) (h.trans ?_)
  rw [encode, List.cons_append, List.append_assoc]

/-- There is one packet at the front of a payload: the parser finds it there. -/
theorem append_inj {p q : LongPacket} {x y : List UInt8} (h : p.encode ++ x = q.encode ++ y) :
    p.info = q.info ∧ p.encode = q.encode ∧ x = y := by
  have hp := parsePacket_encode p x
  rw [h, parsePacket_encode q y] at hp
  obtain ⟨hinfo, hlength⟩ := Prod.mk.inj (Except.ok.inj hp)
  exact ⟨(Option.some.inj hinfo).symm, List.append_inj h hlength.symm⟩

omit [DeepPacketInspection] [QuicCrypto] in
theorem form_of_append_eq {p : LongPacket} {x tail : List UInt8} {b : UInt8}
    (h : p.encode ++ x = b :: tail) : b &&& 0x80 ≠ 0 := by
  have hfirst : p.firstByte = b := (List.cons.inj h).1
  exact hfirst ▸ p.long_form

end LongPacket

/-! ## The loop -/

variable {packets : ℕ} {combined : Option QuicInfo}

theorem parsePackets_nil (h : At payload offset []) :
    parsePackets payload packets offset combined = pure combined := by
  rcases packets with _ | packets
  · rfl
  · exact if_pos h.length_eq.le

/-- One round of the loop. -/
theorem parsePackets_cons {b : UInt8} {tail : List UInt8} {parsed : Option QuicInfo × ℕ}
    (h : At payload offset (b :: tail)) (hparsed : parsePacket (b :: tail) = pure parsed) :
    parsePackets payload (packets + 1) offset combined =
      if parsed.2 = 0 then pure (combineInfo combined parsed.1)
      else parsePackets payload packets (offset + parsed.2) (combineInfo combined parsed.1) := by
  have hlen := h.length_eq
  rw [List.length_cons] at hlen
  rw [parsePackets, if_neg (by omega), h.sliceFrom, pure_bind', hparsed, pure_bind']

/-- A packet with a long header that the datagram goes on behind. -/
theorem parsePackets_encode {p : LongPacket} {rest : List UInt8}
    (h : At payload offset (p.encode ++ rest)) :
    parsePackets payload (packets + 1) offset combined =
      parsePackets payload packets (offset + p.encode.length)
        (combineInfo combined (some p.info)) :=
  parsePackets_cons h (parsePacket_encode p rest)

end Packet

end RustNet.Quic
