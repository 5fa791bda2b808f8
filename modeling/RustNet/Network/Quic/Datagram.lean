import RustNet.Network.Merge.Dpi
import RustNet.Network.Parser.Indexed.Internet
import RustNet.Network.Quic.Protection

/-!
# QUIC datagrams

`parse_quic_packet`: the packets of a UDP datagram one after another, each with an analysis of its
own, and the combination of what they say. A packet with a long header says how long it is; one with
a short header takes up the rest of the datagram.

## Main definitions

* `Quic.parsePacket`: one packet at the front of what remains;
* `Quic.parseQuicPacket`: the loop over the packets;
* `Quic.packetSteps`: the packets that the loop counts.

## Main results

* `Quic.parsePackets_eq`: the result is the combination of the packets that are counted;
* `Quic.parseQuicPacket_ensures`: no datagram makes the parser fail, every counted packet takes up
  at least one byte and no more than remain, and there are ten of them at most.
-/

namespace RustNet

deriving instance DecidableEq for QuicPacketType

namespace Quic

open Checked

/-- `get_long_packet_type`; version 2 numbers the types in another way. -/
def getLongPacketType (firstByte : UInt8) (version : UInt32) : QuicPacketType :=
  let typeBits := (firstByte &&& 0x30) >>> 4
  -- version 2 has moved the types by one
  if isQuicV2 version then
    match typeBits with
    | 0 => .retry
    | 1 => .initial
    | 2 => .zeroRtt
    | 3 => .handshake
    | _ => .unknown
  else
    match typeBits with
    | 0 => .initial
    | 1 => .zeroRtt
    | 2 => .handshake
    | 3 => .retry
    | _ => .unknown

/-- `connection_id_to_hex`: the bytes of the identifier in base sixteen, with colons between
them. -/
def connectionIdToHex (id : List UInt8) : String := ":".intercalate (id.map hexByte)

/-! ## One packet -/

/-- The connection state that a packet with a long header stands for. -/
def longHeaderState : QuicPacketType → QuicConnectionState
  | .initial | .retry | .versionNegotiation => .initial
  | .handshake | .zeroRtt => .handshaking
  | _ => .unknown

section Parse

variable [CryptoExtraction] [QuicCrypto]

/-- `extract_tls_from_long_header_packet`: the state by the packet's type. An Initial packet is
opened with the client's keys, or else with the server's, and its CRYPTO frames are read. -/
def extractTlsFromLongHeaderPacket (payload : List UInt8) (info : QuicInfo) (dcid : List UInt8)
    (version : UInt32) (packetType : QuicPacketType) : Checked QuicInfo := do
  let info := { info with connectionState := longHeaderState packetType }
  -- nothing is done for the other types: their keys come from the handshake
  if packetType = .initial ∧ 0 < dcid.length then do
    match ← decryptClientInitialPacket payload dcid version with
    | some decrypted => do
      let processed ← processCryptoFramesInPacket decrypted info
      match processed.1 with
      | some tls =>
        return { processed.2 with
          tlsInfo := some tls
          connectionIdHex := some (connectionIdToHex dcid) }
      | none => return processed.2
    | none =>
      match ← decryptServerInitialPacket payload dcid version with
      | some decrypted => do
        let processed ← processCryptoFramesInPacket decrypted info
        match processed.1 with
        | some tls => return { processed.2 with tlsInfo := some tls }
        | none => return processed.2
      | none => return info
  else return info

/-- The token of an Initial packet: the offset behind it, if it ends in the payload. -/
def skipToken (payload : List UInt8) (packetType : QuicPacketType) (offset : ℕ) :
    Checked (Option ℕ) := do
  if packetType = .initial then do
    let some tokenLen ← readVarint payload offset | return none
    if tokenLen.2 + tokenLen.1 ≤ payload.length then return some (tokenLen.2 + tokenLen.1)
    else return none
  else return some offset

/-- What `parse_long_header_packet_with_length` does once the connection IDs are read. -/
def parseLongHeaderRest (payload : List UInt8) (info : QuicInfo) (dcid : List UInt8)
    (version : UInt32) (packetType : QuicPacketType) (offset : ℕ) :
    Checked (Option QuicInfo × ℕ) := do
  let some offset ← skipToken payload packetType offset | return (some info, payload.length)
  if payload.length ≤ offset then return (some info, payload.length)
  let some packetLength ← readVarint payload offset | return (some info, payload.length)
  let totalPacketSize := packetLength.2 + packetLength.1
  let packetData ←
    if totalPacketSize ≤ payload.length then sliceTo payload totalPacketSize else pure payload
  let info ← extractTlsFromLongHeaderPacket packetData info dcid version packetType
  return (some info, min totalPacketSize payload.length)

/-- `parse_long_header_packet_with_length`: the version, the type and the two identifiers, and the
length of the packet, which is zero when the header does not fit. -/
def parseLongHeaderPacketWithLength (payload : List UInt8) : Checked (Option QuicInfo × ℕ) := do
  if payload.length < 6 then return (none, 0)
  let firstByte ← index payload 0
  let version ← Indexed.be32At payload 1
  let packetType := if version = 0 then .versionNegotiation else getLongPacketType firstByte version
  -- both identifiers stand behind their lengths
  let dcidLen ← index payload 5
  if payload.length < 6 + dcidLen.toNat then return (none, 0)
  let dcid ← slice payload 6 (6 + dcidLen.toNat)
  let info := { QuicInfo.new version with packetType := packetType, connectionId := dcid }
  let offset := 6 + dcidLen.toNat
  if payload.length ≤ offset then return (none, 0)
  let scidLen ← index payload offset
  let offset := offset + 1
  if payload.length < offset + scidLen.toNat then return (none, 0)
  parseLongHeaderRest payload info dcid version packetType (offset + scidLen.toNat)

/-- `parse_short_header_packet`; a connection ID of eight bytes is a guess. -/
def parseShortHeaderPacket (payload : List UInt8) : Checked (Option QuicInfo) := do
  if payload.isEmpty then return none
  let connectionId ← if 9 ≤ payload.length then slice payload 1 9 else sliceFrom payload 1
  return some { QuicInfo.new 0 with
    packetType := .oneRtt
    connectionState := .connected
    connectionId := connectionId }

/-- The packet at the front of what remains of a datagram, and how many bytes it takes up. -/
def parsePacket (remaining : List UInt8) : Checked (Option QuicInfo × ℕ) := do
  let firstByte ← index remaining 0
  if firstByte &&& 0x80 ≠ 0 then parseLongHeaderPacketWithLength remaining
  else do
    let info ← parseShortHeaderPacket remaining
    return (info, remaining.length)

end Parse

/-! ## The loop over the packets -/

/-- `merge_quic_packet_info` into an existing record. The first CONNECTION_CLOSE, CRYPTO flag and
reassembler stay as they are; the source repeats the match of `quic_state_priority`. -/
def mergeQuicPacketInfoInto (existing new : QuicInfo) : QuicInfo :=
  let isPartial (tls : TlsInfo) : Bool := (tls.sni.map isPartialSni).getD true
  let tlsInfo := match existing.tlsInfo, new.tlsInfo with
    | none, some newTls => some newTls
    | some oldTls, some newTls =>
      if (isPartial oldTls && !isPartial newTls) || (oldTls.sni.isNone && newTls.sni.isSome) then
        some newTls
      else some oldTls
    | oldTls, none => oldTls
  -- the identifier and its text go together
  let replaceId := existing.connectionId.isEmpty && !new.connectionId.isEmpty
  { existing with
    connectionState :=
      if quicStatePriority existing.connectionState < quicStatePriority new.connectionState then
        new.connectionState
      else existing.connectionState
    tlsInfo := tlsInfo
    connectionId := if replaceId then new.connectionId else existing.connectionId
    connectionIdHex := if replaceId then new.connectionIdHex else existing.connectionIdHex
    versionString := existing.versionString.or new.versionString
    cryptoReassembler := existing.cryptoReassembler.or new.cryptoReassembler }

/-- `merge_quic_packet_info`: the record of the first packet of a datagram is taken as it is, and
later ones are merged into it. -/
def mergeQuicPacketInfo (existing : Option QuicInfo) (new : QuicInfo) : QuicInfo :=
  match existing with
  | none => new
  | some existing => mergeQuicPacketInfoInto existing new

/-- What a packet adds to the combined record. -/
def combineInfo (combined info : Option QuicInfo) : Option QuicInfo :=
  match info with
  | none => combined
  | some info => some (mergeQuicPacketInfo combined info)

section Loop

variable [CryptoExtraction] [QuicCrypto]

/-- The loop of `parse_quic_packet`, for as many packets as the limit still allows. -/
def parsePackets (payload : List UInt8) : ℕ → ℕ → Option QuicInfo → Checked (Option QuicInfo)
  | 0, _, combined => return combined
  | packets + 1, offset, combined => do
    if payload.length ≤ offset then return combined
    let remaining ← sliceFrom payload offset
    let parsed ← parsePacket remaining
    let combined := combineInfo combined parsed.1
    if parsed.2 = 0 then return combined
    parsePackets payload packets (offset + parsed.2) combined

/-- `parse_quic_packet`; ten is the limit on coalesced packets. -/
def parseQuicPacket (payload : List UInt8) : Checked (Option QuicInfo) :=
  parsePackets payload 10 0 none

end Loop

/-! ## Safety -/

/-- What the record of one packet says: the state of the last CONNECTION_CLOSE in it, or else the
state that the packet stands for. -/
def Records (base state : QuicConnectionState) : Option QuicCloseInfo → Prop
  | none => state = base
  | some close =>
    (close.frameType = 0x1c ∨ close.frameType = 0x1d) ∧
      state = if close.errorCode = 0 then .draining else .closed

/-- The record of a packet with a long header. -/
def LongRecord (info : QuicInfo) : Prop :=
  ∃ base, base ≠ .connected ∧ Records base info.connectionState info.connectionClose

section Safety

variable [DeepPacketInspection] [QuicCrypto] {payload : List UInt8} {offset : ℕ}

omit [DeepPacketInspection] [QuicCrypto] in
theorem records_close (base : QuicConnectionState) (frameType : UInt8) (errorCode : ℕ)
    (htype : frameType = 0x1c ∨ frameType = 0x1d) (hcode : errorCode < 2 ^ 62) :
    Records base (if errorCode = 0 then .draining else .closed)
      (some ⟨frameType, UInt64.ofNat errorCode⟩) := by
  refine ⟨htype, ?_⟩
  show _ = if UInt64.ofNat errorCode = 0 then _ else _
  simp only [errorCode_eq_zero_iff hcode]

omit [DeepPacketInspection] [QuicCrypto] in
theorem longHeaderState_ne_connected (packetType : QuicPacketType) :
    longHeaderState packetType ≠ .connected := by
  rcases packetType <;> exact fun h => nomatch h

theorem extractTlsFromLongHeaderPacket_ensures (payload : List UInt8) {info : QuicInfo}
    (dcid : List UInt8) (version : UInt32) (packetType : QuicPacketType)
    (hclose : info.connectionClose = none) :
    Ensures (extractTlsFromLongHeaderPacket payload info dcid version packetType) fun info =>
      Records (longHeaderState packetType) info.connectionState info.connectionClose := by
  have hbase : Records (longHeaderState packetType)
      { info with connectionState := longHeaderState packetType }.connectionState
      { info with connectionState := longHeaderState packetType }.connectionClose := by
    rw [hclose]
    rfl
  have hprocessed := fun decrypted =>
    processCryptoFramesInPacket_ensures (Records (longHeaderState packetType))
      (records_close (longHeaderState packetType)) decrypted hbase
  unfold extractTlsFromLongHeaderPacket
  refine Ensures.ite (fun _ => ?_) fun _ => ensures_pure hbase
  refine (decryptInitialPacket_ensures _ payload dcid version).bind fun decrypted? _ => ?_
  -- what the client's keys do not open is tried with the server's
  rcases decrypted? with _ | decrypted
  · refine (decryptInitialPacket_ensures _ payload dcid version).bind fun decrypted? _ => ?_
    rcases decrypted? with _ | decrypted
    · exact ensures_pure hbase
    · refine (hprocessed decrypted).bind fun processed hrecords => ?_
      rcases processed with ⟨_ | tls, info⟩ <;> exact ensures_pure hrecords
  · refine (hprocessed decrypted).bind fun processed hrecords => ?_
    rcases processed with ⟨_ | tls, info⟩ <;> exact ensures_pure hrecords

omit [DeepPacketInspection] [QuicCrypto] in
theorem skipToken_ensures (packetType : QuicPacketType) (h : offset ≤ payload.length) :
    Ensures (skipToken payload packetType offset) fun offset? =>
      ∀ next, offset? = some next → offset ≤ next ∧ next ≤ payload.length := by
  unfold skipToken
  refine Ensures.ite (fun _ => ?_) fun _ => ensures_some ⟨le_rfl, h⟩
  refine (readVarint_ensures h).bindOption (fun tokenLen htoken => ?_) ensures_none
  refine Ensures.ite (fun hend => ensures_some ?_) fun _ => ensures_none
  exact ⟨htoken.1.le.trans (Nat.le_add_right _ _), hend⟩

/-- What a packet with a long header takes up and says. -/
structure LongStepOk (payload : List UInt8) (parsed : Option QuicInfo × ℕ) : Prop where
  length_le : parsed.2 ≤ payload.length
  info_eq_none : parsed.2 = 0 → parsed.1 = none
  record : ∀ info, parsed.1 = some info → LongRecord info

theorem parseLongHeaderRest_ensures {info : QuicInfo} (dcid : List UInt8) (version : UInt32)
    (packetType : QuicPacketType) (hnew : info.connectionClose = none)
    (hstate : info.connectionState = .unknown) (hpos : 0 < offset) (h : offset ≤ payload.length) :
    Ensures (parseLongHeaderRest payload info dcid version packetType offset)
      (LongStepOk payload) := by
  have hok : ∀ {i : QuicInfo} {n : ℕ}, LongRecord i → 0 < n → n ≤ payload.length →
      LongStepOk payload (some i, n) := fun hrecord hn hle =>
    ⟨hle, fun hzero => absurd hzero hn.ne', fun _ heq => Option.some.inj heq ▸ hrecord⟩
  have hrecord : LongRecord info := by
    refine ⟨.unknown, QuicConnectionState.noConfusion, ?_⟩
    rw [hnew, hstate]
    rfl
  have hrest : Ensures (pure (some info, payload.length) : Checked (Option QuicInfo × ℕ))
      (LongStepOk payload) := ensures_pure (hok hrecord (hpos.trans_le h) le_rfl)
  unfold parseLongHeaderRest
  refine (skipToken_ensures packetType h).bindOption (fun next hnext => ?_) hrest
  refine Ensures.ite (fun _ => hrest) fun hlt => ?_
  refine (readVarint_ensures (Nat.le_of_not_le hlt)).bindOption (fun length hlength => ?_) hrest
  -- a Length of zero still leaves the bytes of the header, so the packet takes up some
  have hend : 0 < min (length.2 + length.1) payload.length := by omega
  have hextract := fun packetData =>
    (extractTlsFromLongHeaderPacket_ensures packetData dcid version packetType hnew).mono
      fun _ hrecords => (⟨_, longHeaderState_ne_connected packetType, hrecords⟩ : LongRecord _)
  dsimp only
  refine Ensures.ite (fun htotal => ?_) fun _ => ?_
  · refine (ensures_sliceTo htotal).bind fun packetData _ => ?_
    exact (hextract packetData).bind fun _ hlong =>
      ensures_pure (hok hlong hend (Nat.min_le_right _ _))
  · exact (hextract payload).bind fun _ hlong =>
      ensures_pure (hok hlong hend (Nat.min_le_right _ _))

theorem parseLongHeaderPacketWithLength_ensures (payload : List UInt8) :
    Ensures (parseLongHeaderPacketWithLength payload) (LongStepOk payload) := by
  have hnone : Ensures (pure (none, 0) : Checked (Option QuicInfo × ℕ)) (LongStepOk payload) :=
    ensures_pure ⟨Nat.zero_le _, fun _ => rfl, fun _ h => nomatch h⟩
  unfold parseLongHeaderPacketWithLength
  refine Ensures.ite (fun _ => hnone) fun hlen => ?_
  refine (ensures_index (by omega)).bind fun firstByte _ => ?_
  rw [Indexed.be32At_eq (by omega), pure_bind']
  refine (ensures_index (by omega)).bind fun dcidLen _ => ?_
  refine Ensures.ite (fun _ => hnone) fun hdcid => ?_
  -- each connection ID is read only if the payload has its bytes
  refine (ensures_slice (Nat.le_add_right _ _) (Nat.not_lt.mp hdcid)).bind fun dcid _ => ?_
  refine Ensures.ite (fun _ => hnone) fun hscid => ?_
  refine (ensures_index (Nat.lt_of_not_le hscid)).bind fun scidLen _ => ?_
  refine Ensures.ite (fun _ => hnone) fun hend => ?_
  exact parseLongHeaderRest_ensures dcid _ _ rfl rfl (by omega) (Nat.not_lt.mp hend)

omit [DeepPacketInspection] [QuicCrypto] in
theorem parseShortHeaderPacket_ensures {payload : List UInt8} (h : payload ≠ []) :
    Ensures (parseShortHeaderPacket payload) fun info? =>
      ∃ info, info? = some info ∧ info.connectionState = .connected ∧
        info.connectionClose = none := by
  have hpos := List.length_pos_of_ne_nil h
  rw [parseShortHeaderPacket, if_neg (fun hempty => h (List.isEmpty_iff.mp hempty))]
  refine Ensures.ite (fun hlen => ?_) fun _ => ?_
  · exact (ensures_slice (by decide) hlen).bind fun _ _ => ensures_pure ⟨_, rfl, rfl, rfl⟩
  · exact (ensures_sliceFrom hpos).bind fun _ _ => ensures_pure ⟨_, rfl, rfl, rfl⟩

/-- What one packet takes up and says: a packet without a length says nothing, and only one with a
short header stands for an established connection. -/
structure StepOk (remaining : List UInt8) (parsed : Option QuicInfo × ℕ) : Prop where
  length_le : parsed.2 ≤ remaining.length
  info_eq_none : parsed.2 = 0 → parsed.1 = none
  long : remaining.head?.any (fun b => b &&& 0x80 ≠ 0) →
    ∀ info, parsed.1 = some info → LongRecord info
  short : remaining.head?.any (fun b => b &&& 0x80 = 0) →
    parsed.2 = remaining.length ∧ ∃ info, parsed.1 = some info ∧
      info.connectionState = .connected ∧ info.connectionClose = none

theorem parsePacket_stepOk {remaining : List UInt8} (h : remaining ≠ []) :
    Ensures (parsePacket remaining) (StepOk remaining) := by
  obtain ⟨b, rest, rfl⟩ := List.exists_cons_of_ne_nil h
  rw [parsePacket, (At.start (b :: rest)).index, pure_bind']
  refine Ensures.ite (fun hlong => ?_) fun hshort => ?_
  · refine (parseLongHeaderPacketWithLength_ensures _).mono fun parsed hparsed => ?_
    refine ⟨hparsed.length_le, hparsed.info_eq_none, fun _ => hparsed.record, fun hshort => ?_⟩
    exact absurd (of_decide_eq_true hshort) hlong
  · refine (parseShortHeaderPacket_ensures h).bind fun info? hinfo => ensures_pure ?_
    refine ⟨le_rfl, fun hzero => absurd hzero (Nat.succ_ne_zero _), fun hlong => ?_,
      fun _ => ⟨rfl, hinfo⟩⟩
    exact absurd (of_decide_eq_true hlong) hshort

end Safety

/-! ## The packets of a datagram -/

/-- A packet that `parse_quic_packet` counts. -/
structure PacketStep where
  offset : ℕ
  length : ℕ
  info : Option QuicInfo

section Steps

variable [DeepPacketInspection] [QuicCrypto] {payload : List UInt8} {packets offset : ℕ}

/-- The packets that the loop counts. -/
def packetSteps (payload : List UInt8) : ℕ → ℕ → Checked (List PacketStep)
  | 0, _ => return []
  | packets + 1, offset => do
    if payload.length ≤ offset then return []
    let remaining ← sliceFrom payload offset
    let parsed ← parsePacket remaining
    if parsed.2 = 0 then return []
    let steps ← packetSteps payload packets (offset + parsed.2)
    return ⟨offset, parsed.2, parsed.1⟩ :: steps

/-- Packets follow one another from `offset` on, each of at least one byte and within the
payload. -/
def Consecutive (payload : List UInt8) : ℕ → List PacketStep → Prop
  | _, [] => True
  | offset, step :: steps =>
    step.offset = offset ∧ 1 ≤ step.length ∧ step.length ≤ payload.length - offset ∧
      Consecutive payload (offset + step.length) steps

/-- The record that the counted packets add up to. -/
def combine (combined : Option QuicInfo) (steps : List PacketStep) : Option QuicInfo :=
  steps.foldl (fun combined step => combineInfo combined step.info) combined

/-- The loop reads no packet outside the payload; its result is the combination of the packets it
counts. -/
theorem parsePackets_eq (payload : List UInt8) (packets offset : ℕ) (combined : Option QuicInfo) :
    Ensures (packetSteps payload packets offset) fun steps =>
      parsePackets payload packets offset combined = pure (combine combined steps) ∧
        steps.length ≤ packets ∧ Consecutive payload offset steps := by
  induction packets generalizing offset combined with
  | zero => exact ensures_pure ⟨rfl, le_rfl, trivial⟩
  | succ packets ih =>
    unfold packetSteps parsePackets
    by_cases hend : payload.length ≤ offset
    · rw [if_pos hend, if_pos hend]
      exact ensures_pure ⟨rfl, Nat.zero_le _, trivial⟩
    have hlt : offset < payload.length := Nat.lt_of_not_le hend
    have hne : payload.drop offset ≠ [] := List.drop_eq_nil_iff.not.mpr hend
    obtain ⟨parsed, hparsed, hok⟩ := parsePacket_stepOk hne
    have hle := hok.length_le
    rw [if_neg hend, if_neg hend, sliceFrom_eq hlt.le, pure_bind', pure_bind', hparsed,
      pure_bind', pure_bind']
    by_cases hzero : parsed.2 = 0
    · rw [if_pos hzero, if_pos hzero, hok.info_eq_none hzero]
      exact ensures_pure ⟨rfl, Nat.zero_le _, trivial⟩
    rw [if_neg hzero, if_neg hzero]
    -- the packet is counted, and the loop goes on behind it
    refine (ih (offset + parsed.2) (combineInfo combined parsed.1)).bind fun steps hsteps => ?_
    obtain ⟨heq, hcount, hconsecutive⟩ := hsteps
    rw [List.length_drop] at hle
    refine ensures_pure ⟨heq, Nat.succ_le_succ hcount, rfl, ?_, hle, hconsecutive⟩
    exact Nat.one_le_iff_ne_zero.mpr hzero

/-- No datagram makes the parser fail: it goes through at most ten packets, each of at least one
byte and within what remains. Nor does any payload make the walk over frames fail, whatever the
reassembler holds; its loops take no more rounds than the payload has bytes. The bytes are any, and
so are what the keys open and what is extracted. -/
theorem parseQuicPacket_ensures (payload : List UInt8) :
    Ensures (packetSteps payload 10 0) (fun steps =>
        parseQuicPacket payload = pure (combine none steps) ∧
          steps.length ≤ 10 ∧ Consecutive payload 0 steps) ∧
      (∀ info, Ensures (processCryptoFramesInPacket payload info) fun _ => True) ∧
      (∀ rounds walk, payload.length ≤ rounds →
        walkFrames payload rounds 0 walk = walkFrames payload payload.length 0 walk) ∧
      ∀ rounds offset, payload.length ≤ offset + rounds →
        skipPadding payload rounds offset =
          skipPadding payload (payload.length - offset) offset := by
  refine ⟨parsePackets_eq payload 10 0 none, fun info => ?_, fun rounds walk h => ?_,
    fun rounds offset h => ?_⟩
  · exact (processCryptoFramesInPacket_ensures (fun _ _ => True) (fun _ _ _ _ => trivial) payload
      trivial).mono fun _ _ => trivial
  · exact walkFrames_of_le (h.trans (Nat.zero_add _).ge) (Nat.zero_add _).ge
  · exact skipPadding_of_le h (by omega)

end Steps

end Quic

end RustNet
