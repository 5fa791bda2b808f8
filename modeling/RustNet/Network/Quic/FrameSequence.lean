import RustNet.Network.Quic.Frames

/-!
# The frames of QUIC and the walk over them

The frames of RFC 9000 as values with an encoding of their own, every integer in any of its widths,
and what `process_crypto_frames_in_packet` makes of a payload that is a sequence of them. A STREAM
frame without a length takes up the rest of the packet, so it can only come last.

A run of PADDING is skipped in one round of the loop, and a CRYPTO frame without data is not handed
over: the reassembler would store it, and let it replace a fragment at the same offset.

## Main definitions

* `Quic.Frame`, `Quic.PacketPayload`: frames, and the payload of a packet;
* `Quic.visitedOffsets`: where the loop reads a frame type;
* `Quic.PacketPayload.boundaries`: where a frame starts that is not PADDING behind PADDING.

## Main results

* `Quic.processFrame_at`: one round of the loop goes on behind the frame;
* `Quic.processCryptoFramesInPacket_encode`: the loop visits the boundaries, hands over the CRYPTO
  data in order and records the last CONNECTION_CLOSE.
-/

namespace RustNet.Quic

open Checked

/-! ## Frames -/

/-- Bytes behind their count. The count may be written wider than it has to be, but it is the number
of the bytes. -/
structure LengthPrefixed where
  length : Varint
  data : List UInt8
  length_eq : length.value = data.length

/-- The gaps and lengths of the further ranges of an ACK frame, behind their count. -/
structure AckRanges where
  count : Varint
  ranges : List (Varint × Varint)
  count_eq : count.value = ranges.length

/-- A connection ID behind its length in one byte. -/
structure ConnectionId where
  bytes : List UInt8
  length_le : bytes.length ≤ 255

/-- The frames of RFC 9000 that say how long they are. -/
inductive Frame
  | padding
  | ping
  | ack (largestAcknowledged ackDelay firstAckRange : Varint) (ranges : AckRanges)
  | ackEcn (largestAcknowledged ackDelay firstAckRange : Varint) (ranges : AckRanges)
      (ect0 ect1 ecnCe : Varint)
  | resetStream (streamId errorCode finalSize : Varint)
  | stopSending (streamId errorCode : Varint)
  | crypto (offset : Varint) (data : LengthPrefixed)
  | newToken (token : LengthPrefixed)
  | stream (fin : Bool) (streamId : Varint) (offset : Option Varint) (data : LengthPrefixed)
  | maxData (maximum : Varint)
  | maxStreamData (streamId maximum : Varint)
  | maxStreams (unidirectional : Bool) (maximum : Varint)
  | dataBlocked (limit : Varint)
  | streamDataBlocked (streamId limit : Varint)
  | streamsBlocked (unidirectional : Bool) (limit : Varint)
  | newConnectionId (sequenceNumber retirePriorTo : Varint) (connectionId : ConnectionId)
      (statelessResetToken : Vector UInt8 16)
  | retireConnectionId (sequenceNumber : Varint)
  | pathChallenge (data : Vector UInt8 8)
  | pathResponse (data : Vector UInt8 8)
  | connectionClose (errorCode frameType : Varint) (reason : LengthPrefixed)
  | applicationClose (errorCode : Varint) (reason : LengthPrefixed)
  | handshakeDone

/-- A STREAM frame without a length. -/
structure OpenStream where
  fin : Bool
  streamId : Varint
  offset : Option Varint
  data : List UInt8

/-- The payload of a packet: frames, and possibly a STREAM frame that takes up the rest. -/
structure PacketPayload where
  frames : List Frame
  openStream : Option OpenStream

/-! ## Encoding -/

/-- Integers one after another, each in the width it was given. -/
def varints (vs : List Varint) : List UInt8 := vs.flatMap Varint.encode

namespace LengthPrefixed

/-- The count and the bytes. -/
def encode (p : LengthPrefixed) : List UInt8 := p.length.encode ++ p.data

/-- No bytes behind a count of zero, as a frame with an empty field has them. -/
def empty : LengthPrefixed := ⟨Varint.zero, [], rfl⟩

end LengthPrefixed

namespace AckRanges

/-- The integers of the ranges. -/
def fields (r : AckRanges) : List Varint := r.ranges.flatMap fun range => [range.1, range.2]

theorem length_fields (r : AckRanges) : r.fields.length = 2 * r.count.value := by
  rw [r.count_eq, fields]
  induction r.ranges with
  | nil => rfl
  | cons range ranges ih =>
    rw [List.flatMap_cons, List.length_append, ih, List.length_cons, List.length_cons,
      List.length_cons, List.length_nil]
    omega

end AckRanges

namespace Frame

/-- The frame type, in the byte the frame begins with. In a frame of a stream its bits also say
which fields follow. -/
def frameType : Frame → UInt8
  | padding => 0x00
  | ping => 0x01
  | ack .. => 0x02
  | ackEcn .. => 0x03
  | resetStream .. => 0x04
  | stopSending .. => 0x05
  | crypto .. => 0x06
  | newToken .. => 0x07
  -- the bits for an offset and for the end of the stream; the bit for a length is set
  | stream false _ none _ => 0x0a
  | stream true _ none _ => 0x0b
  | stream false _ (some _) _ => 0x0e
  | stream true _ (some _) _ => 0x0f
  | maxData .. => 0x10
  | maxStreamData .. => 0x11
  | maxStreams false _ => 0x12
  | maxStreams true _ => 0x13
  | dataBlocked .. => 0x14
  | streamDataBlocked .. => 0x15
  | streamsBlocked false _ => 0x16
  | streamsBlocked true _ => 0x17
  | newConnectionId .. => 0x18
  | retireConnectionId .. => 0x19
  | pathChallenge .. => 0x1a
  | pathResponse .. => 0x1b
  | connectionClose .. => 0x1c
  | applicationClose .. => 0x1d
  | handshakeDone => 0x1e

/-- What stands behind the frame type. -/
def fields : Frame → List UInt8
  | padding | ping | handshakeDone => []
  | ack largestAcknowledged ackDelay firstAckRange ranges =>
    varints [largestAcknowledged, ackDelay] ++ (ranges.count.encode ++
      (varints [firstAckRange] ++ varints ranges.fields))
  | ackEcn largestAcknowledged ackDelay firstAckRange ranges ect0 ect1 ecnCe =>
    varints [largestAcknowledged, ackDelay] ++ (ranges.count.encode ++
      (varints [firstAckRange] ++ (varints ranges.fields ++ varints [ect0, ect1, ecnCe])))
  | resetStream streamId errorCode finalSize => varints [streamId, errorCode, finalSize]
  | stopSending streamId errorCode => varints [streamId, errorCode]
  | crypto offset data => offset.encode ++ data.encode
  | newToken token => token.encode
  | stream _ streamId offset data => varints (streamId :: offset.toList) ++ data.encode
  | maxData maximum => varints [maximum]
  | maxStreamData streamId maximum => varints [streamId, maximum]
  | maxStreams _ maximum => varints [maximum]
  | dataBlocked limit => varints [limit]
  | streamDataBlocked streamId limit => varints [streamId, limit]
  | streamsBlocked _ limit => varints [limit]
  | newConnectionId sequenceNumber retirePriorTo connectionId statelessResetToken =>
    varints [sequenceNumber, retirePriorTo] ++
      (UInt8.ofNat connectionId.bytes.length :: (connectionId.bytes ++ statelessResetToken.toList))
  | retireConnectionId sequenceNumber => varints [sequenceNumber]
  | pathChallenge data => data.toList
  | pathResponse data => data.toList
  | connectionClose errorCode frameType reason =>
    errorCode.encode ++ (varints [frameType] ++ reason.encode)
  | applicationClose errorCode reason => errorCode.encode ++ (varints [] ++ reason.encode)

/-- The bytes of a frame. -/
def encode (f : Frame) : List UInt8 := f.frameType :: f.fields

/-- What the walk does for a frame. -/
def apply (walk : FrameWalk) : Frame → FrameWalk
  | crypto offset data =>
    if data.data = [] then walk.markCrypto else walk.markCrypto.addFragment offset.value data.data
  | connectionClose errorCode _ _ => walk.close 0x1c errorCode.value
  | applicationClose errorCode _ => walk.close 0x1d errorCode.value
  | _ => walk

end Frame

namespace OpenStream

/-- The frame type, with no bit for a length. -/
def frameType (s : OpenStream) : UInt8 :=
  match s.fin, s.offset with
  | false, none => 0x08
  | true, none => 0x09
  | false, some _ => 0x0c
  | true, some _ => 0x0d

/-- The bytes of a STREAM frame without a length. -/
def encode (s : OpenStream) : List UInt8 :=
  s.frameType :: (varints (s.streamId :: s.offset.toList) ++ s.data)

theorem frameType_ne_zero (s : OpenStream) : s.frameType ≠ 0x00 := by
  rcases s with ⟨_ | _, _, _ | _, _⟩ <;> simp [frameType]

theorem frameType_offset (s : OpenStream) : s.frameType &&& 0x04 ≠ 0 ↔ s.offset.isSome := by
  rcases s with ⟨_ | _, _, _ | _, _⟩ <;> simp [frameType] <;> decide

theorem frameType_length (s : OpenStream) : ¬ s.frameType &&& 0x02 ≠ 0 := by
  rcases s with ⟨_ | _, _, _ | _, _⟩ <;> simp [frameType] <;> decide

end OpenStream

/-- The bytes of a payload. -/
def PacketPayload.encode (p : PacketPayload) : List UInt8 :=
  p.frames.flatMap Frame.encode ++ (p.openStream.map OpenStream.encode).getD []

/-! ## One frame -/

section Frame

variable {payload rest : List UInt8} {offset : ℕ} {walk : FrameWalk}

theorem readVarint_at {v : Varint} (h : At payload offset (v.encode ++ rest)) :
    readVarint payload offset = pure (some (v.value, offset + v.encode.length)) := by
  rw [readVarint, h.sliceFrom, pure_bind', parseVariableLengthInt_encode]
  rfl

theorem skipVarints_at {vs : List Varint} (h : At payload offset (varints vs ++ rest)) :
    skipVarints payload vs.length offset = pure (some (offset + (varints vs).length)) := by
  induction vs generalizing offset with
  | nil => rfl
  | cons v vs ih =>
    have hv : At payload offset (v.encode ++ (varints vs ++ rest)) := by
      rwa [varints, List.flatMap_cons, List.append_assoc] at h
    rw [List.length_cons, skipVarints, readVarint_at hv, pure_bind']
    dsimp only
    rw [ih hv.skip, varints, varints, List.flatMap_cons, List.length_append, Nat.add_assoc]

theorem varintsFrame_at {vs : List Varint} (h : At payload offset (varints vs ++ rest)) :
    varintsFrame payload vs.length offset walk =
      pure (.next (offset + (varints vs).length) walk) := by
  rw [varintsFrame, skipVarints_at h]
  rfl

/-- The part of ACK and ACK_ECN that both have. -/
theorem ackFrame_at (frameType : UInt8) {largestAcknowledged ackDelay firstAckRange : Varint}
    {ranges : AckRanges}
    (h : At payload offset (varints [largestAcknowledged, ackDelay] ++ (ranges.count.encode ++
      (varints [firstAckRange] ++ (varints ranges.fields ++ rest))))) :
    ackFrame payload frameType offset walk =
      let next := offset + (varints [largestAcknowledged, ackDelay]).length +
        ranges.count.encode.length + (varints [firstAckRange]).length +
        (varints ranges.fields).length
      if frameType = 0x03 then varintsFrame payload 3 next walk else pure (.next next walk) := by
  have hcount := h.skip
  -- the count stands before the first range, and says how many pairs follow it
  have hfirst := hcount.skip
  have hranges := hfirst.skip
  have hskip := skipVarints_at hranges
  rw [ranges.length_fields] at hskip
  rw [ackFrame, show 2 = [largestAcknowledged, ackDelay].length from rfl, skipVarints_at h,
    pure_bind']
  dsimp only
  rw [readVarint_at hcount, pure_bind']
  dsimp only
  rw [show 1 = [firstAckRange].length from rfl, skipVarints_at hfirst, pure_bind']
  dsimp only
  rw [show [largestAcknowledged, ackDelay].length = 2 from rfl, hskip, pure_bind']

theorem cryptoFrame_at {cryptoOffset : Varint} {data : LengthPrefixed}
    (h : At payload offset (cryptoOffset.encode ++ (data.encode ++ rest))) :
    cryptoFrame payload offset walk =
      pure (.next (offset + cryptoOffset.encode.length + data.encode.length)
        ((Frame.crypto cryptoOffset data).apply walk)) := by
  have hlength := h.skip
  rw [LengthPrefixed.encode, List.append_assoc] at hlength
  have hdata := hlength.skip
  have hend : payload.length = offset + cryptoOffset.encode.length + data.length.encode.length +
      (data.data.length + rest.length) := by
    rw [hdata.length_eq, List.length_append]
  -- the data is all there, so nothing is cut off
  have hmin : min (data.data.length + rest.length) data.data.length = data.data.length :=
    Nat.min_eq_right (Nat.le_add_right _ _)
  rw [cryptoFrame, readVarint_at h, pure_bind']
  dsimp only
  rw [readVarint_at hlength, pure_bind']
  dsimp only
  rw [sub_eq (by omega), pure_bind', data.length_eq, hend, Nat.add_sub_cancel_left, hmin]
  rw [LengthPrefixed.encode, List.length_append, ← Nat.add_assoc]
  show _ = pure (FrameStep.next _ (if data.data = [] then walk.markCrypto else
    walk.markCrypto.addFragment cryptoOffset.value data.data))
  by_cases hnil : data.data = []
  · rw [if_pos hnil, if_neg (by rw [hnil]; exact Nat.lt_irrefl 0)]
  · rw [if_neg hnil, if_pos (List.length_pos_of_ne_nil hnil), hdata.slice, pure_bind']

theorem newTokenFrame_at {token : LengthPrefixed}
    (h : At payload offset (token.encode ++ rest)) :
    newTokenFrame payload offset walk = pure (.next (offset + token.encode.length) walk) := by
  have hlength := h
  rw [LengthPrefixed.encode, List.append_assoc] at hlength
  have hdata := hlength.skip
  rw [newTokenFrame, readVarint_at hlength, pure_bind']
  dsimp only
  rw [token.length_eq, if_neg (Nat.not_lt.mpr hdata.skip.le_length), LengthPrefixed.encode,
    List.length_append, Nat.add_assoc]

/-- The fields of a STREAM frame before the length. -/
theorem streamFields_at {frameType : UInt8} {streamId : Varint} {streamOffset : Option Varint}
    (hbit : frameType &&& 0x04 ≠ 0 ↔ streamOffset.isSome)
    (h : At payload offset (varints (streamId :: streamOffset.toList) ++ rest)) :
    skipVarints payload (if frameType &&& 0x04 ≠ 0 then 2 else 1) offset =
      pure (some (offset + (varints (streamId :: streamOffset.toList)).length)) := by
  rw [← skipVarints_at h]
  rcases streamOffset with _ | streamOffset
  · rw [if_neg (fun hset => nomatch hbit.mp hset)]
    rfl
  · rw [if_pos (hbit.mpr rfl)]
    rfl

theorem streamFrame_at {frameType : UInt8} {streamId : Varint} {streamOffset : Option Varint}
    {data : LengthPrefixed} (hbit : frameType &&& 0x04 ≠ 0 ↔ streamOffset.isSome)
    (hlen : frameType &&& 0x02 ≠ 0)
    (h : At payload offset (varints (streamId :: streamOffset.toList) ++ (data.encode ++ rest))) :
    streamFrame payload frameType offset walk =
      pure (.next (offset + (varints (streamId :: streamOffset.toList)).length +
        data.encode.length) walk) := by
  have hlength := h.skip
  rw [LengthPrefixed.encode, List.append_assoc] at hlength
  unfold streamFrame
  dsimp only
  rw [streamFields_at hbit h, pure_bind']
  dsimp only
  rw [if_pos hlen, readVarint_at hlength, pure_bind']
  dsimp only
  rw [data.length_eq, if_neg (Nat.not_lt.mpr hlength.skip.skip.le_length), LengthPrefixed.encode,
    List.length_append, Nat.add_assoc _ data.length.encode.length]

/-- A STREAM frame without a length ends with the payload. -/
theorem openStreamFrame_at {frameType : UInt8} {streamId : Varint} {streamOffset : Option Varint}
    (hbit : frameType &&& 0x04 ≠ 0 ↔ streamOffset.isSome) (hlen : ¬ frameType &&& 0x02 ≠ 0)
    (h : At payload offset (varints (streamId :: streamOffset.toList) ++ rest)) :
    streamFrame payload frameType offset walk = pure (.next payload.length walk) := by
  have hle := h.skip.le_length
  unfold streamFrame
  dsimp only
  rw [streamFields_at hbit h, pure_bind']
  dsimp only
  rw [if_neg hlen, sub_eq hle, pure_bind', Nat.add_sub_cancel' hle, if_neg (Nat.lt_irrefl _)]

theorem newConnectionIdFrame_at {sequenceNumber retirePriorTo : Varint}
    {connectionId : ConnectionId} {token : Vector UInt8 16}
    (h : At payload offset (varints [sequenceNumber, retirePriorTo] ++
      (UInt8.ofNat connectionId.bytes.length :: (connectionId.bytes ++ (token.toList ++ rest))))) :
    newConnectionIdFrame payload offset walk =
      pure (.next (offset + (varints [sequenceNumber, retirePriorTo]).length +
        (1 + connectionId.bytes.length + 16)) walk) := by
  have hcid := h.skip
  have hend := hcid.next.skip.skip.le_length
  rw [Vector.length_toList] at hend
  have hlen : (UInt8.ofNat connectionId.bytes.length).toNat = connectionId.bytes.length := by
    have := connectionId.length_le
    rw [UInt8.toNat_ofNat']
    omega
  rw [newConnectionIdFrame, show 2 = [sequenceNumber, retirePriorTo].length from rfl,
    skipVarints_at h, pure_bind']
  dsimp only
  rw [if_neg (by omega), hcid.index, pure_bind', hlen, if_neg (by omega)]

theorem connectionCloseFrame_at (frameType : UInt8) {errorCode : Varint} {fields : List Varint}
    {reason : LengthPrefixed} (hfields : (if frameType = 0x1c then 1 else 0) = fields.length)
    (h : At payload offset (errorCode.encode ++ (varints fields ++ (reason.encode ++ rest)))) :
    connectionCloseFrame payload frameType offset walk =
      pure (.next (offset + errorCode.encode.length + (varints fields).length +
        reason.encode.length) (walk.close frameType errorCode.value)) := by
  have hfield := h.skip
  have hreason := hfield.skip
  rw [LengthPrefixed.encode, List.append_assoc] at hreason
  have hdata := hreason.skip
  have hend := hdata.skip.le_length
  rw [connectionCloseFrame, readVarint_at h, pure_bind']
  dsimp only
  rw [hfields, skipVarints_at hfield, pure_bind']
  dsimp only
  rw [readVarint_at hreason, pure_bind']
  dsimp only
  rw [reason.length_eq, hdata.slice, pure_bind', pure_bind', if_neg (Nat.not_lt.mpr hend),
    ite_self, LengthPrefixed.encode, List.length_append,
    Nat.add_assoc _ reason.length.encode.length]

/-- One round of the loop goes on behind the frame, with what the frame brings. -/
theorem processFrame_at (f : Frame) (hf : f ≠ .padding) (h : At payload offset (f.fields ++ rest)) :
    processFrame payload f.frameType offset walk =
      pure (.next (offset + f.fields.length) (f.apply walk)) := by
  cases f with
  | padding => exact absurd rfl hf
  | ping => rfl
  | ack largest delay first ranges =>
    simp only [Frame.fields, List.append_assoc] at h
    refine (ackFrame_at 0x02 h).trans ?_
    simp only [Frame.fields, List.length_append, Nat.add_assoc]
    rfl
  | ackEcn largest delay first ranges ect0 ect1 ce =>
    simp only [Frame.fields, List.append_assoc] at h
    have hcounts := h.skip.skip.skip.skip
    -- behind the ranges the three ECN counts are read as further fields
    refine (ackFrame_at 0x03 h).trans ((varintsFrame_at hcounts).trans ?_)
    simp only [Frame.fields, List.length_append, Nat.add_assoc]
    rfl
  | resetStream id code size => exact varintsFrame_at h
  | stopSending id code => exact varintsFrame_at h
  | crypto cryptoOffset data =>
    simp only [Frame.fields, List.append_assoc] at h
    refine (cryptoFrame_at h).trans ?_
    rw [Frame.fields, List.length_append, Nat.add_assoc]
  | newToken token => exact newTokenFrame_at h
  | stream fin id streamOffset data =>
    simp only [Frame.fields, List.append_assoc] at h
    have hstep : ∀ type : UInt8, (type &&& 0x04 ≠ 0 ↔ streamOffset.isSome) →
        type &&& 0x02 ≠ 0 → streamFrame payload type offset walk =
          pure (.next (offset + (Frame.stream fin id streamOffset data).fields.length) walk) := by
      intro type hbit hlen
      rw [streamFrame_at hbit hlen h, Frame.fields, List.length_append, Nat.add_assoc]
    -- the type carries the bits FIN and OFF; LEN is always set
    rcases fin <;> rcases streamOffset with _ | streamOffset
    · exact hstep 0x0a (by decide) (by decide)
    · exact hstep 0x0e (iff_of_true (by decide) rfl) (by decide)
    · exact hstep 0x0b (by decide) (by decide)
    · exact hstep 0x0f (iff_of_true (by decide) rfl) (by decide)
  | maxData m => exact varintsFrame_at h
  | maxStreamData id m => exact varintsFrame_at h
  | maxStreams u m => rcases u <;> exact varintsFrame_at h
  | dataBlocked l => exact varintsFrame_at h
  | streamDataBlocked id l => exact varintsFrame_at h
  | streamsBlocked u l => rcases u <;> exact varintsFrame_at h
  | newConnectionId n r cid token =>
    simp only [Frame.fields, List.append_assoc, List.cons_append] at h
    refine (newConnectionIdFrame_at h).trans ?_
    rw [Frame.fields, List.length_append, List.length_cons, List.length_append,
      Vector.length_toList]
    congr 2
    omega
  | retireConnectionId n => exact varintsFrame_at h
  | pathChallenge data =>
    -- the loop goes on eight bytes behind the type, whatever they are
    show pure (FrameStep.next (offset + 8) walk) = _
    rw [Frame.fields, Vector.length_toList]
    rfl
  | pathResponse data =>
    show pure (FrameStep.next (offset + 8) walk) = _
    rw [Frame.fields, Vector.length_toList]
    rfl
  | connectionClose code type reason =>
    simp only [Frame.fields, List.append_assoc] at h
    refine (connectionCloseFrame_at 0x1c rfl h).trans ?_
    simp only [Frame.fields, List.length_append, Nat.add_assoc]
    rfl
  | applicationClose code reason =>
    simp only [Frame.fields, List.append_assoc] at h
    refine (connectionCloseFrame_at 0x1d rfl h).trans ?_
    simp only [Frame.fields, List.length_append, Nat.add_assoc]
    rfl
  | handshakeDone => rfl

end Frame

/-! ## The loop -/

/-- The offsets at which the loop reads a frame type. -/
def visitedOffsets (payload : List UInt8) : ℕ → ℕ → FrameWalk → List ℕ
  | 0, _, _ => []
  | rounds + 1, offset, walk =>
    if h : offset < payload.length then
      offset :: match processFrame payload payload[offset] (offset + 1) walk with
        | .ok (.next next walk) =>
          if payload.length < next then [] else visitedOffsets payload rounds next walk
        | _ => []
    else []

/-- The loop runs from one state to its end and visits `offsets`. -/
structure Walked (payload : List UInt8) (rounds offset : ℕ) (walk walk' : FrameWalk)
    (offsets : List ℕ) : Prop where
  done : walkFrames payload rounds offset walk = pure (.done walk')
  visited : visitedOffsets payload rounds offset walk = offsets

section Walked

variable {payload rest : List UInt8} {rounds offset next : ℕ} {walk walk' walk'' : FrameWalk}
  {offsets : List ℕ} {frameType : UInt8}

theorem Walked.end (h : payload.length ≤ offset) :
    Walked payload rounds offset walk walk [] := by
  refine ⟨walkFrames_end h, ?_⟩
  rcases rounds with _ | rounds
  · rfl
  · exact dif_neg (Nat.not_lt.mpr h)

theorem At.getElem_eq (h : At payload offset (frameType :: rest)) (hlt : offset < payload.length) :
    payload[offset] = frameType :=
  Except.ok.inj ((index_eq hlt).symm.trans h.index)

theorem At.lt_length (h : At payload offset (frameType :: rest)) : offset < payload.length := by
  rw [h.length_eq, List.length_cons]
  omega

/-- A round that goes on, and the rounds behind it. -/
theorem Walked.step (h : At payload offset (frameType :: rest))
    (hstep : processFrame payload frameType (offset + 1) walk = pure (.next next walk'))
    (hnext : next ≤ payload.length) (hrest : Walked payload rounds next walk' walk'' offsets) :
    Walked payload (rounds + 1) offset walk walk'' (offset :: offsets) where
  done := by
    rw [walkFrames, if_neg (Nat.not_le.mpr (At.lt_length h)), h.index, pure_bind', hstep,
      pure_bind']
    dsimp only
    rw [if_neg (Nat.not_lt.mpr hnext), hrest.done]
  visited := by
    rw [visitedOffsets, dif_pos (At.lt_length h), At.getElem_eq h, hstep]
    exact congrArg (offset :: ·) ((if_neg (Nat.not_lt.mpr hnext)).trans hrest.visited)

/-- PADDING before PADDING is skipped in the same round. -/
theorem processFrame_padding_cons (walk : FrameWalk) (h : At payload offset (0x00 :: rest)) :
    processFrame payload 0x00 offset walk = processFrame payload 0x00 (offset + 1) walk := by
  have hlt := At.lt_length h
  have hskip : skipPadding payload (payload.length - offset) offset =
      skipPadding payload (payload.length - (offset + 1)) (offset + 1) := by
    rw [show payload.length - offset = payload.length - (offset + 1) + 1 by omega, skipPadding,
      if_neg (Nat.not_le.mpr hlt), h.index, pure_bind', if_pos rfl]
  show skipPadding _ _ _ >>= _ = skipPadding _ _ _ >>= _
  rw [hskip]

/-- Anything else ends the run of PADDING. -/
theorem processFrame_padding_end (h : At payload offset rest) (hrest : rest.head? ≠ some 0x00) :
    processFrame payload 0x00 offset walk = pure (.next offset walk) := by
  have hskip : skipPadding payload (payload.length - offset) offset = pure offset := by
    rcases rest with _ | ⟨b, rest⟩
    · rw [h.length_eq, List.length_nil, Nat.add_zero, Nat.sub_self]
      rfl
    · have hlt := At.lt_length h
      have hb : b ≠ 0x00 := fun hb => hrest (congrArg some hb)
      rw [show payload.length - offset = payload.length - (offset + 1) + 1 by omega, skipPadding,
        if_neg (Nat.not_le.mpr hlt), h.index, pure_bind', if_neg hb]
  show skipPadding _ _ _ >>= _ = _
  rw [hskip]
  rfl

/-- PADDING before PADDING is visited in place of it. -/
theorem Walked.padding_cons (h : At payload offset (0x00 :: 0x00 :: rest))
    (hrest : Walked payload (rounds + 1) (offset + 1) walk walk'' ((offset + 1) :: offsets)) :
    Walked payload (rounds + 1) offset walk walk'' (offset :: offsets) := by
  -- the loop over the padding goes the same way from the second byte
  have hstep := processFrame_padding_cons walk h.next
  have hlt := At.lt_length h
  have hlt' := At.lt_length h.next
  obtain ⟨hdone, hvisited⟩ := hrest
  unfold walkFrames at hdone
  unfold visitedOffsets at hvisited
  rw [if_neg (Nat.not_le.mpr hlt'), h.next.index, pure_bind', ← hstep] at hdone
  rw [dif_pos hlt', At.getElem_eq h.next, ← hstep] at hvisited
  refine ⟨?_, ?_⟩
  · unfold walkFrames
    rw [if_neg (Nat.not_le.mpr hlt), h.index, pure_bind']
    exact hdone
  · unfold visitedOffsets
    rw [dif_pos hlt, At.getElem_eq h]
    exact congrArg (offset :: ·) (List.cons.inj hvisited).2

end Walked

/-! ## A whole payload -/

namespace Frame

def isPadding : Frame → Bool
  | padding => true
  | _ => false

/-- The CRYPTO data that a frame hands over. -/
def cryptoData? : Frame → Option (ℕ × List UInt8)
  | crypto offset data => if data.data = [] then none else some (offset.value, data.data)
  | _ => none

/-- The type and the error code of a CONNECTION_CLOSE. -/
def close? : Frame → Option QuicCloseInfo
  | connectionClose errorCode _ _ => some ⟨0x1c, UInt64.ofNat errorCode.value⟩
  | applicationClose errorCode _ => some ⟨0x1d, UInt64.ofNat errorCode.value⟩
  | _ => none

/-- Where frames start, from `offset` on, but for PADDING behind PADDING. -/
def boundaries (behindPadding : Bool) (offset : ℕ) : List Frame → List ℕ
  | [] => []
  | f :: fs =>
    if behindPadding && f.isPadding then boundaries true (offset + 1) fs
    else offset :: boundaries f.isPadding (offset + f.encode.length) fs

theorem isPadding_iff {f : Frame} : f.isPadding = true ↔ f = padding := by
  rcases f <;> simp [isPadding]

theorem isPadding_eq_false {f : Frame} (h : f ≠ padding) : f.isPadding = false :=
  Bool.eq_false_iff.mpr fun htrue => h (isPadding_iff.mp htrue)

/-- Only PADDING starts with a zero. -/
theorem frameType_ne_zero {f : Frame} (h : f ≠ padding) : f.frameType ≠ 0x00 := by
  cases f with
  | padding => exact absurd rfl h
  | stream fin _ offset _ => rcases fin <;> rcases offset <;> simp [frameType]
  | maxStreams u _ => rcases u <;> simp [frameType]
  | streamsBlocked u _ => rcases u <;> simp [frameType]
  | _ => simp [frameType]

/-- Behind a frame that is not PADDING every frame counts. -/
theorem boundaries_of_ne_padding {f : Frame} (h : f ≠ padding) (behindPadding : Bool) (offset : ℕ)
    (fs : List Frame) :
    boundaries behindPadding offset (f :: fs) =
      offset :: boundaries false (offset + f.encode.length) fs := by
  rw [boundaries, isPadding_eq_false h, Bool.and_false]
  exact if_neg Bool.false_ne_true

end Frame

namespace PacketPayload

/-- Where the frames start, but for PADDING behind PADDING. -/
def boundaries (p : PacketPayload) : List ℕ :=
  Frame.boundaries false 0 p.frames ++
    if p.openStream.isSome then [(p.frames.flatMap Frame.encode).length] else []

/-- The data of the CRYPTO frames that carry any, in order. -/
def cryptoData (p : PacketPayload) : List (ℕ × List UInt8) := p.frames.filterMap Frame.cryptoData?

/-- The last CONNECTION_CLOSE of the payload, which is the one that the loop leaves in the
record. -/
def lastClose (p : PacketPayload) : Option QuicCloseInfo :=
  (p.frames.filterMap Frame.close?).getLast?

end PacketPayload

section Payload

variable {payload : List UInt8} {rounds offset : ℕ} {walk : FrameWalk} {frames : List Frame}
  {openStream : Option OpenStream}

/-- The STREAM frame that takes up the rest, if there is one. -/
theorem walked_openStream
    (h : At payload offset ((openStream.map OpenStream.encode).getD []))
    (hrounds : payload.length ≤ offset + rounds) :
    Walked payload rounds offset walk walk (if openStream.isSome then [offset] else []) := by
  rcases openStream with _ | s
  · exact Walked.end (h.length_eq.le.trans (Nat.add_zero offset).le)
  obtain ⟨rounds, rfl⟩ : ∃ n, rounds = n + 1 := by
    have := At.lt_length h
    exact ⟨rounds - 1, by omega⟩
  -- the frame takes up the rest, and the walk ends behind it
  refine Walked.step h ?_ le_rfl (Walked.end le_rfl)
  have hstream : processFrame payload s.frameType (offset + 1) walk =
      streamFrame payload s.frameType (offset + 1) walk := by
    rcases s with ⟨_ | _, _, _ | _, _⟩ <;> rfl
  rw [hstream]
  exact openStreamFrame_at s.frameType_offset s.frameType_length h.next

theorem openStream_head? : ((openStream.map OpenStream.encode).getD []).head? ≠ some 0x00 := by
  rcases openStream with _ | s
  · exact fun h => nomatch h
  · exact fun h => s.frameType_ne_zero (Option.some.inj h)

/-- The loop over frames: every frame changes the state in turn. -/
theorem walked_frames (walk : FrameWalk)
    (h : At payload offset
      (frames.flatMap Frame.encode ++ (openStream.map OpenStream.encode).getD []))
    (hrounds : payload.length ≤ offset + rounds) :
    Walked payload rounds offset walk (frames.foldl Frame.apply walk)
      (Frame.boundaries false offset frames ++
        if openStream.isSome then [offset + (frames.flatMap Frame.encode).length] else []) := by
  induction frames generalizing offset rounds walk with
  | nil => exact walked_openStream h hrounds
  | cons f fs ih =>
    rw [List.flatMap_cons, List.append_assoc] at h
    have hlt : offset < payload.length := At.lt_length h
    obtain ⟨rounds, rfl⟩ : ∃ n, rounds = n + 1 := ⟨rounds - 1, by omega⟩
    have hlen : ∀ fs : List Frame, offset + ((f :: fs).flatMap Frame.encode).length =
        offset + f.encode.length + (fs.flatMap Frame.encode).length := by
      intro fs
      rw [List.flatMap_cons, List.length_append, Nat.add_assoc]
    have hpos : 0 < f.encode.length := List.length_pos_of_ne_nil (List.cons_ne_nil _ _)
    have hskip := h.skip
    rw [hlen]
    by_cases hf : f = .padding
    · subst hf
      rcases fs with _ | ⟨g, fs⟩
      · -- PADDING before the rest of the payload
        refine Walked.step h (processFrame_padding_end hskip openStream_head?) hskip.le_length ?_
        exact ih _ hskip (by omega)
      by_cases hg : g = .padding
      · -- the same round of the loop goes on with the next byte
        subst hg
        exact Walked.padding_cons h (ih _ hskip (by omega))
      · -- the run of PADDING ends, and the next frame is read in a round of its own
        refine Walked.step h (processFrame_padding_end hskip ?_) hskip.le_length ?_
        · exact fun hhead => Frame.frameType_ne_zero hg (Option.some.inj hhead)
        · have hbound := Frame.boundaries_of_ne_padding hg
          show Walked _ _ _ _ _ (Frame.boundaries true (offset + 1) (g :: fs) ++ _)
          rw [hbound true, ← hbound false]
          exact ih _ hskip (by omega)
    · rw [Frame.boundaries_of_ne_padding hf, List.cons_append]
      have hfields : At payload (offset + 1)
          (f.fields ++ (fs.flatMap Frame.encode ++ (openStream.map OpenStream.encode).getD [])) :=
        h.next
      have hnext : offset + 1 + f.fields.length = offset + f.encode.length := by
        rw [Frame.encode, List.length_cons]
        omega
      -- any other frame takes one round
      refine Walked.step h ?_ hskip.le_length (ih _ hskip (by omega))
      rw [processFrame_at f hf hfields, hnext]

theorem foldl_apply_cryptoReassembler :
    (frames.foldl Frame.apply walk).info.cryptoReassembler =
      walk.info.cryptoReassembler.map fun r =>
        (frames.filterMap Frame.cryptoData?).foldl CryptoFrameReassembler.receive r := by
  induction frames generalizing walk with
  | nil => simp
  | cons f fs ih =>
    rw [List.foldl_cons, ih, List.filterMap_cons]
    cases f with
    | crypto cryptoOffset data =>
      by_cases hnil : data.data = []
      · simp [Frame.apply, Frame.cryptoData?, hnil, FrameWalk.markCrypto]
      · simp [Frame.apply, Frame.cryptoData?, hnil, FrameWalk.markCrypto, FrameWalk.addFragment,
          Function.comp_def]
    | _ => rfl

/-- The state that the walk records for a CONNECTION_CLOSE, by the error code alone. -/
def closeState (close : QuicCloseInfo) : QuicConnectionState :=
  if close.errorCode = 0 then .draining else .closed

theorem close_connectionState (walk : FrameWalk) (frameType : UInt8) (errorCode : Varint) :
    (walk.close frameType errorCode.value).info.connectionState =
      closeState ⟨frameType, UInt64.ofNat errorCode.value⟩ := by
  show (if errorCode.value = 0 then _ else _) = if UInt64.ofNat errorCode.value = 0 then _ else _
  simp only [errorCode_eq_zero_iff errorCode.value_lt_two_pow]

/-- Other frames leave the state and the close alone. -/
theorem apply_of_close?_eq_none (walk : FrameWalk) {f : Frame} (h : f.close? = none) :
    (f.apply walk).info.connectionState = walk.info.connectionState ∧
      (f.apply walk).info.connectionClose = walk.info.connectionClose := by
  cases f with
  | crypto cryptoOffset data =>
    show (if data.data = [] then _ else _ : FrameWalk).info.connectionState = _ ∧
      (if data.data = [] then _ else _ : FrameWalk).info.connectionClose = _
    split_ifs <;> exact ⟨rfl, rfl⟩
  | connectionClose code type reason => exact nomatch h
  | applicationClose code reason => exact nomatch h
  | _ => exact ⟨rfl, rfl⟩

theorem apply_of_close?_eq_some (walk : FrameWalk) {f : Frame} {close : QuicCloseInfo}
    (h : f.close? = some close) :
    (f.apply walk).info.connectionState = closeState close ∧
      (f.apply walk).info.connectionClose = some close := by
  cases f with
  | connectionClose code type reason =>
    obtain rfl := Option.some.inj h
    exact ⟨close_connectionState walk 0x1c code, rfl⟩
  | applicationClose code reason =>
    obtain rfl := Option.some.inj h
    exact ⟨close_connectionState walk 0x1d code, rfl⟩
  | _ => exact nomatch h

/-- A close of either type is recorded with its type. -/
theorem PacketPayload.frameType_of_lastClose {p : PacketPayload} {close : QuicCloseInfo}
    (h : p.lastClose = some close) : close.frameType = 0x1c ∨ close.frameType = 0x1d := by
  obtain ⟨f, -, hf⟩ := List.mem_filterMap.mp (List.mem_of_getLast? h)
  cases f with
  | connectionClose code type reason =>
    obtain rfl := Option.some.inj hf
    exact .inl rfl
  | applicationClose code reason =>
    obtain rfl := Option.some.inj hf
    exact .inr rfl
  | _ => exact nomatch hf

/-- The last CONNECTION_CLOSE decides on the state and the close. -/
theorem foldl_apply_close (walk : FrameWalk) (frames : List Frame) :
    let last := (frames.filterMap Frame.close?).getLast?
    (frames.foldl Frame.apply walk).info.connectionState =
        (last.map closeState).getD walk.info.connectionState ∧
      (frames.foldl Frame.apply walk).info.connectionClose = last.or walk.info.connectionClose := by
  induction frames generalizing walk with
  | nil => exact ⟨rfl, rfl⟩
  | cons f fs ih =>
    rw [List.foldl_cons, (ih _).1, (ih _).2]
    rcases hf : f.close? with _ | close
    · obtain ⟨hstate', hclose'⟩ := apply_of_close?_eq_none walk hf
      rw [List.filterMap_cons_none hf, hstate', hclose']
      exact ⟨rfl, rfl⟩
    · obtain ⟨hstate', hclose'⟩ := apply_of_close?_eq_some walk hf
      rw [List.filterMap_cons_some hf, hstate', hclose', List.getLast?_cons]
      rcases (fs.filterMap Frame.close?).getLast? with _ | last <;> exact ⟨rfl, rfl⟩

/-- The walk over a payload takes its frames in turn. -/
theorem walked_encode (p : PacketPayload) (info : QuicInfo) :
    Walked p.encode p.encode.length 0 ⟨info.ensureReassembler, false⟩
      (p.frames.foldl Frame.apply ⟨info.ensureReassembler, false⟩) p.boundaries := by
  have hwalked := walked_frames ⟨info.ensureReassembler, false⟩ (At.start p.encode)
    (Nat.zero_add _).ge
  rwa [Nat.zero_add] at hwalked

theorem processCryptoFramesInPacket_eq [CryptoExtraction] (p : PacketPayload)
    (info : QuicInfo) :
    processCryptoFramesInPacket p.encode info =
      extractTls (p.frames.foldl Frame.apply ⟨info.ensureReassembler, false⟩) := by
  rw [processCryptoFramesInPacket, (walked_encode p info).done]
  rfl

/-- The walk over a payload visits its boundaries, hands the data of every CRYPTO frame that has any
to the reassembler in order, and records the last CONNECTION_CLOSE. The payload is any sequence of
the frames of RFC 9000, with a STREAM frame without a length at most at its end; padding is stepped
over as one frame. The extraction at the end is any. -/
theorem processCryptoFramesInPacket_encode [CryptoExtraction] (p : PacketPayload)
    (info : QuicInfo) :
    ∃ walk,
      walkFrames p.encode p.encode.length 0 ⟨info.ensureReassembler, false⟩ = pure (.done walk) ∧
      processCryptoFramesInPacket p.encode info = extractTls walk ∧
      visitedOffsets p.encode p.encode.length 0 ⟨info.ensureReassembler, false⟩ = p.boundaries ∧
      walk.info.cryptoReassembler =
        some (p.cryptoData.foldl CryptoFrameReassembler.receive
          (info.cryptoReassembler.getD .new)) ∧
      walk.info.connectionClose = p.lastClose.or info.connectionClose :=
  ⟨_, (walked_encode p info).done, processCryptoFramesInPacket_eq p info,
    (walked_encode p info).visited, foldl_apply_cryptoReassembler,
    (foldl_apply_close _ _).2⟩

/-- A CRYPTO frame without data. -/
def emptyCrypto : Frame := .crypto Varint.zero .empty

/-- The data of a CRYPTO frame that has none is not handed over. -/
theorem emptyCrypto_not_received :
    let p : PacketPayload := ⟨[emptyCrypto], none⟩
    ∀ walk,
      walkFrames p.encode p.encode.length 0 ⟨(QuicInfo.new 1).ensureReassembler, false⟩ =
        pure (.done walk) →
      walk.info.cryptoReassembler ≠ some (CryptoFrameReassembler.new.receive (0, [])) := by
  rintro p walk hwalk heq
  have hdone := (walked_encode p (QuicInfo.new 1)).done
  obtain rfl : _ = walk := FrameEnd.done.inj (Except.ok.inj (hdone.symm.trans hwalk))
  exact absurd (congrArg CryptoFrameReassembler.fragments (Option.some.inj heq)) (by decide)

end Payload

end RustNet.Quic
