import RustNet.Network.Parser.Packet
import RustNet.Network.Quic.Reassembly
import RustNet.Network.Quic.Varint

/-!
# Frames of a decrypted packet

`process_crypto_frames_in_packet`, which walks over the frames of a decrypted payload, hands the
data of CRYPTO frames to the reassembler and records a CONNECTION_CLOSE. Every frame starts with its
type; what follows is skipped by a layout of its own for every type.

Offsets are natural numbers: a payload is shorter than `2 ^ 63` bytes and the lengths in it are
below `2 ^ 62`, so the sums that the source checks for overflow do not overflow.

## Main results

* `Quic.processFrame_ensures`: a frame is read without a fault, and the next one starts behind its
  type;
* `Quic.walkFrames_of_le`: the bytes of the payload are rounds enough for the loop;
* `Quic.processCryptoFramesInPacket_ensures`: no payload and no state of the reassembler make the
  walk fail.
-/

namespace RustNet

/-- `quic_version_to_string`: the versions and drafts that have a name; others are shown by none. -/
def quicVersionToString (version : UInt32) : Option String :=
  if version = 0x00000001 then some "v1"
  else if version = 0x6b3343cf then some "v2"
  else if version = 0xff00001d then some "draft-29"
  else if version = 0xff00001c then some "draft-28"
  else if version = 0xff00001b then some "draft-27"
  else if version = 0x51303530 then some "Q050"
  else if version = 0x54303530 then some "T050"
  else if version >>> 8 = 0xff0000 then some ("draft-" ++ toString (version &&& 0xff).toNat)
  else none

/-- `QuicInfo::new`: the record of a packet of which nothing but the version is known yet. -/
def QuicInfo.new (version : UInt32) : QuicInfo where
  versionString := quicVersionToString version
  packetType := .unknown
  connectionId := []
  connectionIdHex := none
  connectionState := .unknown
  tlsInfo := none
  hasCryptoFrame := false
  cryptoReassembler := none
  connectionClose := none
  idleTimeout := none

/-- `QuicInfo::ensure_reassembler`: an empty reassembler is made when there is none; one that is
there stays. -/
def QuicInfo.ensureReassembler (info : QuicInfo) : QuicInfo :=
  { info with cryptoReassembler := some (info.cryptoReassembler.getD .new) }

namespace Quic

open Checked

/-- What the loop over the frames carries. -/
structure FrameWalk where
  info : QuicInfo
  foundCryptoFrames : Bool

/-- What one round of the loop comes to. -/
inductive FrameStep
  /-- The next frame is read from `offset` on. -/
  | next (offset : ℕ) (walk : FrameWalk)
  /-- `break`. -/
  | stop (walk : FrameWalk)
  /-- A `?` that returns `None` from the function. -/
  | fail (walk : FrameWalk)

/-- How the loop over the frames ends: with the extraction still to come, or by a return from within
it, which leaves the extraction out. -/
inductive FrameEnd
  | done (walk : FrameWalk)
  | failed (walk : FrameWalk)

namespace FrameWalk

/-- Hand data to the reassembler; a refused fragment is only logged. -/
def addFragment (walk : FrameWalk) (offset : ℕ) (data : List UInt8) : FrameWalk :=
  { walk with
    info :=
      { walk.info with
        cryptoReassembler := walk.info.cryptoReassembler.map fun r => r.receive (offset, data) } }

/-- A CRYPTO frame has been found. -/
def markCrypto (walk : FrameWalk) : FrameWalk where
  info := { walk.info with hasCryptoFrame := true }
  foundCryptoFrames := true

/-- Record a CONNECTION_CLOSE: its type and code are stored, and the state is draining for a code of
zero and closed for any other. -/
def close (walk : FrameWalk) (frameType : UInt8) (errorCode : ℕ) : FrameWalk :=
  { walk with
    info :=
      { walk.info with
        connectionClose := some ⟨frameType, UInt64.ofNat errorCode⟩
        connectionState := if errorCode = 0 then .draining else .closed } }

end FrameWalk

/-- Error codes are below `2 ^ 62`, so none is recorded as zero that is not. -/
theorem errorCode_eq_zero_iff {errorCode : ℕ} (h : errorCode < 2 ^ 62) :
    UInt64.ofNat errorCode = 0 ↔ errorCode = 0 := by
  rw [← UInt64.toNat_inj, UInt64.toNat_ofNat', Nat.mod_eq_of_lt (h.trans (by decide))]
  rfl

section Walk

variable (payload : List UInt8)

/-! ## Fields -/

/-- The variable-length integer at `offset`, and the offset behind it. -/
def readVarint (offset : ℕ) : Checked (Option (ℕ × ℕ)) := do
  let data ← sliceFrom payload offset
  let some read ← parseVariableLengthInt data | return none
  return some (read.1, offset + read.2)

/-- The offset behind `n` variable-length integers. -/
def skipVarints : ℕ → ℕ → Checked (Option ℕ)
  | 0, offset => return some offset
  | n + 1, offset => do
    let some read ← readVarint payload offset | return none
    skipVarints n read.2

/-- The inner loop of PADDING. -/
def skipPadding : ℕ → ℕ → Checked ℕ
  | 0, offset => return offset
  | rounds + 1, offset => do
    if payload.length ≤ offset then return offset
    let b ← index payload offset
    if b = 0x00 then skipPadding rounds (offset + 1) else return offset

/-! ## Frames, from behind the type on -/

/-- A frame of `n` variable-length integers. -/
def varintsFrame (n offset : ℕ) (walk : FrameWalk) : Checked FrameStep := do
  let some offset ← skipVarints payload n offset | return .fail walk
  return .next offset walk

/-- ACK, and ACK_ECN with three counts at the end. -/
def ackFrame (frameType : UInt8) (offset : ℕ) (walk : FrameWalk) : Checked FrameStep := do
  let some offset ← skipVarints payload 2 offset | return .fail walk
  let some ackRangeCount ← readVarint payload offset | return .fail walk
  let some offset ← skipVarints payload 1 ackRangeCount.2 | return .fail walk
  -- two integers in each round of the loop over the ranges
  let some offset ← skipVarints payload (2 * ackRangeCount.1) offset | return .fail walk
  if frameType = 0x03 then varintsFrame payload 3 offset walk else return .next offset walk

/-- CRYPTO. Data that ends behind the payload is handed over as far as it is there. -/
def cryptoFrame (offset : ℕ) (walk : FrameWalk) : Checked FrameStep := do
  let walk := walk.markCrypto
  let some cryptoOffset ← readVarint payload offset | return .fail walk
  let some cryptoLength ← readVarint payload cryptoOffset.2 | return .fail walk
  let left ← sub payload.length cryptoLength.2
  let available := min left cryptoLength.1
  if 0 < available then do
    let cryptoData ← slice payload cryptoLength.2 (cryptoLength.2 + available)
    return .next (cryptoLength.2 + available) (walk.addFragment cryptoOffset.1 cryptoData)
  else return .next (cryptoLength.2 + available) walk

/-- NEW_TOKEN: a token behind its length. A token that is cut off ends the loop without an error. -/
def newTokenFrame (offset : ℕ) (walk : FrameWalk) : Checked FrameStep := do
  let some tokenLength ← readVarint payload offset | return .fail walk
  if payload.length < tokenLength.2 + tokenLength.1 then return .stop walk
  return .next (tokenLength.2 + tokenLength.1) walk

/-- STREAM, whose type says which fields there are. -/
def streamFrame (frameType : UInt8) (offset : ℕ) (walk : FrameWalk) : Checked FrameStep := do
  let fields := if frameType &&& 0x04 ≠ 0 then 2 else 1
  let some offset ← skipVarints payload fields offset | return .fail walk
  if frameType &&& 0x02 ≠ 0 then do
    let some length ← readVarint payload offset | return .fail walk
    if payload.length < length.2 + length.1 then return .stop walk
    return .next (length.2 + length.1) walk
  else do
    let streamDataLen ← sub payload.length offset
    if payload.length < offset + streamDataLen then return .stop walk
    return .next (offset + streamDataLen) walk

/-- NEW_CONNECTION_ID: a connection ID and a stateless reset token. -/
def newConnectionIdFrame (offset : ℕ) (walk : FrameWalk) : Checked FrameStep := do
  let some offset ← skipVarints payload 2 offset | return .fail walk
  if payload.length ≤ offset then return .stop walk
  let cidLength ← index payload offset
  let offset := offset + (1 + cidLength.toNat + 16)
  if payload.length < offset then return .stop walk
  return .next offset walk

/-- CONNECTION_CLOSE; only `0x1c` names a frame type. The reason is logged. -/
def connectionCloseFrame (frameType : UInt8) (offset : ℕ) (walk : FrameWalk) :
    Checked FrameStep := do
  let some errorCode ← readVarint payload offset | return .fail walk
  let some offset ← skipVarints payload (if frameType = 0x1c then 1 else 0) errorCode.2
    | return .fail walk
  let some reasonLength ← readVarint payload offset | return .fail walk
  let reasonEnd := reasonLength.2 + reasonLength.1
  let _reason ←
    if 0 < reasonLength.1 ∧ reasonEnd ≤ payload.length then
      slice payload reasonLength.2 reasonEnd
    else pure []
  if payload.length < reasonEnd then return .stop walk
  return .next reasonEnd (walk.close frameType errorCode.1)

/-- The match on `frame_type_byte`: every frame of the standard is walked over by its own fields. A
type that is not known ends the loop, as its length is not known either. -/
def processFrame (frameType : UInt8) (offset : ℕ) (walk : FrameWalk) : Checked FrameStep :=
  if frameType = 0x00 then do
    let offset ← skipPadding payload (payload.length - offset) offset
    return .next offset walk
  else if frameType = 0x01 then return .next offset walk
  else if frameType = 0x02 ∨ frameType = 0x03 then ackFrame payload frameType offset walk
  else if frameType = 0x04 then varintsFrame payload 3 offset walk
  else if frameType = 0x05 then varintsFrame payload 2 offset walk
  else if frameType = 0x06 then cryptoFrame payload offset walk
  else if frameType = 0x07 then newTokenFrame payload offset walk
  else if 0x08 ≤ frameType ∧ frameType ≤ 0x0f then streamFrame payload frameType offset walk
  -- limits, and senders that are blocked by them; two of them name a stream first
  else if 0x10 ≤ frameType ∧ frameType ≤ 0x17 then
    varintsFrame payload (if frameType = 0x11 ∨ frameType = 0x15 then 2 else 1) offset walk
  else if frameType = 0x18 then newConnectionIdFrame payload offset walk
  else if frameType = 0x19 then varintsFrame payload 1 offset walk
  else if frameType = 0x1a ∨ frameType = 0x1b then return .next (offset + 8) walk
  else if frameType = 0x1c ∨ frameType = 0x1d then
    connectionCloseFrame payload frameType offset walk
  else if frameType = 0x1e then return .next offset walk
  else return .stop walk

/-- The loop over the frames, for at most `rounds` of them. -/
def walkFrames : ℕ → ℕ → FrameWalk → Checked FrameEnd
  | 0, _, walk => return .done walk
  | rounds + 1, offset, walk => do
    if payload.length ≤ offset then return .done walk
    let frameType ← index payload offset
    match ← processFrame payload frameType (offset + 1) walk with
    | .next offset walk =>
      if payload.length < offset then return .done walk
      walkFrames rounds offset walk
    | .stop walk => return .done walk
    | .fail walk => return .failed walk

end Walk

/-! ## Safety -/

/-- The state after a round. -/
def FrameStep.walk : FrameStep → FrameWalk
  | next _ walk | stop walk | fail walk => walk

/-- The state at the end. -/
def FrameEnd.walk : FrameEnd → FrameWalk
  | done walk | failed walk => walk

/-- What holds of the state whatever the frames do to it. -/
structure FrameInvariant (I : FrameWalk → Prop) : Prop where
  markCrypto {walk : FrameWalk} : I walk → I walk.markCrypto
  addFragment {walk : FrameWalk} {offset : ℕ} {data : List UInt8} :
    offset < 2 ^ 62 → data ≠ [] → I walk → I (walk.addFragment offset data)
  close {walk : FrameWalk} {frameType : UInt8} {errorCode : ℕ} :
    frameType = 0x1c ∨ frameType = 0x1d → errorCode < 2 ^ 62 → I walk →
      I (walk.close frameType errorCode)

/-- The next frame starts at `offset` or behind it, and the state satisfies the invariant. -/
def FrameStep.Ok (I : FrameWalk → Prop) (offset : ℕ) (step : FrameStep) : Prop :=
  (∀ next walk, step = .next next walk → offset ≤ next) ∧ I step.walk

section Safety

variable {payload : List UInt8} {offset offset' : ℕ} {walk : FrameWalk} {I : FrameWalk → Prop}

theorem FrameStep.ok_next (h : offset ≤ offset') (hI : I walk) :
    (FrameStep.next offset' walk).Ok I offset := by
  refine ⟨?_, hI⟩
  rintro next walk' ⟨⟩
  exact h

theorem FrameStep.ok_stop (hI : I walk) : (FrameStep.stop walk).Ok I offset :=
  ⟨(fun _ _ h => nomatch h), hI⟩

theorem FrameStep.ok_fail (hI : I walk) : (FrameStep.fail walk).Ok I offset :=
  ⟨(fun _ _ h => nomatch h), hI⟩

/-- What is read is an encoding that stands there. -/
theorem readVarint_of_at {data : List UInt8} (h : At payload offset data) :
    Ensures (readVarint payload offset) fun read? => ∀ read, read? = some read →
      ∃ (v : Varint) (rest : List UInt8),
        data = v.encode ++ rest ∧ read = (v.value, offset + v.encode.length) := by
  rw [readVarint, h.sliceFrom, pure_bind']
  refine (parseVariableLengthInt_ensures data).bind fun read? hread => ?_
  rcases read? with _ | ⟨value, n⟩
  · exact ensures_none
  · obtain ⟨v, rest, hdata, rfl, rfl⟩ := hread value n rfl
    exact ensures_some ⟨v, rest, hdata, rfl⟩

theorem readVarint_ensures (h : offset ≤ payload.length) :
    Ensures (readVarint payload offset) fun read? =>
      ∀ read, read? = some read → offset < read.2 ∧ read.2 ≤ payload.length ∧ read.1 < 2 ^ 62 := by
  have hat : At payload offset (payload.drop offset) := ⟨h, rfl⟩
  refine (readVarint_of_at hat).mono fun read? hread read heq => ?_
  obtain ⟨v, rest, hdata, rfl⟩ := hread read heq
  have hpos : 0 < v.encode.length := List.length_pos_of_ne_nil v.encode_ne_nil
  rw [hdata] at hat
  exact ⟨Nat.lt_add_of_pos_right hpos, hat.skip.le_length, v.value_lt_two_pow⟩

theorem skipVarints_ensures (n : ℕ) (h : offset ≤ payload.length) :
    Ensures (skipVarints payload n offset) fun offset? =>
      ∀ next, offset? = some next → offset ≤ next ∧ next ≤ payload.length := by
  induction n generalizing offset with
  | zero => exact ensures_some ⟨le_rfl, h⟩
  | succ n ih =>
    refine (readVarint_ensures h).bindOption (fun read hread => ?_) ensures_none
    exact (ih hread.2.1).mono fun _ hnext next heq =>
      ⟨hread.1.le.trans (hnext next heq).1, (hnext next heq).2⟩

theorem skipPadding_ensures (rounds : ℕ) :
    Ensures (skipPadding payload rounds offset) fun next => offset ≤ next := by
  induction rounds generalizing offset with
  | zero => exact ensures_pure le_rfl
  | succ rounds ih =>
    unfold skipPadding
    refine Ensures.ite (fun _ => ensures_pure le_rfl) fun hlt => ?_
    refine (ensures_index (Nat.lt_of_not_le hlt)).bind fun b _ => ?_
    refine Ensures.ite (fun _ => ?_) fun _ => ensures_pure le_rfl
    exact ih.mono fun _ h => (Nat.le_succ offset).trans h

theorem varintsFrame_ensures (n : ℕ) (h : offset ≤ payload.length) (hI : I walk) :
    Ensures (varintsFrame payload n offset walk) (FrameStep.Ok I offset) := by
  refine (skipVarints_ensures n h).bindOption (fun next hnext => ?_) ?_
  · exact ensures_pure (FrameStep.ok_next hnext.1 hI)
  · exact ensures_pure (FrameStep.ok_fail hI)

theorem ackFrame_ensures (frameType : UInt8) (h : offset ≤ payload.length) (hI : I walk) :
    Ensures (ackFrame payload frameType offset walk) (FrameStep.Ok I offset) := by
  have hfail : Ensures (pure (FrameStep.fail walk)) (FrameStep.Ok I offset) :=
    ensures_pure (FrameStep.ok_fail hI)
  refine (skipVarints_ensures 2 h).bindOption (fun delay hdelay => ?_) hfail
  refine (readVarint_ensures hdelay.2).bindOption (fun count hcount => ?_) hfail
  refine (skipVarints_ensures 1 hcount.2.1).bindOption (fun first hfirst => ?_) hfail
  refine (skipVarints_ensures _ hfirst.2).bindOption (fun ranges hranges => ?_) hfail
  have hle : offset ≤ ranges :=
    hdelay.1.trans (hcount.1.le.trans (hfirst.1.trans hranges.1))
  refine Ensures.ite (fun _ => ?_) fun _ => ensures_pure (FrameStep.ok_next hle hI)
  exact (varintsFrame_ensures 3 hranges.2 hI).mono fun step hstep =>
    ⟨fun next walk' heq => hle.trans (hstep.1 next walk' heq), hstep.2⟩

theorem cryptoFrame_ensures (hinv : FrameInvariant I) (h : offset ≤ payload.length)
    (hI : I walk) : Ensures (cryptoFrame payload offset walk) (FrameStep.Ok I offset) := by
  have hI := hinv.markCrypto hI
  have hfail : Ensures (pure (FrameStep.fail walk.markCrypto)) (FrameStep.Ok I offset) :=
    ensures_pure (FrameStep.ok_fail hI)
  refine (readVarint_ensures h).bindOption (fun cryptoOffset hoffset => ?_) hfail
  refine (readVarint_ensures hoffset.2.1).bindOption (fun cryptoLength hlength => ?_) hfail
  refine (ensures_sub hlength.2.1).bind fun left hleft => ?_
  have hle : offset ≤ cryptoLength.2 + min left cryptoLength.1 :=
    hoffset.1.le.trans (hlength.1.le.trans (Nat.le_add_right _ _))
  -- data that the payload cuts off is handed over as far as it goes
  refine Ensures.ite (fun hpos => ?_) fun _ => ensures_pure (FrameStep.ok_next hle hI)
  refine (ensures_slice (Nat.le_add_right _ _) ?_).bind fun data hdata => ensures_pure ?_
  · have := hlength.2.1
    omega
  · refine FrameStep.ok_next hle (hinv.addFragment hoffset.2.2 ?_ hI)
    rw [Nat.add_sub_cancel_left] at hdata
    exact List.ne_nil_of_length_pos (hpos.trans_eq hdata.symm)

theorem newTokenFrame_ensures (h : offset ≤ payload.length) (hI : I walk) :
    Ensures (newTokenFrame payload offset walk) (FrameStep.Ok I offset) := by
  refine (readVarint_ensures h).bindOption (fun tokenLength hlength => ?_)
    (ensures_pure (FrameStep.ok_fail hI))
  refine Ensures.ite (fun _ => ensures_pure (FrameStep.ok_stop hI)) fun _ => ensures_pure ?_
  exact FrameStep.ok_next (hlength.1.le.trans (Nat.le_add_right _ _)) hI

theorem streamFrame_ensures (frameType : UInt8) (h : offset ≤ payload.length) (hI : I walk) :
    Ensures (streamFrame payload frameType offset walk) (FrameStep.Ok I offset) := by
  have hfail : Ensures (pure (FrameStep.fail walk)) (FrameStep.Ok I offset) :=
    ensures_pure (FrameStep.ok_fail hI)
  have hstop : Ensures (pure (FrameStep.stop walk)) (FrameStep.Ok I offset) :=
    ensures_pure (FrameStep.ok_stop hI)
  refine (skipVarints_ensures _ h).bindOption (fun fields hfields => ?_) hfail
  -- with a length the frame ends where that says, else with the payload
  refine Ensures.ite (fun _ => ?_) fun _ => ?_
  · refine (readVarint_ensures hfields.2).bindOption (fun length hlength => ?_) hfail
    refine Ensures.ite (fun _ => hstop) fun _ => ensures_pure ?_
    exact FrameStep.ok_next (hfields.1.trans (hlength.1.le.trans (Nat.le_add_right _ _))) hI
  · refine (ensures_sub hfields.2).bind fun streamDataLen _ => ?_
    refine Ensures.ite (fun _ => hstop) fun _ => ensures_pure ?_
    exact FrameStep.ok_next (hfields.1.trans (Nat.le_add_right _ _)) hI

theorem newConnectionIdFrame_ensures (h : offset ≤ payload.length) (hI : I walk) :
    Ensures (newConnectionIdFrame payload offset walk) (FrameStep.Ok I offset) := by
  have hstop : Ensures (pure (FrameStep.stop walk)) (FrameStep.Ok I offset) :=
    ensures_pure (FrameStep.ok_stop hI)
  refine (skipVarints_ensures 2 h).bindOption (fun retire hretire => ?_)
    (ensures_pure (FrameStep.ok_fail hI))
  refine Ensures.ite (fun _ => hstop) fun hlt => ?_
  refine (ensures_index (Nat.lt_of_not_le hlt)).bind fun cidLength _ => ?_
  refine Ensures.ite (fun _ => hstop) fun _ => ensures_pure ?_
  exact FrameStep.ok_next (hretire.1.trans (Nat.le_add_right _ _)) hI

theorem connectionCloseFrame_ensures (hinv : FrameInvariant I) {frameType : UInt8}
    (htype : frameType = 0x1c ∨ frameType = 0x1d) (h : offset ≤ payload.length) (hI : I walk) :
    Ensures (connectionCloseFrame payload frameType offset walk) (FrameStep.Ok I offset) := by
  have hfail : Ensures (pure (FrameStep.fail walk)) (FrameStep.Ok I offset) :=
    ensures_pure (FrameStep.ok_fail hI)
  refine (readVarint_ensures h).bindOption (fun errorCode hcode => ?_) hfail
  refine (skipVarints_ensures _ hcode.2.1).bindOption (fun field hfield => ?_) hfail
  refine (readVarint_ensures hfield.2).bindOption (fun reasonLength hreason => ?_) hfail
  have hle : offset ≤ reasonLength.2 + reasonLength.1 :=
    hcode.1.le.trans (hfield.1.trans (hreason.1.le.trans (Nat.le_add_right _ _)))
  -- the reason is only read if the payload has all of it
  have hend : Ensures
      (if payload.length < reasonLength.2 + reasonLength.1 then pure (FrameStep.stop walk)
      else
        pure (FrameStep.next (reasonLength.2 + reasonLength.1) (walk.close frameType errorCode.1)))
      (FrameStep.Ok I offset) :=
    Ensures.ite (fun _ => ensures_pure (FrameStep.ok_stop hI)) fun _ =>
      ensures_pure (FrameStep.ok_next hle (hinv.close htype hcode.2.2 hI))
  refine Ensures.ite (fun hin => ?_) fun _ => hend
  exact (ensures_slice (Nat.le_add_right _ _) hin.2).bind fun _ _ => hend

/-- No frame is read outside the payload, and none breaks an invariant. -/
theorem processFrame_ensures (hinv : FrameInvariant I) (frameType : UInt8)
    (h : offset ≤ payload.length) (hI : I walk) :
    Ensures (processFrame payload frameType offset walk) (FrameStep.Ok I offset) := by
  have hnext : Ensures (pure (FrameStep.next offset walk)) (FrameStep.Ok I offset) :=
    ensures_pure (FrameStep.ok_next le_rfl hI)
  -- the types in the order of the match
  unfold processFrame
  refine Ensures.ite (fun _ => ?_) fun _ => ?_
  · exact (skipPadding_ensures _).bind fun _ hle => ensures_pure (FrameStep.ok_next hle hI)
  refine Ensures.ite (fun _ => hnext) fun _ => ?_
  refine Ensures.ite (fun _ => ackFrame_ensures frameType h hI) fun _ => ?_
  refine Ensures.ite (fun _ => varintsFrame_ensures 3 h hI) fun _ => ?_
  refine Ensures.ite (fun _ => varintsFrame_ensures 2 h hI) fun _ => ?_
  refine Ensures.ite (fun _ => cryptoFrame_ensures hinv h hI) fun _ => ?_
  refine Ensures.ite (fun _ => newTokenFrame_ensures h hI) fun _ => ?_
  refine Ensures.ite (fun _ => streamFrame_ensures frameType h hI) fun _ => ?_
  refine Ensures.ite (fun _ => varintsFrame_ensures _ h hI) fun _ => ?_
  refine Ensures.ite (fun _ => newConnectionIdFrame_ensures h hI) fun _ => ?_
  refine Ensures.ite (fun _ => varintsFrame_ensures 1 h hI) fun _ => ?_
  refine Ensures.ite (fun _ => ?_) fun _ => ?_
  · exact ensures_pure (FrameStep.ok_next (Nat.le_add_right _ _) hI)
  refine Ensures.ite (fun htype => connectionCloseFrame_ensures hinv htype h hI) fun _ => ?_
  refine Ensures.ite (fun _ => hnext) fun _ => ?_
  exact ensures_pure (FrameStep.ok_stop hI)

/-- The loop reads no frame outside the payload, and no frame breaks an invariant. -/
theorem walkFrames_ensures (hinv : FrameInvariant I) (rounds offset : ℕ) (hI : I walk) :
    Ensures (walkFrames payload rounds offset walk) fun e => I e.walk := by
  induction rounds generalizing offset walk with
  | zero => exact ensures_pure hI
  | succ rounds ih =>
    unfold walkFrames
    refine Ensures.ite (fun _ => ensures_pure hI) fun hlt => ?_
    have hlt : offset < payload.length := Nat.lt_of_not_le hlt
    refine (ensures_index hlt).bind fun frameType _ => ?_
    refine (processFrame_ensures hinv frameType hlt hI).bind fun step hstep => ?_
    -- a frame goes on to the next one, stops the walk or fails
    rcases step with ⟨next, walk'⟩ | walk' | walk'
    · exact Ensures.ite (fun _ => ensures_pure hstep.2) fun _ => ih next hstep.2
    · exact ensures_pure hstep.2
    · exact ensures_pure hstep.2

theorem FrameInvariant.true : FrameInvariant fun _ => True :=
  ⟨fun _ => trivial, fun _ _ _ => trivial, fun _ _ _ => trivial⟩

theorem skipPadding_end {rounds : ℕ} (h : payload.length ≤ offset) :
    skipPadding payload rounds offset = pure offset := by
  rcases rounds with _ | rounds
  · rfl
  · exact if_pos h

theorem walkFrames_end {rounds : ℕ} (h : payload.length ≤ offset) :
    walkFrames payload rounds offset walk = pure (.done walk) := by
  rcases rounds with _ | rounds
  · rfl
  · exact if_pos h

/-- The loop over PADDING ends before it has taken as many rounds as there are bytes. -/
theorem skipPadding_of_le {rounds rounds' : ℕ} (h : payload.length ≤ offset + rounds)
    (h' : payload.length ≤ offset + rounds') :
    skipPadding payload rounds offset = skipPadding payload rounds' offset := by
  induction rounds generalizing rounds' offset with
  | zero =>
    rw [Nat.add_zero] at h
    rw [skipPadding_end h, skipPadding_end h]
  | succ rounds ih =>
    by_cases hle : payload.length ≤ offset
    · rw [skipPadding_end hle, skipPadding_end hle]
    rcases rounds' with _ | rounds'
    · exact absurd h' hle
    -- the next byte is behind this one, so the rounds that are left are enough
    have hrest : skipPadding payload rounds (offset + 1) =
        skipPadding payload rounds' (offset + 1) := ih (by omega) (by omega)
    rw [skipPadding, skipPadding, hrest]

/-- The loop ends before it has taken as many rounds as there are bytes: more make no difference. -/
theorem walkFrames_of_le {rounds rounds' : ℕ} (h : payload.length ≤ offset + rounds)
    (h' : payload.length ≤ offset + rounds') :
    walkFrames payload rounds offset walk = walkFrames payload rounds' offset walk := by
  induction rounds generalizing rounds' offset walk with
  | zero =>
    rw [Nat.add_zero] at h
    rw [walkFrames_end h, walkFrames_end h]
  | succ rounds ih =>
    by_cases hle : payload.length ≤ offset
    · rw [walkFrames_end hle, walkFrames_end hle]
    rcases rounds' with _ | rounds'
    · exact absurd h' hle
    have hlt : offset < payload.length := Nat.lt_of_not_le hle
    obtain ⟨step, hstep, hadvances, -⟩ := processFrame_ensures FrameInvariant.true payload[offset]
      hlt (trivial : (fun _ : FrameWalk => True) walk)
    rw [walkFrames, walkFrames, if_neg hle, if_neg hle, index_eq hlt, pure_bind', pure_bind',
      hstep]
    -- a frame takes at least its type, so the rounds that are left are enough
    rcases step with ⟨next, walk'⟩ | walk' | walk'
    · have hnext := hadvances next walk' rfl
      have hrest : walkFrames payload rounds next walk' = walkFrames payload rounds' next walk' :=
        ih (by omega) (by omega)
      simp only [pure_bind', hrest]
    · rfl
    · rfl

end Safety

/-- `try_extract_tls_from_reassembler(reassembler, allow_partial)` as the walk over the frames runs
it: it may cache what it finds, and it may fail. -/
class CryptoExtraction where
  tryExtractTlsFromReassembler :
    CryptoFrameReassembler → Bool → Checked (Option TlsInfo × CryptoFrameReassembler)

/-- The extraction of an inspection, which is total. -/
instance [DeepPacketInspection] : CryptoExtraction where
  tryExtractTlsFromReassembler reassembler allowPartial :=
    pure (DeepPacketInspection.tryExtractTlsFromReassembler reassembler allowPartial)

section Tls

section Extraction

variable [CryptoExtraction]

/-- The end of `process_crypto_frames_in_packet`: with a CRYPTO frame, another attempt at the TLS
handshake. -/
def extractTls (walk : FrameWalk) : Checked (Option TlsInfo × QuicInfo) := do
  match walk.foundCryptoFrames, walk.info.cryptoReassembler with
  | true, some reassembler =>
    let extracted ← CryptoExtraction.tryExtractTlsFromReassembler reassembler false
    return (extracted.1,
      { walk.info with
        cryptoReassembler := some extracted.2
        tlsInfo := extracted.1.or walk.info.tlsInfo })
  | _, _ => return (none, walk.info)

/-- `process_crypto_frames_in_packet`: the walk over the frames, which fills the reassembler, and
the extraction from it unless the walk failed. -/
def processCryptoFramesInPacket (payload : List UInt8) (info : QuicInfo) :
    Checked (Option TlsInfo × QuicInfo) := do
  match ← walkFrames payload payload.length 0 ⟨info.ensureReassembler, false⟩ with
  | .done walk => extractTls walk
  | .failed walk => return (none, walk.info)

/-- An invariant of the record that the frames and the last extraction keep holds of the result, and
so does what the extraction ensures of the TLS information it finds. -/
theorem processCryptoFramesInPacket_of_invariant {J : QuicInfo → Prop} {K : Option TlsInfo → Prop}
    (hinv : FrameInvariant fun walk => J walk.info) (hnone : K none)
    (hextract : ∀ walk : FrameWalk, J walk.info →
      Ensures (extractTls walk) fun extracted => K extracted.1 ∧ J extracted.2)
    (payload : List UInt8) {info : QuicInfo} (h : J info.ensureReassembler) :
    Ensures (processCryptoFramesInPacket payload info) fun processed =>
      K processed.1 ∧ J processed.2 := by
  have hstart : (fun walk : FrameWalk => J walk.info) ⟨info.ensureReassembler, false⟩ := h
  refine (walkFrames_ensures hinv payload.length 0 hstart).bind fun e he => ?_
  rcases e with walk | walk
  · exact hextract walk he
  · exact ensures_pure ⟨hnone, he⟩

end Extraction

variable [DeepPacketInspection]

/-- The last extraction of an inspection finds something or nothing, and leaves the state of the
connection and its close alone. -/
theorem extractTls_ensures (walk : FrameWalk) :
    Ensures (extractTls walk) fun extracted =>
      extracted.2.connectionState = walk.info.connectionState ∧
        extracted.2.connectionClose = walk.info.connectionClose := by
  unfold extractTls
  split <;> exact ensures_pure ⟨rfl, rfl⟩

/-- No payload and no state of the reassembler make the walk over the frames fail. An invariant of
the state and of the close that the frames record holds of the result. -/
theorem processCryptoFramesInPacket_ensures (P : QuicConnectionState → Option QuicCloseInfo → Prop)
    (hclose : ∀ frameType errorCode, frameType = 0x1c ∨ frameType = 0x1d → errorCode < 2 ^ 62 →
      P (if errorCode = 0 then .draining else .closed)
        (some ⟨frameType, UInt64.ofNat errorCode⟩))
    (payload : List UInt8) {info : QuicInfo} (h : P info.connectionState info.connectionClose) :
    Ensures (processCryptoFramesInPacket payload info) fun processed =>
      P processed.2.connectionState processed.2.connectionClose := by
  have hinv : FrameInvariant fun walk => P walk.info.connectionState walk.info.connectionClose :=
    ⟨fun hP => hP, fun _ _ hP => hP, fun htype hcode _ => hclose _ _ htype hcode⟩
  refine (processCryptoFramesInPacket_of_invariant
    (J := fun info => P info.connectionState info.connectionClose) (K := fun _ => True) hinv trivial
    (fun walk hwalk => (extractTls_ensures walk).mono fun extracted hextracted => ⟨trivial, ?_⟩)
    payload h).mono fun _ hprocessed => hprocessed.2
  rw [hextracted.1, hextracted.2]
  exact hwalk

end Tls

end Quic

end RustNet
