import RustNet.Foundations.Run
import RustNet.Network.Merge.Dpi
import RustNet.Network.Quic.FrameSequence

/-!
# The QUIC connection state

The state of a connection as `merge_quic_info` writes it: by priority first, and then, for a
CONNECTION_CLOSE, without a look at the priority. The packet that creates the record takes its state
from the walk over the frames instead, which classifies a CONNECTION_CLOSE in another way.

## Main results

* `mergeQuicInfo_connectionState`: the state after a merge;
* `neverDecreases_iff`: the priority never decreases exactly while no CONNECTION_CLOSE of the
  transport without an error comes to a closed connection;
* `connectionState_create_eq_merge_iff`: a CONNECTION_CLOSE gives the same state in both ways
  exactly if it is not one of the application without an error.
-/

namespace RustNet

variable [DeepPacketInspection]

/-- The state that a merge sets for a CONNECTION_CLOSE. -/
def mergedCloseState (close : QuicCloseInfo) : QuicConnectionState :=
  if close.frameType = 0x1c ∧ close.errorCode = 0 then .draining else .closed

section State

variable (old new : QuicInfo)

theorem mergeReassembler_connectionState :
    (mergeReassembler old new).connectionState = old.connectionState := by
  rw [mergeReassembler]
  rcases new.cryptoReassembler with _ | newReassembler
  · rfl
  · rcases old.cryptoReassembler with _ | oldReassembler <;> rfl

omit [DeepPacketInspection] in
theorem mergeQuicTls_connectionState :
    (mergeQuicTls old new).connectionState = old.connectionState := by
  rw [mergeQuicTls]
  rcases new.tlsInfo with _ | newTls
  · rcases old.tlsInfo with _ | oldTls <;> rfl
  · rcases old.tlsInfo with _ | oldTls <;> rfl

/-- A merge takes the state of higher priority, unless there is a CONNECTION_CLOSE. -/
theorem mergeQuicInfo_connectionState :
    (mergeQuicInfo old new).connectionState =
      match new.connectionClose with
      | none =>
        if quicStatePriority old.connectionState < quicStatePriority new.connectionState then
          new.connectionState
        else old.connectionState
      | some close => mergedCloseState close := by
  -- only the first and the last part of the merge write the state
  rcases hclose : new.connectionClose with _ | close
  · simp only [mergeQuicInfo, mergeConnectionClose, hclose, apply_ite QuicInfo.connectionState,
      mergeQuicTls_connectionState, mergeReassembler_connectionState, ite_self]
  · simp only [mergeQuicInfo, mergeConnectionClose, hclose, mergedCloseState]

end State

/-! ## Progress -/

section Progress

variable {old new : QuicInfo} {news : List QuicInfo}

/-- The priority of the state after some merges is never above that after more of them. -/
def NeverDecreases (old : QuicInfo) (news : List QuicInfo) : Prop :=
  ∀ l₁ l₂ l₃, news = l₁ ++ l₂ ++ l₃ →
    quicStatePriority (l₁.foldl mergeQuicInfo old).connectionState ≤
      quicStatePriority ((l₁ ++ l₂).foldl mergeQuicInfo old).connectionState

/-- A CONNECTION_CLOSE of the transport without an error comes to a closed connection. -/
def ReopensClosed (old new : QuicInfo) : Prop :=
  old.connectionState = .closed ∧
    ∃ close, new.connectionClose = some close ∧ close.frameType = 0x1c ∧ close.errorCode = 0

omit [DeepPacketInspection] in
theorem quicStatePriority_le_closed (state : QuicConnectionState) :
    quicStatePriority state ≤ quicStatePriority .closed := by
  rcases state <;> decide

omit [DeepPacketInspection] in
theorem quicStatePriority_le_draining {state : QuicConnectionState} (h : state ≠ .closed) :
    quicStatePriority state ≤ quicStatePriority .draining := by
  rcases state
  case closed => exact absurd rfl h
  all_goals decide

/-- One merge: the priority decreases only from closed to draining. -/
theorem mergeQuicInfo_priority_le_iff :
    quicStatePriority old.connectionState ≤
        quicStatePriority (mergeQuicInfo old new).connectionState ↔ ¬ ReopensClosed old new := by
  rw [mergeQuicInfo_connectionState, ReopensClosed]
  rcases new.connectionClose with _ | close
  · refine iff_of_true ?_ fun ⟨_, close, hclose, _⟩ => nomatch hclose
    dsimp only
    split_ifs with hlt
    · exact hlt.le
    · exact le_rfl
  · dsimp only
    rw [mergedCloseState]
    -- any other close leads to `closed`, and nothing is above that
    by_cases hclean : close.frameType = 0x1c ∧ close.errorCode = 0
    · rw [if_pos hclean]
      constructor
      · rintro hle ⟨hclosed, -⟩
        rw [hclosed] at hle
        exact absurd hle (by decide)
      · intro hnot
        exact quicStatePriority_le_draining fun hclosed => hnot ⟨hclosed, close, rfl, hclean⟩
    · rw [if_neg hclean]
      refine iff_of_true (quicStatePriority_le_closed _) ?_
      rintro ⟨-, close', hclose, hclean'⟩
      exact hclean (Option.some.inj hclose ▸ hclean')

/-- The priority of the state never decreases exactly if no merge brings a closed connection a
CONNECTION_CLOSE of the transport without an error. The old record and the new ones are any; each
merge is judged by the record that it meets. Such a close is taken for the start of draining, which
comes before closed. -/
theorem neverDecreases_iff (old : QuicInfo) (news : List QuicInfo) :
    NeverDecreases old news ↔
      Run.Along mergeQuicInfo (fun old new => ¬ ReopensClosed old new) old news := by
  constructor
  · intro h
    refine Run.along_iff_forall_split.mpr fun l₁ new l₂ hnews => ?_
    have hstep := h l₁ [new] l₂ (by rw [hnews, List.append_assoc, List.singleton_append])
    rw [List.foldl_append] at hstep
    exact mergeQuicInfo_priority_le_iff.mp hstep
  · rintro h l₁ l₂ l₃ rfl
    have hl₂ := (Run.along_append.mp (Run.along_append.mp h).1).2
    rw [List.foldl_append]
    generalize l₁.foldl mergeQuicInfo old = info at hl₂ ⊢
    -- every merge of the second part keeps the priority at least where it was
    refine (Run.always_of_along (I := fun i => quicStatePriority info.connectionState ≤
      quicStatePriority i.connectionState) (fun i new hi hG => ?_) le_rfl hl₂).last
    exact hi.trans (mergeQuicInfo_priority_le_iff.mpr hG)

omit [DeepPacketInspection] in
/-- An application error closes a connection; a close of the transport without an error takes it
back. -/
theorem not_neverDecreases_closed :
    letI := DeepPacketInspection.silent
    ¬ NeverDecreases { QuicInfo.new 1 with connectionState := .connected }
      [{ QuicInfo.new 1 with connectionState := .closed, connectionClose := some ⟨0x1d, 1⟩ },
        { QuicInfo.new 1 with connectionState := .draining, connectionClose := some ⟨0x1c, 0⟩ }] := by
  let _ := DeepPacketInspection.silent
  intro h
  have hle := h [_] [_] [] rfl
  exact absurd hle (by decide)

end Progress

/-! ## Two ways to the same state -/

section Create

/-- The QUIC connection state of a record. -/
def DpiInfo.quicState? (info : DpiInfo) : Option QuicConnectionState :=
  match info.application with
  | .quic info => some info.connectionState
  | _ => none

/-- For a packet whose last CONNECTION_CLOSE is `close` (`hclose`), the state of a record that the
packet creates is that of a record it is merged into, live or not, exactly if `close` is not a close
of the application without an error. The packet is read by the walk over its frames, whatever other
frames it has; the walk makes one state of such a close, and the merge another. -/
theorem connectionState_create_eq_merge_iff (p : Quic.PacketPayload) (info old : QuicInfo)
    {close : QuicCloseInfo} (hclose : p.lastClose = some close) :
    ∃ tls new,
      Quic.processCryptoFramesInPacket p.encode info = pure (tls, new) ∧
      new.connectionClose = some close ∧
      ((mergeDpiInfo none ⟨.quic new⟩).quicState? =
          (mergeDpiInfo (some ⟨.quic old⟩) ⟨.quic new⟩).quicState? ↔
        ¬ (close.frameType = 0x1d ∧ close.errorCode = 0)) := by
  have hp := Quic.processCryptoFramesInPacket_eq p info
  set walk := p.frames.foldl Quic.Frame.apply ⟨info.ensureReassembler, false⟩ with hwalk
  have hlast : walk.info.connectionState = Quic.closeState close ∧
      walk.info.connectionClose = some close := by
    have hfold := Quic.foldl_apply_close ⟨info.ensureReassembler, false⟩ p.frames
    rw [hwalk, hfold.1, hfold.2, ← Quic.PacketPayload.lastClose, hclose]
    exact ⟨rfl, rfl⟩
  obtain ⟨⟨tls, new⟩, hextract, hstate, hrecorded⟩ := Quic.extractTls_ensures walk
  rw [hlast.1] at hstate
  rw [hlast.2] at hrecorded
  refine ⟨tls, new, hp.trans hextract, hrecorded, ?_⟩
  have hcreated : (mergeDpiInfo none ⟨.quic new⟩).quicState? = some (Quic.closeState close) :=
    congrArg some hstate
  have hmerged : (mergeDpiInfo (some ⟨.quic old⟩) ⟨.quic new⟩).quicState? =
      some (mergedCloseState close) := by
    show some (mergeQuicInfo old new).connectionState = _
    rw [mergeQuicInfo_connectionState, hrecorded]
  rw [hcreated, hmerged, Option.some_inj, Quic.closeState, mergedCloseState]
  -- the two classifications can differ for an error code of zero only
  by_cases hcode : close.errorCode = 0
  · rcases Quic.PacketPayload.frameType_of_lastClose hclose with htype | htype
    · rw [if_pos hcode, if_pos ⟨htype, hcode⟩, htype]
      exact iff_of_true rfl fun h => absurd h.1 (by decide)
    · rw [if_pos hcode, if_neg (fun h => absurd (htype ▸ h.1) (by decide))]
      exact iff_of_false QuicConnectionState.noConfusion fun h => h ⟨htype, hcode⟩
  · rw [if_neg hcode, if_neg (fun h => hcode h.2)]
    exact iff_of_true rfl fun h => hcode h.2

omit [DeepPacketInspection] in
/-- A close of the transport without an error: the states agree. -/
theorem connectionState_create_eq_merge_transportClose :
    letI := DeepPacketInspection.silent
    ∃ tls new,
      Quic.processCryptoFramesInPacket [0x1c, 0, 0, 0] (QuicInfo.new 1) = pure (tls, new) ∧
      (mergeDpiInfo none ⟨.quic new⟩).quicState? =
        (mergeDpiInfo (some ⟨.quic (QuicInfo.new 1)⟩) ⟨.quic new⟩).quicState? := by
  let _ := DeepPacketInspection.silent
  let p : Quic.PacketPayload :=
    ⟨[.connectionClose Quic.Varint.zero Quic.Varint.zero .empty], none⟩
  have hclose : p.lastClose = some ⟨0x1c, 0⟩ := rfl
  obtain ⟨tls, new, hp, -, hiff⟩ :=
    connectionState_create_eq_merge_iff p (QuicInfo.new 1) (QuicInfo.new 1) hclose
  exact ⟨tls, new, hp, hiff.mpr (by decide)⟩

omit [DeepPacketInspection] in
/-- A close of the application without an error: a new record is draining, and a connected one is
closed. -/
theorem connectionState_create_ne_merge_applicationClose :
    letI := DeepPacketInspection.silent
    ∃ tls new,
      Quic.processCryptoFramesInPacket [0x1d, 0, 0] (QuicInfo.new 1) = pure (tls, new) ∧
      new.connectionClose = some ⟨0x1d, 0⟩ ∧
      (mergeDpiInfo none ⟨.quic new⟩).quicState? = some .draining ∧
      (mergeDpiInfo (some ⟨.quic { QuicInfo.new 1 with connectionState := .connected }⟩)
        ⟨.quic new⟩).quicState? = some .closed :=
  ⟨_, _, rfl, rfl, rfl, rfl⟩

end Create

end RustNet
