import RustNet.Foundations.Run
import RustNet.Network.Tcp.Segments

/-!
# The order of the TCP states

Whatever segments arrive, a TCP connection only moves forward in its life, and it stays a TCP
connection: packets of one flow have one protocol, so the protocol state and the analytics of a
connection remain those of its protocol.

## Main definitions

* `TcpState.rank`: how far a connection in the state is.

## Main results

* `TcpState.rank_le_updateTcpState`: no segment takes a connection back;
* `track_rank_mono`: a tracked connection is consistent and its rank never decreases.
-/

namespace RustNet

/-- How far a connection in this state is in its life. -/
def TcpState.rank : TcpState → ℕ
  | .unknown => 0
  | .synSent | .synReceived => 1
  | .established => 2
  | .finWait1 | .closeWait => 3
  | .finWait2 | .closing | .lastAck => 4
  | .timeWait => 5
  | .closed => 6

/-- A reset takes a connection to the last state. -/
theorem TcpState.rank_le_closed (state : TcpState) : state.rank ≤ TcpState.closed.rank := by
  cases state <;> decide

/-- No segment takes a connection back. -/
theorem TcpState.rank_le_updateTcpState (state : TcpState) (flags : TcpFlags)
    (isOutgoing : Bool) : state.rank ≤ (updateTcpState state flags isOutgoing).rank := by
  unfold updateTcpState
  split
  -- the reset arm and the arm that keeps the state; the others name both states
  case h_15 => exact rank_le_closed _
  case h_16 => exact le_refl _
  all_goals decide

section Track

variable [DeepPacketInspection]

/-- A merge never takes a connection back. -/
theorem merge_rank_le (conn : Connection) (a : Arrival) :
    conn.protocolState.tcpState.rank ≤ (conn.merge a).protocolState.tcpState.rank := by
  cases hstate : conn.protocolState with
  | tcp state =>
    rw [merge_protocolState_of_tcp hstate]
    change state.rank ≤ (a.parsed.tcpStep state).rank
    unfold ParsedPacket.tcpStep
    split
    next header _ => exact state.rank_le_updateTcpState header.flags a.parsed.isOutgoing
    next => exact le_refl _
  -- the state of another protocol has the lowest rank
  | _ => exact Nat.zero_le _

/-- Packets filed under the key of the first packet keep the connection consistent. -/
theorem track_consistent {first : Arrival} {rest : List Arrival}
    (hkey : ∀ a ∈ rest, a.parsed.connectionKey = first.parsed.connectionKey) :
    Run.Always Connection.merge Connection.Consistent
      (createConnectionFromPacket first.parsed first.now first.clock) rest := by
  have hprotocol : ∀ a ∈ rest, a.parsed.protocol = first.parsed.protocol :=
    fun a ha => ParsedPacket.protocol_eq_of_connectionKey (hkey a ha)
  -- the protocol of the connection is part of the invariant
  have hstep : ∀ (conn : Connection) (a : Arrival),
      conn.Consistent ∧ conn.protocol = first.parsed.protocol →
        a.parsed.protocol = first.parsed.protocol →
          (conn.merge a).Consistent ∧ (conn.merge a).protocol = first.parsed.protocol :=
    fun conn a hconn ha => ⟨merge_consistent hconn.1 (ha.trans hconn.2.symm) a.now a.clock, hconn.2⟩
  have hinvariant := Run.always_of_along hstep
    ⟨create_consistent first.parsed first.now first.clock, rfl⟩
    (Run.along_of_forall_mem hprotocol)
  exact hinvariant.mono fun _ hconn => hconn.1

/-- A connection created from a packet, and merged with any packets filed under the same key
(`hkey`), is consistent with its protocol at all times, and the rank of its TCP state never
decreases. The packets are any the parser can make, in any order, resets and repeated handshakes
included. -/
theorem track_rank_mono (first : Arrival) (rest : List Arrival)
    (hkey : ∀ a ∈ rest, a.parsed.connectionKey = first.parsed.connectionKey) :
    Run.Always Connection.merge Connection.Consistent
        (createConnectionFromPacket first.parsed first.now first.clock) rest ∧
      Run.Along Connection.merge
        (fun conn a => conn.protocolState.tcpState.rank ≤
          (conn.merge a).protocolState.tcpState.rank)
        (createConnectionFromPacket first.parsed first.now first.clock) rest :=
  ⟨track_consistent hkey, Run.along_iff_forall_split.mpr fun _ a _ _ => merge_rank_le _ a⟩

end Track

/-- A SYN that arrives on an established connection. -/
theorem track_rank_mono_of_late_syn :
    letI : DeepPacketInspection := .silent
    let packet := fun (syn ack outgoing : Bool) =>
      ParsedPacket.ofTcp (.lan 1 22) (.lan 2 5000)
        ⟨1, 1, 512, ⟨false, syn, false, false, ack, false⟩, 0⟩ outgoing 60
    let first : Arrival := ⟨packet false true true, ⟨0⟩, .constant 0⟩
    let late : Arrival := ⟨packet true false false, ⟨1⟩, .constant 1⟩
    (track first [late]).Consistent ∧ (track first [late]).protocolState = .tcp .established := by
  intro packet first late
  have hkey : ∀ a ∈ [late], a.parsed.connectionKey = first.parsed.connectionKey := by
    intro a ha
    rw [List.mem_singleton.mp ha]
    rfl
  exact ⟨(@track_rank_mono .silent first [late] hkey).1.last, by decide +kernel⟩

end RustNet
