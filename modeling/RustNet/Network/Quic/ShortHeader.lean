import RustNet.Network.Quic.LongHeader

/-!
# When a datagram counts as Connected

A packet with a short header stands for an established connection. Such a packet has the form bit
cleared and the fixed bit set, and it starts a datagram or stands behind a packet that carries a
Length. `parse_quic_packet` asks for the form bit alone, and it reads a Length in Version
Negotiation and Retry packets as well.

## Main definitions

* `Quic.PacketBoundary`: where the packets of a datagram start;
* `Quic.HasShortHeader`: the datagram has a packet with a short header;
* `Quic.ShortFormsGenuine`: every byte that is taken for a short header is one.

## Main results

* `Quic.parsePackets_connected_iff`: when the loop comes out with a connected state;
* `Quic.connected_hasShortHeader_iff`: a datagram counts as Connected only for a packet with a short
  header exactly if `Quic.ShortFormsGenuine` holds of it.
-/

namespace RustNet.Quic

open Checked

/-! ## Short headers -/

/-- A packet starts at the front of the datagram, and behind a packet that carries a Length. -/
inductive PacketBoundary (datagram : List UInt8) : List UInt8 → Prop
  | start : PacketBoundary datagram datagram
  | next (p : LongPacket) {rest : List UInt8} (h : PacketBoundary datagram (p.encode ++ rest))
      (hlength : p.CarriesLength) : PacketBoundary datagram rest

/-- At a packet boundary the form bit is cleared and the fixed bit is set. -/
def HasShortHeader (datagram : List UInt8) : Prop :=
  ∃ b tail, PacketBoundary datagram (b :: tail) ∧ b &&& 0x80 = 0 ∧ b &&& 0x40 ≠ 0

namespace PacketBoundary

variable {datagram rest : List UInt8} {ps : List LongPacket}

theorem skip (h : PacketBoundary datagram (ps.flatMap LongPacket.encode ++ rest))
    (hps : ∀ p ∈ ps, p.CarriesLength) : PacketBoundary datagram rest := by
  induction ps with
  | nil => exact h
  | cons p ps ih =>
    rw [List.flatMap_cons, List.append_assoc] at h
    exact ih (h.next p (hps p List.mem_cons_self)) fun q hq => hps q (List.mem_cons_of_mem p hq)

/-- Before a boundary there are packets that carry a Length, and nothing else. -/
theorem exists_packets (h : PacketBoundary datagram rest) :
    ∃ ps : List LongPacket, datagram = ps.flatMap LongPacket.encode ++ rest ∧
      ∀ p ∈ ps, p.CarriesLength := by
  induction h with
  | start => exact ⟨[], rfl, fun _ hp => absurd hp List.not_mem_nil⟩
  | next p h hlength ih =>
    obtain ⟨ps, hdatagram, hps⟩ := ih
    refine ⟨ps ++ [p], ?_, fun q hq => ?_⟩
    · rw [hdatagram, List.flatMap_append, List.flatMap_singleton, List.append_assoc]
    · obtain hq | hq := List.mem_append.mp hq
      · exact hps q hq
      · exact List.mem_singleton.mp hq ▸ hlength

end PacketBoundary

/-! ## Priorities -/

/-- The priority of what the packets so far have been combined to. -/
def combinedPriority : Option QuicInfo → ℕ
  | none => 0
  | some info => quicStatePriority info.connectionState

theorem combinedPriority_combineInfo (combined info : Option QuicInfo) :
    combinedPriority (combineInfo combined info) =
      max (combinedPriority combined) (combinedPriority info) := by
  rcases info with _ | info
  · exact (Nat.max_eq_left (Nat.zero_le _)).symm
  rcases combined with _ | combined
  · exact (Nat.max_eq_right (Nat.zero_le _)).symm
  show quicStatePriority (if _ then info.connectionState else combined.connectionState) =
    max (quicStatePriority combined.connectionState) (quicStatePriority info.connectionState)
  split_ifs with hlt
  · exact (Nat.max_eq_right hlt.le).symm
  · exact (Nat.max_eq_left (Nat.not_lt.mp hlt)).symm

theorem quicStatePriority_eq_connected_iff (state : QuicConnectionState) :
    quicStatePriority state = 3 ↔ state = .connected := by
  rcases state <;> simp [quicStatePriority]

theorem Records.ne_connected {base state : QuicConnectionState} {close : Option QuicCloseInfo}
    (h : Records base state close) (hbase : base ≠ .connected) : state ≠ .connected := by
  rcases close with _ | close
  · exact h ▸ hbase
  · rw [h.2]
    split_ifs <;> exact QuicConnectionState.noConfusion

theorem LongRecord.priority_ne {info : QuicInfo} (h : LongRecord info) :
    quicStatePriority info.connectionState ≠ 3 := by
  obtain ⟨base, hbase, hrecords⟩ := h
  exact (quicStatePriority_eq_connected_iff _).not.mpr (hrecords.ne_connected hbase)

/-- Packets with a long header do not lead to a connected state. -/
theorem combinedPriority_combineInfo_ne {combined info : Option QuicInfo}
    (hcombined : combinedPriority combined ≠ 3) (hlong : ∀ i, info = some i → LongRecord i) :
    combinedPriority (combineInfo combined info) ≠ 3 := by
  rw [combinedPriority_combineInfo]
  have hinfo : combinedPriority info ≠ 3 := by
    rcases info with _ | i
    · exact fun h => nomatch h
    · exact (hlong i rfl).priority_ne
  obtain hmax | hmax := max_choice (combinedPriority combined) (combinedPriority info)
  · rwa [hmax]
  · rwa [hmax]

/-- A packet with a long header comes behind Connected if it does not close, and before it if it
does. -/
theorem Records.priority_lt_iff {packetType : QuicPacketType} {state : QuicConnectionState}
    {close : Option QuicCloseInfo} (h : Records (longHeaderState packetType) state close) :
    quicStatePriority state < 3 ↔ close = none := by
  rcases close with _ | close
  · refine iff_of_true ?_ rfl
    rw [h]
    rcases packetType <;> decide
  · refine iff_of_false ?_ (fun hnone => nomatch hnone)
    rw [h.2]
    split_ifs <;> decide

section Datagram

variable [DeepPacketInspection] [QuicCrypto]

/-! ## The packets before a short header -/

/-- Behind fewer than `packets` packets with a long header, none of which closes the connection, the
data goes on with a byte that has no form bit. -/
def ShortForm (packets : ℕ) (data : List UInt8) (ps : List LongPacket) (b : UInt8) : Prop :=
  (∃ tail, data = ps.flatMap LongPacket.encode ++ b :: tail) ∧ ps.length < packets ∧
    b &&& 0x80 = 0 ∧ ∀ p ∈ ps, p.info.connectionClose = none

/-- There is one way to read the packets before a byte that has no form bit. -/
theorem flatMap_append_inj {ps qs : List LongPacket} {b c : UInt8} {xs ys : List UInt8}
    (hb : b &&& 0x80 = 0) (hc : c &&& 0x80 = 0)
    (h : ps.flatMap LongPacket.encode ++ b :: xs = qs.flatMap LongPacket.encode ++ c :: ys) :
    ps.map LongPacket.packetType = qs.map LongPacket.packetType ∧ b = c := by
  induction ps generalizing qs with
  | nil =>
    rcases qs with _ | ⟨q, qs⟩
    · exact ⟨rfl, (List.cons.inj h).1⟩
    · rw [List.flatMap_nil, List.nil_append, List.flatMap_cons, List.append_assoc] at h
      -- a packet with a long header starts with the form bit set
      exact absurd hb (LongPacket.form_of_append_eq h.symm)
  | cons p ps ih =>
    rw [List.flatMap_cons, List.append_assoc] at h
    rcases qs with _ | ⟨q, qs⟩
    · rw [List.flatMap_nil, List.nil_append] at h
      exact absurd hc (LongPacket.form_of_append_eq h)
    · rw [List.flatMap_cons, List.append_assoc] at h
      obtain ⟨htypes, hbc⟩ := ih (LongPacket.append_inj h).2.2
      rw [List.map_cons, List.map_cons, LongPacket.packetType_eq h, htypes]
      exact ⟨rfl, hbc⟩

variable {payload data : List UInt8} {packets offset : ℕ} {combined : Option QuicInfo}

theorem exists_shortForm_encode {p : LongPacket} {rest : List UInt8} :
    (∃ ps b, ShortForm (packets + 1) (p.encode ++ rest) ps b) ↔
      p.info.connectionClose = none ∧ ∃ ps b, ShortForm packets rest ps b := by
  constructor
  · rintro ⟨ps, b, ⟨tail, hdata⟩, hlt, hform, hclose⟩
    -- a long header is not a short one, so some packet comes first
    rcases ps with _ | ⟨q, ps⟩
    · rw [List.flatMap_nil, List.nil_append] at hdata
      exact absurd hform (LongPacket.form_of_append_eq hdata)
    rw [List.flatMap_cons, List.append_assoc] at hdata
    obtain ⟨hinfo, -, hrest⟩ := LongPacket.append_inj hdata
    have hp : p.info.connectionClose = none := by
      rw [hinfo]
      exact hclose q List.mem_cons_self
    refine ⟨hp, ps, b, ⟨tail, hrest⟩, ?_, hform, fun r hr => ?_⟩
    · exact Nat.lt_of_succ_lt_succ hlt
    · exact hclose r (List.mem_cons_of_mem q hr)
  · rintro ⟨hp, ps, b, ⟨tail, rfl⟩, hlt, hform, hclose⟩
    refine ⟨p :: ps, b, ⟨tail, ?_⟩, Nat.succ_lt_succ hlt, hform, fun r hr => ?_⟩
    · rw [List.flatMap_cons, List.append_assoc]
    · obtain rfl | hr := List.mem_cons.mp hr
      · exact hp
      · exact hclose r hr

/-- Where the parser stops at a packet with a long header, no short header can be reached. -/
theorem not_shortForm_of_stop {b c : UInt8} {tail : List UInt8} {ps : List LongPacket}
    {parsed : Option QuicInfo × ℕ} (hlong : b &&& 0x80 ≠ 0)
    (hparsed : parsePacket (b :: tail) = pure parsed)
    (hstop : parsed.2 = 0 ∨ parsed.2 = (b :: tail).length) :
    ¬ ShortForm packets (b :: tail) ps c := by
  rintro ⟨⟨rest, hdata⟩, -, hform, -⟩
  rcases ps with _ | ⟨p, ps⟩
  · rw [List.flatMap_nil, List.nil_append] at hdata
    exact hlong ((List.cons.inj hdata).1 ▸ hform)
  rw [List.flatMap_cons, List.append_assoc] at hdata
  -- the parser would have gone on behind the packet
  rw [hdata, parsePacket_encode] at hparsed
  have hlength : p.encode.length = parsed.2 := congrArg Prod.snd (Except.ok.inj hparsed)
  have hpos : 0 < p.encode.length := Nat.succ_pos _
  have hlt : p.encode.length < (b :: tail).length := by
    rw [hdata, List.length_append, List.length_append, List.length_cons]
    omega
  omega

/-- A short header takes up the rest. -/
theorem parsePackets_shortForm {b : UInt8} {tail : List UInt8} (hform : b &&& 0x80 = 0)
    (h : At payload offset (b :: tail)) :
    ∃ info, info.connectionState = .connected ∧
      parsePackets payload (packets + 1) offset combined =
        pure (combineInfo combined (some info)) := by
  obtain ⟨parsed, hparsed, hok⟩ := parsePacket_stepOk (List.cons_ne_nil b tail)
  obtain ⟨hlength, info, hinfo, hstate, -⟩ := hok.short (decide_eq_true hform)
  have hpos : (b :: tail).length ≠ 0 := Nat.succ_ne_zero _
  refine ⟨info, hstate, ?_⟩
  rw [parsePackets_cons h hparsed, hlength, if_neg hpos, parsePackets_nil h.finish, hinfo]

/-- The loop ends with a packet that has no length, and with one that takes up the rest. -/
theorem parsePackets_stop {b : UInt8} {tail : List UInt8} {parsed : Option QuicInfo × ℕ}
    (h : At payload offset (b :: tail)) (hparsed : parsePacket (b :: tail) = pure parsed)
    (hstop : parsed.2 = 0 ∨ parsed.2 = (b :: tail).length) :
    parsePackets payload (packets + 1) offset combined =
      pure (combineInfo combined parsed.1) := by
  have hpos : (b :: tail).length ≠ 0 := Nat.succ_ne_zero _
  rw [parsePackets_cons h hparsed]
  obtain hzero | hall := hstop
  · exact if_pos hzero
  · rw [hall, if_neg hpos, parsePackets_nil h.finish]

/-- The loop comes out with a connected state if it reaches a byte that has no form bit, and the
connection has not been closed before. -/
theorem parsePackets_connected_iff (packets : ℕ) (hcombined : combinedPriority combined ≠ 3)
    (h : At payload offset data) :
    Ensures (parsePackets payload packets offset combined) fun whole =>
      combinedPriority whole = 3 ↔
        combinedPriority combined < 3 ∧ ∃ ps b, ShortForm packets data ps b := by
  induction packets generalizing offset combined data with
  | zero =>
    refine ensures_pure (iff_of_false hcombined ?_)
    rintro ⟨-, ps, b, -, hlt, -⟩
    exact Nat.not_lt_zero _ hlt
  | succ packets ih =>
    rcases data with _ | ⟨b, tail⟩
    · rw [parsePackets_nil h]
      refine ensures_pure (iff_of_false hcombined ?_)
      rintro ⟨-, ps, b, ⟨tail, hdata⟩, -⟩
      exact List.append_ne_nil_of_right_ne_nil _ (List.cons_ne_nil _ _) hdata.symm
    by_cases hform : b &&& 0x80 = 0
    · obtain ⟨info, hstate, heq⟩ := parsePackets_shortForm hform h
      have hnew : combinedPriority (some info) = 3 := by
        rw [combinedPriority, hstate]
        rfl
      rw [heq]
      refine ensures_pure ?_
      rw [combinedPriority_combineInfo, hnew]
      -- the byte is reached behind no packet at all
      have hshort : ∃ ps c, ShortForm (packets + 1) (b :: tail) ps c :=
        ⟨[], b, ⟨tail, rfl⟩, Nat.succ_pos _, hform, fun _ hp => absurd hp List.not_mem_nil⟩
      refine ⟨fun hmax => ⟨?_, hshort⟩, fun hlt => Nat.max_eq_right hlt.1.le⟩
      exact lt_of_le_of_ne (max_eq_right_iff.mp hmax) hcombined
    obtain ⟨parsed, hparsed, hcases⟩ := parsePacket_long tail hform
    obtain ⟨p, rest, hdata, -⟩ | ⟨hstop, hlong⟩ := hcases
    · -- the loop goes on behind the packet, with what it adds to the priority
      rw [hdata] at h ⊢
      have hp := p.record_eq.2
      have hlong : ∀ i, some p.info = some i → LongRecord i := by
        rintro _ ⟨⟩
        exact ⟨_, longHeaderState_ne_connected p.packetType, hp⟩
      rw [parsePackets_encode h]
      have hne := combinedPriority_combineInfo_ne hcombined hlong
      refine (ih hne h.skip).mono fun whole hwhole => ?_
      rw [hwhole, exists_shortForm_encode, combinedPriority_combineInfo, max_lt_iff,
        ← hp.priority_lt_iff, and_assoc]
      rfl
    -- the loop ends here with what is combined so far, which is not connected
    · rw [parsePackets_stop h hparsed hstop]
      refine ensures_pure (iff_of_false (combinedPriority_combineInfo_ne hcombined hlong) ?_)
      rintro ⟨-, ps, c, hshort⟩
      exact not_shortForm_of_stop hform hparsed hstop hshort

/-! ## Connected datagrams -/

/-- A byte that is reached as a short header has the fixed bit set, and all packets before it carry
a Length. -/
def ShortFormsGenuine (datagram : List UInt8) : Prop :=
  ∀ ps b, ShortForm 10 datagram ps b → b &&& 0x40 ≠ 0 ∧ ∀ p ∈ ps, p.CarriesLength

/-- A datagram counts as Connected. -/
def CountsAsConnected (datagram : List UInt8) : Prop :=
  ∃ info, parseQuicPacket datagram = pure (some info) ∧ info.connectionState = .connected

theorem countsAsConnected_iff (datagram : List UInt8) :
    CountsAsConnected datagram ↔ ∃ ps b, ShortForm 10 datagram ps b := by
  have hnone : combinedPriority none ≠ 3 := by decide
  -- the loop starts with nothing combined, which has the least priority
  obtain ⟨whole, hwhole, hiff⟩ := parsePackets_connected_iff 10 hnone (At.start datagram)
  have hpos : combinedPriority none < 3 := by decide
  rw [← hiff.trans (and_iff_right hpos)]
  constructor
  · rintro ⟨info, hparse, hstate⟩
    have heq : whole = some info := Except.ok.inj (hwhole.symm.trans hparse)
    rw [heq, combinedPriority, hstate]
    rfl
  · intro hpriority
    rcases whole with _ | info
    · exact absurd hpriority hnone
    · exact ⟨info, hwhole, (quicStatePriority_eq_connected_iff _).mp hpriority⟩

/-- A datagram counts as Connected only for a packet with a short header exactly if the bytes that
are taken for short headers are. The datagram is any sequence of bytes. What is behind a packet
without a Length is read as another packet, and a first byte without the form bit is taken for a
short header, the fixed bit or not. -/
theorem connected_hasShortHeader_iff (datagram : List UInt8) :
    (∀ info, parseQuicPacket datagram = pure (some info) → info.connectionState = .connected →
      HasShortHeader datagram) ↔ ShortFormsGenuine datagram := by
  constructor
  · intro hconnected ps b hshort
    -- the datagram counts as Connected, so it has a short header, which is the byte reached
    obtain ⟨info, hparse, hstate⟩ := (countsAsConnected_iff datagram).mpr ⟨ps, b, hshort⟩
    obtain ⟨c, rest, hboundary, hform, hfixed⟩ := hconnected info hparse hstate
    obtain ⟨qs, hdatagram, hqs⟩ := hboundary.exists_packets
    obtain ⟨⟨tail, hdatagram'⟩, -, hform', -⟩ := hshort
    obtain ⟨htypes, rfl⟩ := flatMap_append_inj hform' hform (hdatagram'.symm.trans hdatagram)
    refine ⟨hfixed, fun p hp => ?_⟩
    -- the packets before the boundary have the same types, so these carry a Length too
    have hmem : p.packetType ∈ qs.map LongPacket.packetType := htypes ▸ List.mem_map_of_mem hp
    obtain ⟨q, hq, htype⟩ := List.mem_map.mp hmem
    have hlength := hqs q hq
    rwa [LongPacket.CarriesLength, htype] at hlength
  · intro hgenuine info hparse hstate
    obtain ⟨ps, b, hshort⟩ := (countsAsConnected_iff datagram).mp ⟨info, hparse, hstate⟩
    obtain ⟨hfixed, hps⟩ := hgenuine ps b hshort
    obtain ⟨⟨tail, rfl⟩, -, hform, -⟩ := hshort
    exact ⟨b, tail, PacketBoundary.start.skip hps, hform, hfixed⟩

/-- A Version Negotiation packet that offers version 1. -/
def versionNegotiation : List UInt8 := [0x80, 0, 0, 0, 0, 0, 0, 0, 0, 0, 1]

omit [DeepPacketInspection] [QuicCrypto] in
theorem not_hasShortHeader_versionNegotiation : ¬ HasShortHeader versionNegotiation := by
  rintro ⟨b, tail, hboundary, hform, -⟩
  obtain ⟨ps, hdatagram, hps⟩ := hboundary.exists_packets
  rcases ps with _ | ⟨p, ps⟩
  -- the first byte has the form bit set
  · have hb : 0x80 = b := (List.cons.inj hdatagram).1
    rw [← hb] at hform
    exact absurd hform (by decide)
  · rw [List.flatMap_cons, List.append_assoc] at hdatagram
    -- the packet at the front is the Version Negotiation itself, which carries no Length
    have htype : p.packetType = .versionNegotiation :=
      LongPacket.packetType_of_append_eq ⟨0, 0, 0, 0⟩ hdatagram.symm
    have hlength := hps p List.mem_cons_self
    rw [LongPacket.CarriesLength, htype] at hlength
    exact absurd hlength (by decide)

omit [DeepPacketInspection] [QuicCrypto] in
/-- The first version is read as a Length of zero, and the second byte of it as a short header. -/
theorem connected_versionNegotiation :
    letI : DeepPacketInspection := .silent
    letI : QuicCrypto := .silent
    ∃ info, parseQuicPacket versionNegotiation = pure (some info) ∧
      info.connectionState = .connected ∧ ¬ HasShortHeader versionNegotiation :=
  ⟨_, rfl, rfl, not_hasShortHeader_versionNegotiation⟩

end Datagram

end RustNet.Quic
