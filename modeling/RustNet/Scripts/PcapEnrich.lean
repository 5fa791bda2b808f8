import RustNet.Foundations.Binary64
import RustNet.Foundations.Search
import RustNet.Network.Types.Connection
import RustNet.Network.Types.Display
import RustNet.Network.Types.Octets

/-!
# Enriching a capture

`log_pcap_connection` writes a connection to the sidecar file of a capture, and the script
`pcap_enrich.py` reads the file back and looks up a record for every packet. The two agree on a
text for each end of a connection and on a serialized time. The script sees an address as text
with a port for TCP and UDP and without one for ICMP, and handles IPv4 packets only.

A record is taken as the fields the script uses; those of the GeoIP lookup are left out. The times
of the sidecar and of the capture are exact, those of the script are floats: it rounds what it reads
and every sum and difference, as `Binary64.round` does. Two times less than the last place of a
float apart, about 238 ns these years, may be one and the same for it.

## Main definitions

* `logPcapConnection`: the record of a connection;
* `PcapEnrich.loadConnections`, `PcapEnrich.findMatchingConnection`, `PcapEnrich.getPacketTuple`:
  the functions of the script;
* `PcapEnrich.Attributes`: a packet is attributed to a record of its own ends and time;
* `PcapEnrich.NearMiss`: the record of a connection spans the time of a packet for the script only.

## Main results

* `PcapEnrich.attribution_eq_argmin`: the record found is the first of those read nearest to the
  packet;
* `PcapEnrich.parseSystemtime_serialize`: how the script reads a time;
* `PcapEnrich.attributes_iff_hasPorts`: which packets of the recorded connections are attributed.
-/

namespace RustNet

/-! ## The sidecar file -/

/-- A `SystemTime` as it is serialized. -/
structure SerializedTime where
  secsSinceEpoch : ℕ
  nanosSinceEpoch : ℕ

/-- A time before the epoch cannot be serialized. -/
def SystemTime.serialize (time : SystemTime) : Option SerializedTime :=
  (time.durationSince .unixEpoch).map fun duration =>
    ⟨duration / 1000000000, duration % 1000000000⟩

/-- A line of the sidecar file. -/
structure SidecarRecord where
  protocol : String
  localAddr : String
  remoteAddr : String
  pid : Option UInt32
  processName : Option String
  firstSeen : Option SerializedTime
  lastSeen : Option SerializedTime
  bytesSent : UInt64
  bytesReceived : UInt64

/-- `log_pcap_connection`. Without its times a record is not written. -/
def logPcapConnection (conn : Connection) : Option SidecarRecord := do
  let firstSeen ← conn.createdAt.serialize
  let lastSeen ← conn.lastActivity.serialize
  return {
    protocol := conn.protocol.display
    localAddr := conn.localAddr.display
    remoteAddr := conn.remoteAddr.display
    pid := conn.pid
    processName := conn.processName
    firstSeen := some firstSeen
    lastSeen := some lastSeen
    bytesSent := conn.bytesSent
    bytesReceived := conn.bytesReceived }

/-- The seconds since the epoch. -/
def SystemTime.seconds (time : SystemTime) : ℚ := time.nanos / 1000000000

/-- The time lies between `first_seen` and `last_seen`. -/
def Connection.Covers (conn : Connection) (time : ℚ) : Prop :=
  conn.createdAt.seconds ≤ time ∧ time ≤ conn.lastActivity.seconds

namespace PcapEnrich

/-! ## The script -/

/-- `parse_systemtime`. The seconds and the nanoseconds are made floats, and both the quotient and
the sum are rounded. -/
def parseSystemtime (st : Option SerializedTime) : Option ℚ :=
  st.map fun st => Binary64.round (Binary64.round st.secsSinceEpoch +
    Binary64.round (Binary64.round st.nanosSinceEpoch / 1000000000))

/-- What the script keeps of a record. -/
structure ConnectionInfo where
  /-- The line it was read from: what the script returns is this one entry and not its values. -/
  line : SidecarRecord
  pid : Option UInt32
  processName : Option String
  firstSeen : Option ℚ
  lastSeen : Option ℚ
  bytesSent : UInt64
  bytesReceived : UInt64

/-- The `info` of a record. -/
def info (c : SidecarRecord) : ConnectionInfo where
  line := c
  pid := c.pid
  processName := c.processName
  firstSeen := parseSystemtime c.firstSeen
  lastSeen := parseSystemtime c.lastSeen
  bytesSent := c.bytesSent
  bytesReceived := c.bytesReceived

/-- A protocol, a source and a destination. -/
abbrev PacketTuple := String × String × String

/-- Both directions of a record. -/
def keys (c : SidecarRecord) : List PacketTuple :=
  let proto := c.protocol.toUpper
  if proto ≠ "" ∧ c.localAddr ≠ "" ∧ c.remoteAddr ≠ "" then
    [(proto, c.localAddr, c.remoteAddr), (proto, c.remoteAddr, c.localAddr)]
  else []

/-- `load_connections`: each record of the sidecar that names a protocol and two ends is filed under
both of its keys, one for each direction, behind the records that are there already. -/
def loadConnections (records : List SidecarRecord) :
    AList fun _ : PacketTuple => List ConnectionInfo :=
  records.foldl (fun lookup c => lookup.pushAll ((keys c).map fun key => (key, info c))) ∅

/-- `best_match` and `best_score`; the score of `none` is infinite. -/
structure BestMatch where
  conn : Option ConnectionInfo
  score : Option ℚ

/-- How far the packet is from the time range of a connection. -/
def score (pktTime firstSeen lastSeen : ℚ) : ℚ :=
  if pktTime < firstSeen then Binary64.round (firstSeen - pktTime)
  else if lastSeen < pktTime then Binary64.round (pktTime - lastSeen)
  else 0

/-- The packet is in the time range of a connection with the slack on both sides. The slack is a
number of seconds or, as `none`, the float `inf`, with which every time is in every range. -/
def InRange (pktTime firstSeen lastSeen : ℚ) (slack : Option ℚ) : Prop :=
  ∀ seconds ∈ slack, Binary64.round (firstSeen - seconds) ≤ pktTime ∧
    pktTime ≤ Binary64.round (lastSeen + seconds)

instance (pktTime firstSeen lastSeen : ℚ) (slack : Option ℚ) :
    Decidable (InRange pktTime firstSeen lastSeen slack) := by
  unfold InRange
  infer_instance

/-- A round of the loop of `find_matching_connection`. -/
def consider (pktTime : ℚ) (slack : Option ℚ) (best : BestMatch) (conn : ConnectionInfo) :
    BestMatch :=
  match conn.firstSeen, conn.lastSeen with
  | some firstSeen, some lastSeen =>
    -- the slack widens the range, but does not lower the score
    if InRange pktTime firstSeen lastSeen slack then
      let score := score pktTime firstSeen lastSeen
      if best.score.all fun bestScore => decide (score < bestScore) then ⟨some conn, some score⟩
      else best
    else best
  -- without a time the first connection wins
  | _, _ => if best.conn.isNone then { best with conn := some conn } else best

/-- `find_matching_connection`: the records under the packet's key one after the other, of which the
best so far is kept. -/
def findMatchingConnection (lookup : AList fun _ : PacketTuple => List ConnectionInfo)
    (pktTuple : PacketTuple) (pktTime : ℚ) (slack : Option ℚ) : Option ConnectionInfo :=
  ((lookup.valuesAt pktTuple).foldl (consider pktTime slack) ⟨none, none⟩).conn

/-! ## Captured packets -/

/-- The network layer of a packet, with its addresses. -/
inductive NetworkLayer
  | ip (src dst : Ipv4Addr)
  | ipv6 (src dst : Ipv6Addr)

/-- The transport layer of a packet, with its ports. -/
inductive TransportLayer
  | tcp (sport dport : UInt16)
  | udp (sport dport : UInt16)
  | icmp
  | icmpv6
  | other

/-- A packet as it is read from the capture. -/
structure CapturedPacket where
  network : NetworkLayer
  transport : TransportLayer
  time : ℚ

/-- `get_packet_tuple`: the protocol and the two ends of a packet of version 4, as the sidecar
writes them. -/
def getPacketTuple (pkt : CapturedPacket) : Option PacketTuple :=
  match pkt.network with
  -- `haslayer(IP)` is true of IPv4 only
  | .ipv6 .. => none
  | .ip src dst =>
    match pkt.transport with
    | .tcp sport dport =>
      some ("TCP", src.display ++ ":" ++ toString sport.toNat,
        dst.display ++ ":" ++ toString dport.toNat)
    | .udp sport dport =>
      some ("UDP", src.display ++ ":" ++ toString sport.toNat,
        dst.display ++ ":" ++ toString dport.toNat)
    | .icmp => some ("ICMP", src.display, dst.display)
    | _ => none

namespace CapturedPacket

/-- The protocol of the packet, if connections of it are tracked by ends. -/
def protocol? (pkt : CapturedPacket) : Option Protocol :=
  match pkt.transport with
  | .tcp .. => some .tcp
  | .udp .. => some .udp
  | .icmp | .icmpv6 => some .icmp
  | .other => none

/-- The ports of the packet; the parser has zeros for ICMP. -/
def ports (pkt : CapturedPacket) : UInt16 × UInt16 :=
  match pkt.transport with
  | .tcp sport dport | .udp sport dport => (sport, dport)
  | _ => (0, 0)

/-- The source and the destination of the packet. -/
def ends (pkt : CapturedPacket) : SocketAddr × SocketAddr :=
  match pkt.network with
  | .ip src dst => (⟨.v4 src, pkt.ports.1⟩, ⟨.v4 dst, pkt.ports.2⟩)
  | .ipv6 src dst => (⟨.v6 src, pkt.ports.1⟩, ⟨.v6 dst, pkt.ports.2⟩)

/-- The packet has the protocol and the ends of the connection, in either direction. -/
def Belongs (pkt : CapturedPacket) (conn : Connection) : Prop :=
  pkt.protocol? = some conn.protocol ∧
    (pkt.ends = (conn.localAddr, conn.remoteAddr) ∨ pkt.ends = (conn.remoteAddr, conn.localAddr))

/-- The packet is a TCP or UDP packet over IPv4. -/
def HasPortsOverIpv4 (pkt : CapturedPacket) : Prop :=
  match pkt.network, pkt.transport with
  | .ip .., .tcp .. | .ip .., .udp .. => True
  | _, _ => False

end CapturedPacket

/-- The record that the script attributes a packet to, of those written for `conns`. The time of the
packet is made a float, as `enrich_packets` does. -/
def attribution (conns : List Connection) (pkt : CapturedPacket) (slack : Option ℚ) :
    Option ConnectionInfo :=
  (getPacketTuple pkt).bind fun pktTuple =>
    findMatchingConnection (loadConnections (conns.filterMap logPcapConnection)) pktTuple
      (Binary64.round pkt.time) slack

/-- The packet is attributed to the record of a connection that it belongs to and that covers its
time. -/
def Attributes (conns : List Connection) (pkt : CapturedPacket) (slack : Option ℚ) : Prop :=
  ∃ conn ∈ conns, pkt.Belongs conn ∧ conn.Covers pkt.time ∧
    ∃ c, logPcapConnection conn = some c ∧ attribution conns pkt slack = some (info c)

/-! ## Nearness

What the script chooses by, said of the connections themselves. -/

/-- The time range of a connection as the script reads it from the record, if there is one. -/
def readRange (conn : Connection) : Option (ℚ × ℚ) := do
  let firstSeen ← parseSystemtime conn.createdAt.serialize
  let lastSeen ← parseSystemtime conn.lastActivity.serialize
  return (firstSeen, lastSeen)

/-- The connection has a record that the packet belongs to and is in the range of. -/
def Considered (pkt : CapturedPacket) (slack : Option ℚ) (conn : Connection) : Prop :=
  pkt.Belongs conn ∧ (readRange conn).any fun range =>
    decide (InRange (Binary64.round pkt.time) range.1 range.2 slack)

instance (pkt : CapturedPacket) (conn : Connection) : Decidable (pkt.Belongs conn) := by
  unfold CapturedPacket.Belongs
  infer_instance

instance (pkt : CapturedPacket) (slack : Option ℚ) : DecidablePred (Considered pkt slack) := by
  unfold Considered
  infer_instance

/-- How far the packet is from the connection, as read. -/
def distance (pkt : CapturedPacket) (conn : Connection) : ℚ :=
  (readRange conn).elim 0 fun range => score (Binary64.round pkt.time) range.1 range.2

/-- Of the connections considered, the first of those read nearest to the packet covers its time. -/
def NearestCovers (conns : List Connection) (pkt : CapturedPacket) (slack : Option ℚ) : Prop :=
  ∃ conn ∈ (conns.filter (Considered pkt slack)).argmin (distance pkt), conn.Covers pkt.time

/-- Both times of the connection lie between the 13th of January 1970 and the second `2 ^ 53`, up to
which every whole second is a float. -/
def Dated (conn : Connection) : Prop :=
  (2 ^ 20 ≤ conn.createdAt.seconds ∧ conn.createdAt.seconds < 2 ^ 53) ∧
    2 ^ 20 ≤ conn.lastActivity.seconds ∧ conn.lastActivity.seconds < 2 ^ 53

/-- The connection covers the time as far as floats tell. -/
def ReadCovers (conn : Connection) (time : ℚ) : Prop :=
  Binary64.round conn.createdAt.seconds ≤ Binary64.round time ∧
    Binary64.round time ≤ Binary64.round conn.lastActivity.seconds

/-- The packet belongs to the connection, and floats put its time into the range of the connection,
where it is not. -/
def NearMiss (pkt : CapturedPacket) (conn : Connection) : Prop :=
  pkt.Belongs conn ∧ ReadCovers conn pkt.time ∧ ¬ conn.Covers pkt.time

/-- Every near miss comes after a connection of the packet that covers its time. -/
def NoNearMissFirst (conns : List Connection) (pkt : CapturedPacket) : Prop :=
  ∀ earlier conn later, conns = earlier ++ conn :: later → NearMiss pkt conn →
    ∃ conn' ∈ earlier, pkt.Belongs conn' ∧ conn'.Covers pkt.time

/-! ## Times -/

section Times

variable {time : SystemTime} {st : SerializedTime}

/-- A serialized time is the same time. -/
theorem seconds_of_serialize (h : time.serialize = some st) :
    time.seconds = st.secsSinceEpoch + st.nanosSinceEpoch / 1000000000 ∧
      st.nanosSinceEpoch < 1000000000 := by
  obtain ⟨duration, hduration, rfl⟩ := Option.map_eq_some_iff.mp h
  refine ⟨?_, Nat.mod_lt _ (by norm_num)⟩
  unfold SystemTime.durationSince at hduration
  split at hduration
  · rename_i hepoch
    simp only [SystemTime.unixEpoch] at hepoch hduration
    have hnanos : (duration : ℚ) = time.nanos := by
      have heq : (duration : ℤ) = time.nanos := by
        have htoNat := Option.some.inj hduration
        omega
      exact_mod_cast heq
    -- the seconds and the nanoseconds together are the duration
    have hsplit : (1000000000 * (duration / 1000000000 : ℕ) + (duration % 1000000000 : ℕ) : ℚ) =
        duration := by
      exact_mod_cast Nat.div_add_mod duration 1000000000
    rw [SystemTime.seconds, ← hnanos, ← hsplit]
    ring
  · cases hduration

/-- A fraction of a second that is no float is not near any tie. -/
theorem lt_abs_sub_of_not_representable {nanos : ℕ} (hnanos : nanos < 1000000000)
    (h : ¬ Binary64.Representable (nanos / 1000000000)) (j : ℤ) :
    1 / 2 ^ 54 < |(nanos / 1000000000 : ℚ) - j / 2 ^ 33| := by
  have hsplit : (nanos / 1000000000 : ℚ) - j / 2 ^ 33 =
      ((nanos * 2 ^ 24 - j * 5 ^ 9 : ℤ) : ℚ) / (5 ^ 9 * 2 ^ 33) := by
    push_cast
    ring
  -- the difference is a whole number of very small parts, and not zero
  have hne : (nanos * 2 ^ 24 - j * 5 ^ 9 : ℤ) ≠ 0 := by
    intro hzero
    rw [hzero, Int.cast_zero, zero_div, sub_eq_zero] at hsplit
    refine h ⟨j, -33, by norm_num, ?_, ?_⟩
    · rw [abs_le]
      omega
    · rw [hsplit, zpow_neg, div_eq_mul_inv]
      norm_cast
  have hone : (1 : ℚ) ≤ |((nanos * 2 ^ 24 - j * 5 ^ 9 : ℤ) : ℚ)| := by
    exact_mod_cast Int.one_le_abs hne
  have hpos : (0 : ℚ) < 5 ^ 9 * 2 ^ 33 := by norm_num
  rw [hsplit, abs_div, abs_of_pos hpos, lt_div_iff₀ hpos]
  exact lt_of_lt_of_le (by norm_num) hone

/-- The rounding of the fraction does not show in the sum. -/
theorem round_add_round_nanos {secs nanos : ℕ} (hsecs : 2 ^ 20 ≤ secs)
    (hnanos : nanos < 1000000000) :
    Binary64.round (secs + Binary64.round (nanos / 1000000000)) =
      Binary64.round (secs + nanos / 1000000000) := by
  by_cases hrep : Binary64.Representable (nanos / 1000000000)
  · rw [Binary64.round_eq_self hrep]
  have hties := lt_abs_sub_of_not_representable hnanos hrep
  have hnonneg : (0 : ℚ) ≤ nanos / 1000000000 := by positivity
  have hle : (nanos / 1000000000 : ℚ) ≤ 999999999 / 1000000000 := by
    have hnanos' : (nanos : ℚ) ≤ 999999999 := by exact_mod_cast Nat.le_pred_of_lt hnanos
    exact div_le_div_of_nonneg_right hnanos' (by norm_num)
  generalize (nanos / 1000000000 : ℚ) = x at hties hnonneg hle
  have hnear : |Binary64.round x - x| ≤ 1 / 2 ^ 54 := by
    apply Binary64.abs_round_sub_le_of_lt_one
    rw [abs_lt]
    constructor <;> linarith
  have hround : 0 ≤ Binary64.round x := by
    rw [← Binary64.round_zero]
    exact Binary64.round_mono hnonneg
  have hround' : Binary64.round x < 1 := by
    have := (abs_le.mp hnear).2
    norm_num at this
    linarith
  have hne : secs ≠ 0 := by omega
  have hexp := Binary64.exponent_natCast_add hne hnonneg (by linarith)
  refine (Binary64.round_eq_round ?_ fun k => ?_).symm
  · rw [hexp, Binary64.exponent_natCast_add hne hround hround']
  -- seen from the whole second, a tie is a whole number of `2 ^ 33`rds
  · have hlog : 20 ≤ Nat.log 2 secs := Nat.le_log_of_pow_le (by norm_num) hsecs
    have hulp : Binary64.ulp (secs + x) = 2 ^ (Nat.log 2 secs - 20) / 2 ^ 32 := by
      have hsplit : (Nat.log 2 secs - 52 : ℤ) = (Nat.log 2 secs - 20 : ℕ) + (-32) := by omega
      rw [Binary64.ulp, hexp, hsplit, zpow_add₀ (by norm_num), zpow_natCast, zpow_neg,
        div_eq_mul_inv]
      norm_cast
    have htie := hties ((2 * k + 1) * 2 ^ (Nat.log 2 secs - 20) - secs * 2 ^ 33)
    have hsame : x - (((2 * k + 1) * 2 ^ (Nat.log 2 secs - 20) - secs * 2 ^ 33 : ℤ) : ℚ) / 2 ^ 33 =
        secs + x - (k + 1 / 2) * (2 ^ (Nat.log 2 secs - 20) / 2 ^ 32) := by
      push_cast
      ring
    rw [add_sub_add_left_eq_sub, hulp, abs_sub_comm, ← hsame]
    exact hnear.trans_lt htie

/-- A time of a record is read as the nearest float. -/
theorem parseSystemtime_serialize (h : time.serialize = some st) (hfrom : 2 ^ 20 ≤ time.seconds)
    (hto : time.seconds < 2 ^ 53) :
    parseSystemtime (some st) = some (Binary64.round time.seconds) := by
  obtain ⟨hseconds, hnanos⟩ := seconds_of_serialize h
  have hfraction : (st.nanosSinceEpoch / 1000000000 : ℚ) < 1 := by
    rw [div_lt_one (by norm_num)]
    exact_mod_cast hnanos
  have hnonneg : (0 : ℚ) ≤ st.nanosSinceEpoch / 1000000000 := by positivity
  rw [hseconds] at hfrom hto
  -- the bounds hold for the whole seconds too, which are exact in binary64
  have hsecs : 2 ^ 20 < st.secsSinceEpoch + 1 := by
    have hlt : (2 : ℚ) ^ 20 < st.secsSinceEpoch + 1 := by linarith
    exact_mod_cast hlt
  have hsecs' : st.secsSinceEpoch < 2 ^ 53 := by
    have hlt : (st.secsSinceEpoch : ℚ) < 2 ^ 53 := by linarith
    exact_mod_cast hlt
  rw [parseSystemtime, Option.map_some,
    Binary64.round_eq_self (Binary64.representable_natCast hsecs'.le),
    Binary64.round_eq_self (Binary64.representable_natCast (by omega)),
    round_add_round_nanos (by omega) hnanos, ← hseconds]

end Times

/-! ## Records -/

section Records

variable {conn conn' : Connection} {c : SidecarRecord}

/-- A record has the texts of its connection and both of its times. -/
theorem of_logPcapConnection (h : logPcapConnection conn = some c) :
    c.protocol = conn.protocol.display ∧ c.localAddr = conn.localAddr.display ∧
      c.remoteAddr = conn.remoteAddr.display ∧
        (∃ st, conn.createdAt.serialize = some st ∧ c.firstSeen = some st) ∧
          ∃ st, conn.lastActivity.serialize = some st ∧ c.lastSeen = some st := by
  unfold logPcapConnection at h
  obtain ⟨firstSeen, hfirst, h⟩ := Option.bind_eq_some_iff.mp h
  obtain ⟨lastSeen, hlast, h⟩ := Option.bind_eq_some_iff.mp h
  obtain rfl := Option.some.inj h
  exact ⟨rfl, rfl, rfl, ⟨firstSeen, hfirst, rfl⟩, lastSeen, hlast, rfl⟩

/-- The script reads both times of a record. -/
theorem readRange_of_logPcapConnection (h : logPcapConnection conn = some c) :
    ∃ range, readRange conn = some range ∧ (info c).firstSeen = some range.1 ∧
      (info c).lastSeen = some range.2 := by
  obtain ⟨-, -, -, ⟨firstSeen, hfirst, hfirst'⟩, lastSeen, hlast, hlast'⟩ := of_logPcapConnection h
  refine ⟨(_, _), ?_, congrArg parseSystemtime hfirst', congrArg parseSystemtime hlast'⟩
  rw [readRange, hfirst, hlast]
  rfl

/-- A connection whose times can be read has a record. -/
theorem exists_logPcapConnection {range : ℚ × ℚ} (h : readRange conn = some range) :
    ∃ c, logPcapConnection conn = some c := by
  obtain ⟨firstSeen, hfirst, h⟩ := Option.bind_eq_some_iff.mp h
  obtain ⟨lastSeen, hlast, -⟩ := Option.bind_eq_some_iff.mp h
  obtain ⟨st, hst, -⟩ := Option.map_eq_some_iff.mp hfirst
  obtain ⟨st', hst', -⟩ := Option.map_eq_some_iff.mp hlast
  rw [logPcapConnection, hst, hst']
  exact ⟨_, rfl⟩

/-- Connections with the same record cover the same times. -/
theorem covers_congr (h : logPcapConnection conn = some c) (h' : logPcapConnection conn' = some c)
    (time : ℚ) : conn.Covers time ↔ conn'.Covers time := by
  obtain ⟨-, -, -, ⟨st, hst, hfirst⟩, st', hst', hlast⟩ := of_logPcapConnection h
  obtain ⟨-, -, -, ⟨st₁, hst₁, hfirst₁⟩, st₁', hst₁', hlast₁⟩ := of_logPcapConnection h'
  obtain rfl : st = st₁ := Option.some.inj (hfirst.symm.trans hfirst₁)
  obtain rfl : st' = st₁' := Option.some.inj (hlast.symm.trans hlast₁)
  rw [Connection.Covers, Connection.Covers, (seconds_of_serialize hst).1,
    (seconds_of_serialize hst').1, (seconds_of_serialize hst₁).1, (seconds_of_serialize hst₁').1]

end Records

/-- Under a tuple are the records that have it as a key, in the order of the file. -/
theorem valuesAt_loadConnections (records : List SidecarRecord) (pktTuple : PacketTuple) :
    (loadConnections records).valuesAt pktTuple =
      records.flatMap fun c => ((keys c).filter (· = pktTuple)).map fun _ => info c := by
  have hload : loadConnections records =
      AList.pushAll (records.flatMap fun c => (keys c).map fun key => (key, info c)) ∅ :=
    AList.foldl_eq_pushAll _ (fun _ _ => rfl) records
  rw [hload, AList.valuesAt_pushAll, AList.valuesAt, AList.lookup_empty, Option.getD_none,
    List.nil_append, List.filter_flatMap, List.map_flatMap]
  refine List.flatMap_congr fun c _ => ?_
  rw [List.filter_map, List.map_map]
  rfl

/-! ## Texts -/

/-- The name of a protocol is in capitals. -/
@[simp]
theorem toUpper_display (protocol : Protocol) : protocol.display.toUpper = protocol.display := by
  cases protocol <;> decide +kernel

theorem display_ne_empty (protocol : Protocol) : protocol.display ≠ "" := by
  cases protocol <;> decide

theorem display_ne_empty' (addr : SocketAddr) : addr.display ≠ "" := by
  intro hempty
  have hcolon := addr.colon_mem_display
  rw [hempty] at hcolon
  cases hcolon

/-- The tuples a connection is found under. -/
theorem mem_keys_iff {conn : Connection} {c : SidecarRecord} (h : logPcapConnection conn = some c)
    {pktTuple : PacketTuple} :
    pktTuple ∈ keys c ↔
      pktTuple = (conn.protocol.display, conn.localAddr.display, conn.remoteAddr.display) ∨
        pktTuple = (conn.protocol.display, conn.remoteAddr.display, conn.localAddr.display) := by
  obtain ⟨hprotocol, hlocal, hremote, -, -⟩ := of_logPcapConnection h
  simp [keys, hprotocol, hlocal, hremote, display_ne_empty, display_ne_empty']

theorem display_inj {protocol protocol' : Protocol} (h : protocol.display = protocol'.display) :
    protocol = protocol' := by
  cases protocol <;> cases protocol' <;> first | rfl | exact absurd h (by decide)


/-! ## The best match -/

/-- The entry of a connection that the packet belongs to, if there is a record. -/
def entryOf (pkt : CapturedPacket) (conn : Connection) : Option ConnectionInfo :=
  if pkt.Belongs conn then (logPcapConnection conn).map info else none

section Loop

variable {time : ℚ} {slack : Option ℚ}

/-- Considering an entry a second time changes nothing: it is not nearer than itself. -/
theorem consider_consider (best : BestMatch) (i : ConnectionInfo) :
    consider time slack (consider time slack best i) i = consider time slack best i := by
  cases hfirst : i.firstSeen with
  | none => cases hbest : best.conn <;> simp [consider, hfirst, hbest]
  | some firstSeen =>
    cases hlast : i.lastSeen with
    | none => cases hbest : best.conn <;> simp [consider, hfirst, hlast, hbest]
    | some lastSeen =>
      by_cases hrange : InRange time firstSeen lastSeen slack
      · simp only [consider, hfirst, hlast, hrange, if_true]
        split_ifs with hbetter <;> simp
      · simp [consider, hfirst, hlast, hrange]

/-- A record is considered once, although it is filed twice if both of its ends are the same. -/
theorem foldl_consider_keys (best : BestMatch) (c : SidecarRecord) (pktTuple : PacketTuple) :
    (((keys c).filter (· = pktTuple)).map fun _ => info c).foldl (consider time slack) best =
      if pktTuple ∈ keys c then consider time slack best (info c) else best := by
  induction keys c generalizing best with
  | nil => rfl
  | cons key rest ih =>
    by_cases hkey : key = pktTuple
    · rw [List.filter_cons_of_pos (by simpa using hkey), List.map_cons, List.foldl_cons, ih,
        consider_consider, ite_self, if_pos (by simp [hkey])]
    · rw [List.filter_cons_of_neg (by simpa using hkey), ih]
      simp [Ne.symm hkey]

/-- The loop finds the first of the nearest connections. -/
theorem foldl_consider_eq_argmin (pkt : CapturedPacket) (conns : List Connection) :
    (conns.filterMap (entryOf pkt)).foldl (consider (Binary64.round pkt.time) slack) ⟨none, none⟩ =
      let nearest := (conns.filter (Considered pkt slack)).argmin (distance pkt)
      ⟨nearest.bind (entryOf pkt), nearest.map (distance pkt)⟩ := by
  induction conns using List.reverseRecOn with
  | nil => rfl
  | append_singleton conns conn ih =>
    rw [List.filterMap_append, List.foldl_append, ih, List.filter_append]
    -- a connection without an entry is not considered
    cases hentry : entryOf pkt conn with
    | none =>
      have hnot : ¬ Considered pkt slack conn := by
        rintro ⟨hbelongs, hrange⟩
        obtain ⟨range, hread, -⟩ := (Option.any_eq_true _ _).mp hrange
        obtain ⟨c, hc⟩ := exists_logPcapConnection hread
        rw [entryOf, if_pos hbelongs, hc] at hentry
        cases hentry
      simp [hentry, hnot]
    | some i =>
      have hbelongs : pkt.Belongs conn := by
        by_contra hnot
        rw [entryOf, if_neg hnot] at hentry
        cases hentry
      have hentry' := hentry
      rw [entryOf, if_pos hbelongs] at hentry'
      obtain ⟨c, hc, rfl⟩ := Option.map_eq_some_iff.mp hentry'
      obtain ⟨range, hread, hfirst, hlast⟩ := readRange_of_logPcapConnection hc
      have hdistance : distance pkt conn = score (Binary64.round pkt.time) range.1 range.2 := by
        rw [distance, hread, Option.elim_some]
      by_cases hrange : InRange (Binary64.round pkt.time) range.1 range.2 slack
      · have hconsidered : Considered pkt slack conn := ⟨hbelongs, by simp [hread, hrange]⟩
        simp only [List.filterMap_cons, hentry, List.filterMap_nil, List.foldl_cons, List.foldl_nil,
          List.filter_cons, hconsidered, decide_true, if_true, List.filter_nil, List.argmin_concat,
          consider, hfirst, hlast, hrange, ← hdistance]
        cases (conns.filter (Considered pkt slack)).argmin (distance pkt) with
        | none => simp [hentry]
        | some nearest =>
          by_cases hless : distance pkt conn < distance pkt nearest <;> simp [hless, hentry]
      · have hnot : ¬ Considered pkt slack conn := by
          rintro ⟨-, hin⟩
          rw [hread] at hin
          exact hrange (of_decide_eq_true hin)
        simp [hentry, hnot, consider, hfirst, hlast, hrange]

end Loop

/-! ## Attribution -/

section Attribution

variable {conns : List Connection} {pkt : CapturedPacket} {slack : Option ℚ}

/-- The tuple of a packet with ports has the texts of its ends. -/
theorem getPacketTuple_of_hasPorts (h : pkt.HasPortsOverIpv4) {protocol : Protocol}
    (hprotocol : pkt.protocol? = some protocol) :
    getPacketTuple pkt = some (protocol.display, pkt.ends.1.display, pkt.ends.2.display) := by
  obtain ⟨network, transport, time⟩ := pkt
  cases network with
  | ipv6 src dst => exact absurd h (by simp [CapturedPacket.HasPortsOverIpv4])
  | ip src dst =>
    cases transport with
    | tcp sport dport | udp sport dport =>
      obtain rfl := Option.some.inj hprotocol
      rfl
    | icmp | icmpv6 | other => exact absurd h (by simp [CapturedPacket.HasPortsOverIpv4])

/-- The ends of a packet with ports are IPv4 addresses. -/
theorem ends_of_hasPorts (h : pkt.HasPortsOverIpv4) :
    ∃ src dst : Ipv4Addr, pkt.ends = (⟨.v4 src, pkt.ports.1⟩, ⟨.v4 dst, pkt.ports.2⟩) := by
  obtain ⟨network, transport, time⟩ := pkt
  cases network with
  | ipv6 src dst => exact absurd h (by simp [CapturedPacket.HasPortsOverIpv4])
  | ip src dst => exact ⟨src, dst, rfl⟩

/-- The records under the tuple of a packet with ports are those of its ends. -/
theorem mem_keys_iff_belongs (hports : pkt.HasPortsOverIpv4) {protocol : Protocol}
    (hprotocol : pkt.protocol? = some protocol) {conn : Connection} {c : SidecarRecord}
    (hc : logPcapConnection conn = some c) :
    (protocol.display, pkt.ends.1.display, pkt.ends.2.display) ∈ keys c ↔ pkt.Belongs conn := by
  obtain ⟨src, dst, hends⟩ := ends_of_hasPorts hports
  rw [mem_keys_iff hc, CapturedPacket.Belongs, hprotocol, hends]
  simp only [Prod.mk.injEq, Option.some.injEq]
  -- an address of version 4 is read back from its text
  constructor
  · rintro (⟨hname, hsrc, hdst⟩ | ⟨hname, hsrc, hdst⟩)
    · exact ⟨display_inj hname, Or.inl ⟨(SocketAddr.eq_of_display_v4 hsrc.symm).symm,
        (SocketAddr.eq_of_display_v4 hdst.symm).symm⟩⟩
    · exact ⟨display_inj hname, Or.inr ⟨(SocketAddr.eq_of_display_v4 hsrc.symm).symm,
        (SocketAddr.eq_of_display_v4 hdst.symm).symm⟩⟩
  · rintro ⟨rfl, ⟨hsrc, hdst⟩ | ⟨hsrc, hdst⟩⟩
    · exact Or.inl ⟨rfl, by rw [hsrc], by rw [hdst]⟩
    · exact Or.inr ⟨rfl, by rw [hsrc], by rw [hdst]⟩

/-- No record has an address without a port. -/
theorem valuesAt_address_eq_nil (proto dst : String) (src : Ipv4Addr) :
    (loadConnections (conns.filterMap logPcapConnection)).valuesAt (proto, src.display, dst) =
      [] := by
  rw [valuesAt_loadConnections, List.eq_nil_iff_forall_not_mem]
  intro i hi
  obtain ⟨c, hc, hi⟩ := List.mem_flatMap.mp hi
  obtain ⟨key, hkey, -⟩ := List.mem_map.mp hi
  obtain ⟨hkeys, hkey⟩ := List.mem_filter.mp hkey
  rw [of_decide_eq_true hkey] at hkeys
  obtain ⟨conn, -, hwritten⟩ := List.mem_filterMap.mp hc
  -- every end in the sidecar has a colon, and an address alone has none
  have hcolon : ':' ∉ src.display.toList := src.notMem_display (by decide) (by decide)
  rcases (mem_keys_iff hwritten).mp hkeys with heq | heq
  · have hsrc : src.display = conn.localAddr.display := (Prod.mk.inj (Prod.mk.inj heq).2).1
    exact hcolon (hsrc ▸ conn.localAddr.colon_mem_display)
  · have hsrc : src.display = conn.remoteAddr.display := (Prod.mk.inj (Prod.mk.inj heq).2).1
    exact hcolon (hsrc ▸ conn.remoteAddr.colon_mem_display)

/-- Only packets with ports are attributed. -/
theorem attribution_eq_none (hports : ¬ pkt.HasPortsOverIpv4) :
    attribution conns pkt slack = none := by
  obtain ⟨network, transport, time⟩ := pkt
  cases network with
  -- the script looks for IPv4 packets only
  | ipv6 src dst => rfl
  | ip src dst =>
    cases transport with
    | tcp sport dport | udp sport dport => exact absurd trivial hports
    -- the key has no ports
    | icmp =>
      rw [attribution, getPacketTuple, Option.bind_some, findMatchingConnection,
        valuesAt_address_eq_nil, List.foldl_nil]
    | icmpv6 | other => rfl

/-- The protocol of a packet with ports is tracked. -/
theorem exists_protocol_of_hasPorts (h : pkt.HasPortsOverIpv4) :
    ∃ protocol, pkt.protocol? = some protocol := by
  obtain ⟨network, transport, time⟩ := pkt
  cases network with
  | ipv6 src dst => exact absurd h (by simp [CapturedPacket.HasPortsOverIpv4])
  | ip src dst =>
    cases transport with
    | tcp sport dport | udp sport dport => exact ⟨_, rfl⟩
    | icmp | icmpv6 | other => exact absurd h (by simp [CapturedPacket.HasPortsOverIpv4])

/-- A packet with ports is attributed to the first of the nearest connections. -/
theorem attribution_eq_argmin (hports : pkt.HasPortsOverIpv4) :
    attribution conns pkt slack =
      ((conns.filter (Considered pkt slack)).argmin (distance pkt)).bind (entryOf pkt) := by
  obtain ⟨protocol, hprotocol⟩ := exists_protocol_of_hasPorts hports
  -- of all records under the key only those of the packet's own flow are considered
  have hfold (best : BestMatch) :
      ((loadConnections (conns.filterMap logPcapConnection)).valuesAt
        (protocol.display, pkt.ends.1.display, pkt.ends.2.display)).foldl
          (consider (Binary64.round pkt.time) slack) best =
        (conns.filterMap (entryOf pkt)).foldl (consider (Binary64.round pkt.time) slack) best := by
    rw [valuesAt_loadConnections]
    induction conns generalizing best with
    | nil => rfl
    | cons conn conns ih =>
      cases hc : logPcapConnection conn with
      | none =>
        have hentry : entryOf pkt conn = none := by simp [entryOf, hc]
        rw [List.filterMap_cons_none hc, ih, List.filterMap_cons_none hentry]
      | some c =>
        have hkeys := mem_keys_iff_belongs hports hprotocol hc
        rw [List.filterMap_cons_some hc, List.flatMap_cons, List.foldl_append, foldl_consider_keys,
          ih]
        by_cases hbelongs : pkt.Belongs conn <;> simp [entryOf, hc, hkeys, hbelongs]
  rw [attribution, getPacketTuple_of_hasPorts hports hprotocol, Option.bind_some,
    findMatchingConnection, hfold, foldl_consider_eq_argmin]

/-- For any records: a packet is attributed to one of its own ends and time exactly if it has ports,
and the first of the nearest connections covers its time. -/
theorem attributes_iff_nearestCovers :
    Attributes conns pkt slack ↔ pkt.HasPortsOverIpv4 ∧ NearestCovers conns pkt slack := by
  constructor
  · rintro ⟨conn, -, -, hcovers, c, hc, hattribution⟩
    have hports : pkt.HasPortsOverIpv4 := by
      by_contra hports
      rw [attribution_eq_none hports] at hattribution
      cases hattribution
    rw [attribution_eq_argmin hports] at hattribution
    obtain ⟨nearest, hnearest, hentry⟩ := Option.bind_eq_some_iff.mp hattribution
    -- the nearest connection has the same record, and so covers the same times
    unfold entryOf at hentry
    split at hentry
    · obtain ⟨c', hc', hinfo⟩ := Option.map_eq_some_iff.mp hentry
      obtain rfl : c' = c := congrArg ConnectionInfo.line hinfo
      exact ⟨hports, nearest, hnearest, (covers_congr hc' hc _).mpr hcovers⟩
    · cases hentry
  · rintro ⟨hports, nearest, hnearest, hcovers⟩
    obtain ⟨hmem, hconsidered⟩ := List.mem_filter.mp (List.argmin_mem hnearest)
    obtain ⟨hbelongs, hrange⟩ := of_decide_eq_true hconsidered
    obtain ⟨range, hread, -⟩ := (Option.any_eq_true _ _).mp hrange
    obtain ⟨c, hc⟩ := exists_logPcapConnection hread
    refine ⟨nearest, hmem, hbelongs, hcovers, c, hc, ?_⟩
    rw [attribution_eq_argmin hports, Option.mem_def.mp hnearest, Option.bind_some, entryOf,
      if_pos hbelongs, hc, Option.map_some]

/-! ## Dated records -/

section Dated

variable {conn : Connection}

/-- A score is not negative. -/
theorem score_nonneg (time firstSeen lastSeen : ℚ) : 0 ≤ score time firstSeen lastSeen := by
  have hround {q : ℚ} (h : 0 ≤ q) : 0 ≤ Binary64.round q := by
    rw [← Binary64.round_zero]
    exact Binary64.round_mono h
  unfold score
  split_ifs with hearly hlate
  · exact hround (sub_nonneg.mpr hearly.le)
  · exact hround (sub_nonneg.mpr hlate.le)
  · exact le_rfl

/-- Of floats, only a time within the range has the score zero. -/
theorem score_eq_zero_iff {time firstSeen lastSeen : ℚ} (htime : Binary64.Representable time)
    (hfirst : Binary64.Representable firstSeen) (hlast : Binary64.Representable lastSeen) :
    score time firstSeen lastSeen = 0 ↔ firstSeen ≤ time ∧ time ≤ lastSeen := by
  unfold score
  split_ifs with hearly hlate
  · exact iff_of_false (Binary64.round_pos htime hfirst hearly).ne'
      fun h => absurd h.1 (not_le.mpr hearly)
  · exact iff_of_false (Binary64.round_pos hlast htime hlate).ne'
      fun h => absurd h.2 (not_le.mpr hlate)
  · exact iff_of_true rfl ⟨not_lt.mp hearly, not_lt.mp hlate⟩

theorem distance_nonneg (pkt : CapturedPacket) (conn : Connection) : 0 ≤ distance pkt conn := by
  unfold distance
  cases readRange conn with
  | none => exact le_rfl
  | some range => exact score_nonneg _ _ _

/-- Rounding keeps a covered time covered. -/
theorem readCovers_of_covers {time : ℚ} (h : conn.Covers time) : ReadCovers conn time :=
  ⟨Binary64.round_mono h.1, Binary64.round_mono h.2⟩

/-- A time after the epoch is serialized. -/
theorem exists_serialize {time : SystemTime} (h : 0 ≤ time.seconds) :
    ∃ st, time.serialize = some st := by
  have hnanos : (0 : ℤ) ≤ time.nanos := by
    rw [SystemTime.seconds, le_div_iff₀ (by norm_num), zero_mul] at h
    exact_mod_cast h
  have hduration : time.durationSince .unixEpoch = some (time.nanos - 0).toNat := if_pos hnanos
  rw [SystemTime.serialize, hduration, Option.map_some]
  exact ⟨_, rfl⟩

/-- The times of a dated connection are read as the nearest floats. -/
theorem Dated.readRange (h : Dated conn) : PcapEnrich.readRange conn =
    some (Binary64.round conn.createdAt.seconds, Binary64.round conn.lastActivity.seconds) := by
  obtain ⟨⟨hfirst, hfirst'⟩, hlast, hlast'⟩ := h
  have htwo : (0 : ℚ) ≤ 2 ^ 20 := by norm_num
  obtain ⟨st, hst⟩ := exists_serialize (htwo.trans hfirst)
  obtain ⟨st', hst'⟩ := exists_serialize (htwo.trans hlast)
  rw [PcapEnrich.readRange, hst, hst', parseSystemtime_serialize hst hfirst hfirst',
    parseSystemtime_serialize hst' hlast hlast']
  rfl

/-- A dated connection of the packet is considered at no distance if floats put the packet into its
times. -/
theorem Dated.considered_and_distance_iff (h : Dated conn)
    (hslack : ∀ seconds ∈ slack, 0 ≤ seconds) :
    Considered pkt slack conn ∧ distance pkt conn = 0 ↔
      pkt.Belongs conn ∧ ReadCovers conn pkt.time := by
  have hfloat := Binary64.representable_round
  rw [Considered, distance, h.readRange, Option.any_some, Option.elim_some,
    score_eq_zero_iff (hfloat _) (hfloat _) (hfloat _), decide_eq_true_eq, and_assoc]
  refine and_congr_right fun _ => and_iff_right_of_imp fun hread seconds hseconds => ?_
  -- the slack moves neither end inwards
  have hpos := hslack seconds hseconds
  constructor
  · refine (Binary64.round_mono (sub_le_self _ hpos)).trans ?_
    rw [Binary64.round_round]
    exact hread.1
  · refine le_trans ?_ (Binary64.round_mono (le_add_of_nonneg_right hpos))
    rw [Binary64.round_round]
    exact hread.2

/-- Among dated connections one of which covers the time of the packet, the first of the nearest
covers it exactly if no near miss comes first. -/
theorem nearestCovers_iff_of_dated (hdated : ∀ conn ∈ conns, pkt.Belongs conn → Dated conn)
    (hslack : ∀ seconds ∈ slack, 0 ≤ seconds)
    (hcovered : ∃ conn ∈ conns, pkt.Belongs conn ∧ conn.Covers pkt.time) :
    NearestCovers conns pkt slack ↔ NoNearMissFirst conns pkt := by
  have hat (conn : Connection) (hconn : conn ∈ conns) :
      Considered pkt slack conn ∧ distance pkt conn = 0 ↔
        pkt.Belongs conn ∧ ReadCovers conn pkt.time := by
    by_cases hbelongs : pkt.Belongs conn
    · exact (hdated conn hconn hbelongs).considered_and_distance_iff hslack
    · exact iff_of_false (fun h => hbelongs h.1.1) fun h => hbelongs h.1
  -- the distance of the connection that covers the time is zero, and so is the least
  have hfind : (conns.filter (Considered pkt slack)).argmin (distance pkt) =
      conns.find? fun conn => decide (Considered pkt slack conn ∧ distance pkt conn = 0) := by
    obtain ⟨conn, hconn, hbelongs, hcovers⟩ := hcovered
    obtain ⟨hconsidered, hzero⟩ := (hat conn hconn).mpr ⟨hbelongs, readCovers_of_covers hcovers⟩
    rw [Search.argmin_eq_find? (fun conn _ => distance_nonneg pkt conn)
      ⟨conn, List.mem_filter.mpr ⟨hconn, decide_eq_true hconsidered⟩, hzero⟩, List.find?_filter]
    simp
  rw [NearestCovers, hfind]
  constructor
  · rintro ⟨nearest, hnearest, hcovers⟩ earlier conn later rfl hmiss
    have hconn := (hat conn (by simp)).mpr ⟨hmiss.1, hmiss.2.1⟩
    rw [List.find?_append] at hnearest
    cases hearlier : earlier.find? fun conn =>
        decide (Considered pkt slack conn ∧ distance pkt conn = 0) with
    | none =>
      rw [hearlier, Option.none_or, List.find?_cons_of_pos (by simpa using hconn)] at hnearest
      obtain rfl := Option.some.inj hnearest
      exact absurd hcovers hmiss.2.2
    | some first =>
      rw [hearlier, Option.some_or] at hnearest
      obtain rfl := Option.some.inj hnearest
      have hfirst : Considered pkt slack first ∧ distance pkt first = 0 := by
        simpa using List.find?_some hearlier
      exact ⟨first, List.mem_of_find?_eq_some hearlier, hfirst.1.1, hcovers⟩
  · intro hnone
    obtain ⟨conn, hconn, hbelongs, hcovers⟩ := hcovered
    have hzero := (hat conn hconn).mpr ⟨hbelongs, readCovers_of_covers hcovers⟩
    have hsome : (conns.find? fun conn =>
        decide (Considered pkt slack conn ∧ distance pkt conn = 0)).isSome :=
      List.find?_isSome.mpr ⟨conn, hconn, by simpa using hzero⟩
    obtain ⟨first, hfirst⟩ := Option.isSome_iff_exists.mp hsome
    refine ⟨first, hfirst, ?_⟩
    obtain ⟨hfirst, earlier, later, heq, hearlier⟩ := List.find?_eq_some_iff_append.mp hfirst
    have hread := (hat first (by simp [heq])).mp (of_decide_eq_true hfirst)
    -- the first at no distance is no near miss, since nothing in front of it covers the time
    by_contra hcovers'
    obtain ⟨conn', hconn', hbelongs', hcovers''⟩ :=
      hnone earlier first later heq ⟨hread.1, hread.2, hcovers'⟩
    have hzero' := (hat conn' (by simp [heq, hconn'])).mpr
      ⟨hbelongs', readCovers_of_covers hcovers''⟩
    simpa [hzero'] using hearlier conn' hconn'

/-- For dated connections, one of which covers the packet: it is attributed to a record of its own
ends and time exactly if it has ports and no near miss comes first. -/
theorem attributes_iff_of_dated (hdated : ∀ conn ∈ conns, pkt.Belongs conn → Dated conn)
    (hslack : ∀ seconds ∈ slack, 0 ≤ seconds)
    (hcovered : ∃ conn ∈ conns, pkt.Belongs conn ∧ conn.Covers pkt.time) :
    Attributes conns pkt slack ↔ pkt.HasPortsOverIpv4 ∧ NoNearMissFirst conns pkt :=
  attributes_iff_nearestCovers.trans
    (and_congr_right fun _ => nearestCovers_iff_of_dated hdated hslack hcovered)

end Dated

/-- A packet of a recorded connection (`hconn`, `hbelongs`), captured within its time (`hcovers`),
is attributed to a record of its own ends and time exactly if it is a TCP or UDP packet over IPv4,
and the first of the connections that are read nearest to it covers its time. The record is one of
those written for `conns`, in which a pair of ends may occur any number of times, and the slack is a
number of seconds, not negative (`hslack`), or `inf`.

The second part says what the nearness comes to for dated connections, those whose times lie between
the 13th of January 1970 and the second `2 ^ 53`: no near miss comes before every connection that
covers the time of the packet. -/
theorem attributes_iff_hasPorts {conn : Connection} (hconn : conn ∈ conns)
    (hbelongs : pkt.Belongs conn) (hcovers : conn.Covers pkt.time)
    (hslack : ∀ seconds ∈ slack, 0 ≤ seconds) :
    (Attributes conns pkt slack ↔ pkt.HasPortsOverIpv4 ∧ NearestCovers conns pkt slack) ∧
      ((∀ conn ∈ conns, pkt.Belongs conn → Dated conn) →
        (Attributes conns pkt slack ↔ pkt.HasPortsOverIpv4 ∧ NoNearMissFirst conns pkt)) :=
  ⟨attributes_iff_nearestCovers,
    fun hdated => attributes_iff_of_dated hdated hslack ⟨conn, hconn, hbelongs, hcovers⟩⟩

end Attribution

/-! ## Three packets -/

/-- A connection of `10.0.0.1` and `10.0.0.2`, seen for some nanoseconds in November 2023. -/
def sampleConnection (protocol : Protocol) (localPort remotePort : UInt16)
    (state : ProtocolState) (first last : ℤ) : Connection :=
  { Connection.new protocol (.lan 1 localPort) (.lan 2 remotePort) state
      ⟨1700000000000000000 + first⟩ ⟨0⟩ with
    lastActivity := ⟨1700000000000000000 + last⟩ }

/-- A packet from `10.0.0.1` to `10.0.0.2` a microsecond into that time. -/
def samplePacket (transport : TransportLayer) : CapturedPacket :=
  ⟨.ip (.new 10 0 0 1) (.new 10 0 0 2), transport, 1700000000 + 1 / 1000000⟩

section Samples

variable {protocol : Protocol} {localPort remotePort : UInt16} {state : ProtocolState}
  {first last : ℤ}

/-- The time of the packet lies in the times of the connection. -/
theorem covers_sample_iff {transport : TransportLayer} :
    (sampleConnection protocol localPort remotePort state first last).Covers
      (samplePacket transport).time ↔ first ≤ 1000 ∧ 1000 ≤ last := by
  have hfirst : ((1700000000000000000 + first : ℤ) : ℚ) / 1000000000 ≤
      1700000000 + 1 / 1000000 ↔ (first : ℚ) ≤ 1000 := by
    rw [div_le_iff₀ (by norm_num)]
    push_cast
    constructor <;> intro h <;> linarith
  have hlast : 1700000000 + 1 / 1000000 ≤
      ((1700000000000000000 + last : ℤ) : ℚ) / 1000000000 ↔ (1000 : ℚ) ≤ last := by
    rw [le_div_iff₀ (by norm_num)]
    push_cast
    constructor <;> intro h <;> linarith
  exact and_congr (hfirst.trans (by norm_cast)) (hlast.trans (by norm_cast))

theorem dated_sample (hfirst : 0 ≤ first) (hfirst' : first ≤ 1000000000) (hlast : 0 ≤ last)
    (hlast' : last ≤ 1000000000) :
    Dated (sampleConnection protocol localPort remotePort state first last) := by
  have hseconds {nanos : ℤ} (h : 0 ≤ nanos) (h' : nanos ≤ 1000000000) :
      2 ^ 20 ≤ (⟨1700000000000000000 + nanos⟩ : SystemTime).seconds ∧
        (⟨1700000000000000000 + nanos⟩ : SystemTime).seconds < 2 ^ 53 := by
    have hnonneg : (0 : ℚ) ≤ nanos := by exact_mod_cast h
    have hle : (nanos : ℚ) ≤ 1000000000 := by exact_mod_cast h'
    rw [SystemTime.seconds, le_div_iff₀ (by norm_num), div_lt_iff₀ (by norm_num)]
    push_cast
    constructor <;> linarith
  exact ⟨hseconds hfirst hfirst', hseconds hlast hlast'⟩

/-- The times from 0.9 to 1 microsecond are one float. -/
theorem round_sample {x : ℚ} (hx : 9 / 10000000 ≤ x) (hx' : x ≤ 1 / 1000000) :
    Binary64.round (1700000000 + x) = (1700000000 * 2 ^ 22 + 4) / 2 ^ 22 := by
  have hlog : Nat.log 2 1700000000 = 30 :=
    Nat.log_eq_of_pow_le_of_lt_pow (by norm_num) (by norm_num)
  have hexp := Binary64.exponent_natCast_add (n := 1700000000) (by norm_num) (x := x) (by linarith)
    (by linarith)
  -- near this time two neighbouring numbers are 2 to the -22 apart
  have hulp : Binary64.ulp (1700000000 + x) = 1 / 2 ^ 22 := by
    rw [hlog] at hexp
    norm_num at hexp
    rw [Binary64.ulp, hexp]
    norm_num
  have hnear : |1700000000 + x - ((1700000000 * 2 ^ 22 + 4 : ℤ) : ℚ) *
      Binary64.ulp (1700000000 + x)| < Binary64.ulp (1700000000 + x) / 2 := by
    rw [hulp, abs_lt]
    constructor <;> norm_num <;> linarith
  rw [Binary64.round_eq_of_near hnear, hulp]
  norm_num

end Samples

/-- A connection that ended 100 ns before the packet ended in the same float. -/
theorem sampleReuse_nearMiss :
    NearMiss (samplePacket (.udp 40000 53)) (sampleConnection .udp 40000 53 .udp 0 900) := by
  have hlast : (sampleConnection .udp 40000 53 .udp 0 900).lastActivity.seconds =
      1700000000 + 900 / 1000000000 := by
    norm_num [sampleConnection, SystemTime.seconds]
  refine ⟨⟨rfl, Or.inl rfl⟩, ⟨?_, ?_⟩, fun h => absurd (covers_sample_iff.mp h) (by norm_num)⟩
  · apply Binary64.round_mono
    norm_num [sampleConnection, samplePacket, SystemTime.seconds, Connection.new]
  · rw [hlast, samplePacket, round_sample (by norm_num) (by norm_num),
      round_sample (by norm_num) (by norm_num)]

/-- The request of a recorded ping is not attributed. Nor is a DNS query attributed to the
connection that it belongs to, if its ports were in use until a tenth of a microsecond before. -/
theorem samples_not_attributed :
    (let conn := sampleConnection .icmp 0 0 (.icmp 8 (some 7)) 0 1000000000
      let pkt := samplePacket .icmp
      (logPcapConnection conn).isSome ∧ pkt.Belongs conn ∧ conn.Covers pkt.time ∧
        ¬ Attributes [conn] pkt (some 0)) ∧
      let earlier := sampleConnection .udp 40000 53 .udp 0 900
      let conn := sampleConnection .udp 40000 53 .udp 950 1000000000
      let pkt := samplePacket (.udp 40000 53)
      (logPcapConnection conn).isSome ∧ pkt.Belongs conn ∧ conn.Covers pkt.time ∧
        ¬ Attributes [earlier, conn] pkt (some 0) := by
  refine ⟨⟨by decide, ⟨rfl, Or.inl rfl⟩, covers_sample_iff.mpr (by norm_num), ?_⟩,
    by decide, ⟨rfl, Or.inl rfl⟩, covers_sample_iff.mpr (by norm_num), ?_⟩
  · rintro ⟨-, -, -, -, c, -, hattribution⟩
    rw [attribution_eq_none id] at hattribution
    cases hattribution
  -- the earlier connection is a near miss, and stands first
  · rw [attributes_iff_of_dated]
    · rintro ⟨-, hnone⟩
      obtain ⟨conn, hconn, -⟩ := hnone [] _ _ rfl sampleReuse_nearMiss
      exact List.not_mem_nil hconn
    · intro conn hconn _
      rcases List.mem_pair.mp hconn with rfl | rfl <;> apply dated_sample <;> norm_num
    · simp
    · exact ⟨sampleConnection .udp 40000 53 .udp 950 1000000000, by simp, ⟨rfl, Or.inl rfl⟩,
        covers_sample_iff.mpr (by norm_num)⟩

/-- A recorded DNS query is attributed. -/
theorem sampleQuery_attributed :
    let conn := sampleConnection .udp 40000 53 .udp 0 1000000000
    let pkt := samplePacket (.udp 40000 53)
    Attributes [conn] pkt (some 0) := by
  intro conn pkt
  have hcovers : conn.Covers pkt.time := covers_sample_iff.mpr (by norm_num)
  refine ((attributes_iff_hasPorts List.mem_cons_self ⟨rfl, Or.inl rfl⟩ hcovers
    (by simp)).2 ?_).mpr ⟨trivial, ?_⟩
  · intro conn' hconn' _
    obtain rfl := List.mem_singleton.mp hconn'
    apply dated_sample <;> norm_num
  · -- the only connection is no near miss
    intro earlier conn' later heq hmiss
    have hconn' : conn' ∈ [conn] := by rw [heq]; simp
    obtain rfl := List.mem_singleton.mp hconn'
    exact absurd hcovers hmiss.2.2

end PcapEnrich

end RustNet
