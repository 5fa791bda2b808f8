import Mathlib.Data.List.Sort
import RustNet.Foundations.Run
import RustNet.Foundations.Table
import RustNet.Network.Merge.Packet
import RustNet.Network.Parser.Transport

/-!
# The connection tracker

`ConnectionTracker` and its operations `ingest_at`, `cleanup` and `clear`. Each operation is cut at
its table operations (the RTT lock, the QUIC map lock, the capacity check, the entry operation; the
sweep, the archive, the QUIC retain), so that the sequential operations here and the interleaved
ones of `Tracker.Threads` are built from the same pieces.

The order in which a hash table is iterated is an argument, and so is what the clocks show. A lock
is taken to succeed: it fails only after a panic inside it.

## Main definitions

* `ConnectionTracker.ingestAt`, `ConnectionTracker.cleanup`, `ConnectionTracker.clear`;
* `ConnectionTracker.Call` and `ConnectionTracker.step`: one call of a client, and its effect.

## Main results

* `ingestAt_dropped_iff`: a packet is dropped exactly when its key is new and the table is full;
* `ingestAt_connections`, `ingestAt_quicMap`, `mem_cleanup_connections`, `cleanup_quicMap`: what
  each operation does to the tables.
-/

namespace RustNet

/-- `TrackerConfig`: the sizes that the tables may grow to, and whether closed connections are
kept. -/
structure TrackerConfig where
  maxConnections : ℕ
  maxHistoric : ℕ
  maxQuicMappings : ℕ
  keepHistoric : Bool

/-- `TrackerConfig::default`: fifty thousand connections, five thousand closed ones, which are kept,
and ten thousand identifiers of QUIC. -/
def TrackerConfig.default : TrackerConfig where
  maxConnections := 50000
  maxHistoric := 5000
  maxQuicMappings := 10000
  keepHistoric := true

/-- `IngestOutcome`: what the caller learns of a packet: the key it went to, what became of it
there, the events it caused and the round trip it measured. -/
structure IngestOutcome where
  key : String
  created : Bool
  dropped : Bool
  retransmits : UInt64
  outOfOrder : UInt64
  fastRetransmits : UInt64
  /-- In nanoseconds. -/
  measuredRtt : Option ℕ

/-- `ConnectionTracker`: the connections that are active, those that are closed, the handshakes
under way, the keys of QUIC's identifiers, and the limits. -/
@[ext]
structure ConnectionTracker where
  connections : AList fun _ : String => Connection
  historic : AList fun _ : String => Connection
  rtt : RttTracker
  quicMap : AList fun _ : String => String
  config : TrackerConfig

/-- The RTT part of `ingest_at`: SYNs are recorded, SYN-ACKs matched. -/
def RttTracker.observe (rtt : RttTracker) (parsed : ParsedPacket) (instant : Instant) :
    RttTracker × Option ℕ :=
  match parsed.tcpHeader with
  | some header =>
    let connKey : ConnectionKey := ⟨parsed.localAddr, parsed.remoteAddr⟩
    if header.flags.syn && !header.flags.ack then (rtt.recordSyn connKey instant, none)
    else if header.flags.syn && header.flags.ack then rtt.recordSynAck connKey instant
    else (rtt, none)
  | none => (rtt, none)

namespace ConnectionTracker

/-- `ConnectionTracker::with_config`: all tables are empty, and the limits are the given ones. -/
def withConfig (config : TrackerConfig) : ConnectionTracker where
  connections := ∅
  historic := ∅
  rtt := RttTracker.new
  quicMap := ∅
  config := config

/-! ## Ingest -/

/-- The QUIC part of `ingest_at`: the connection-ID map afterwards, and the key of the packet. A
connection ID seen for the first time is mapped to the packet's own key, after emptying a map that
is full. -/
def resolveKey (t : ConnectionTracker) (parsed : ParsedPacket) :
    (AList fun _ : String => String) × String :=
  match parsed.quicConnectionId with
  | none => (t.quicMap, parsed.connectionKey)
  | some connIdHex =>
    match t.quicMap.lookup connIdHex with
    | some existingKey => (t.quicMap, existingKey)
    | none =>
      -- the source clears the whole map, not its oldest entries
      let mapping := if t.config.maxQuicMappings ≤ t.quicMap.size then ∅ else t.quicMap
      (mapping.insert connIdHex parsed.connectionKey, parsed.connectionKey)

/-- The capacity check of `ingest_at`: the key is new and the table is full. -/
def AtCapacity (t : ConnectionTracker) (key : String) : Prop :=
  key ∉ t.connections ∧ t.config.maxConnections ≤ t.connections.size

instance (t : ConnectionTracker) (key : String) : Decidable (t.AtCapacity key) := by
  unfold AtCapacity
  infer_instance

/-- The `or_insert_with` closure of `ingest_at`. -/
def freshEntry (parsed : ParsedPacket) (now : SystemTime) (clock : ClockReading)
    (measuredRtt : Option ℕ) : Connection :=
  let conn := createConnectionFromPacket parsed now clock
  { conn with initialRtt := measuredRtt.or conn.initialRtt }

section Ingest

variable [DeepPacketInspection]

/-- The `and_modify` closure of `ingest_at`. -/
def mergeEntry (parsed : ParsedPacket) (now : SystemTime) (clock : ClockReading)
    (measuredRtt : Option ℕ) (conn : Connection) : Connection :=
  let conn := (mergePacketIntoConnection conn parsed now clock).1
  { conn with initialRtt := conn.initialRtt.or measuredRtt }

/-- The entry operation of `ingest_at`. -/
def enter (t : ConnectionTracker) (key : String) (parsed : ParsedPacket) (now : SystemTime)
    (clock : ClockReading) (measuredRtt : Option ℕ) : ConnectionTracker :=
  let merge := mergeEntry parsed now clock measuredRtt
  let fresh := freshEntry parsed now clock measuredRtt
  { t with connections := t.connections.upsert key merge fresh }

/-- The TCP events the entry operation reports: those of the merge, none for a new connection. -/
def entryEvents (t : ConnectionTracker) (key : String) (parsed : ParsedPacket)
    (now : SystemTime) (clock : ClockReading) : TcpEvents :=
  match t.connections.lookup key with
  | some conn => (mergePacketIntoConnection conn parsed now clock).2
  | none => (0, 0, 0)

/-- `ingest_at`: the round trip and the key are settled first, each under its own lock. At capacity
the packet is dropped; otherwise it is merged into its entry or starts one. -/
def ingestAt (t : ConnectionTracker) (parsed : ParsedPacket) (now : SystemTime)
    (clock : ClockReading) : ConnectionTracker × IngestOutcome :=
  let (rtt, measuredRtt) := t.rtt.observe parsed clock.instant
  let (quicMap, key) := t.resolveKey parsed
  -- the two locks leave the active table alone
  let locked := { t with rtt := rtt, quicMap := quicMap }
  if t.AtCapacity key then
    (locked,
      { key := key
        created := false
        dropped := true
        retransmits := 0
        outOfOrder := 0
        fastRetransmits := 0
        measuredRtt := measuredRtt })
  else
    let (retransmits, outOfOrder, fastRetransmits) := t.entryEvents key parsed now clock
    (locked.enter key parsed now clock measuredRtt,
      { key := key
        created := decide (key ∉ t.connections)
        dropped := false
        retransmits := retransmits
        outOfOrder := outOfOrder
        fastRetransmits := fastRetransmits
        measuredRtt := measuredRtt })

end Ingest

/-! ## Cleanup -/

/-- Whether the sweep at `now` removes an entry. -/
def expired (now : SystemTime) (clock : ClockReading) (key : String) (conn : Connection) : Bool :=
  conn.shouldCleanup now (clock.wall key)

/-- The `retain` of `cleanup` on the active table. -/
def sweep (t : ConnectionTracker) (now : SystemTime) (clock : ClockReading) : ConnectionTracker :=
  { t with connections := t.connections.retain fun key conn => !expired now clock key conn }

/-- The entries the sweep removes, in the order it visits them. -/
def swept (t : ConnectionTracker) (now : SystemTime) (order : IterOrder String)
    (clock : ClockReading) : List (String × Connection) :=
  (t.connections.entriesIn order).filter fun e => expired now clock e.1 e.2

/-- The key of a removed connection in the historic table. -/
def historicKey (key : String) (conn : Connection) : String :=
  key ++ ":" ++ toString ((conn.createdAt.durationSince SystemTime.unixEpoch).getD 0)

/-- The historic copy of a removed connection. -/
def historicCopy (now : SystemTime) (conn : Connection) : Connection :=
  { conn with isHistoric := true, closedAt := some now }

/-- Insert the historic copies of the removed entries. -/
def archiveAll (historic : AList fun _ : String => Connection) (now : SystemTime)
    (removed : List (String × Connection)) : AList fun _ : String => Connection :=
  removed.foldl (fun historic e => historic.insert (historicKey e.1 e.2) (historicCopy now e.2))
    historic

/-- The keys of the `count` historic entries closed first; the sort is stable. -/
def oldestClosed (historic : AList fun _ : String => Connection) (order : IterOrder String)
    (count : ℕ) : List String :=
  let entries := (historic.entriesIn order).map fun e => (e.1, e.2.closedAt.getD e.2.createdAt)
  ((entries.insertionSort fun a b => a.2.nanos ≤ b.2.nanos).take count).map Prod.fst

/-- The archive step of `cleanup`: insert, then evict the oldest-closed over the limit. -/
def archive (t : ConnectionTracker) (now : SystemTime) (order : IterOrder String)
    (removed : List (String × Connection)) : ConnectionTracker :=
  if t.config.keepHistoric then
    let historic := archiveAll t.historic now removed
    { t with historic :=
        if t.config.maxHistoric < historic.size then
          historic.eraseAll (oldestClosed historic order (historic.size - t.config.maxHistoric))
        else historic }
  else t

/-- The QUIC step of `cleanup`: drop the mappings to removed keys. -/
def forgetMappings (t : ConnectionTracker) (removedKeys : List String) : ConnectionTracker :=
  { t with quicMap := t.quicMap.retain fun _ connKey => !decide (connKey ∈ removedKeys) }

/-- `cleanup`: the expired connections are swept out, kept as closed ones if that is configured, and
their identifiers forgotten; the caller is handed what was removed. -/
def cleanup (t : ConnectionTracker) (now : SystemTime) (order : IterOrder String)
    (clock : ClockReading) : ConnectionTracker × List Connection :=
  -- the sweep hands out what it removes
  let removed := t.swept now order clock
  let t := (t.sweep now clock).archive now order removed
  let removedKeys := removed.map Prod.fst
  (if removedKeys.isEmpty then t else t.forgetMappings removedKeys, removed.map Prod.snd)

/-! ## Clear -/

/-- `clear`: all tables are emptied, and the limits stay. -/
def clear (t : ConnectionTracker) : ConnectionTracker :=
  { t with connections := ∅, historic := ∅, rtt := t.rtt.clear, quicMap := ∅ }

/-! ## What an operation does to the tables -/

section Spec

variable (t : ConnectionTracker) (parsed : ParsedPacket) (now : SystemTime) (clock : ClockReading)

/-- A packet without a QUIC connection ID keeps its own key. -/
theorem resolveKey_of_no_connectionId (h : parsed.quicConnectionId = none) :
    t.resolveKey parsed = (t.quicMap, parsed.connectionKey) := by
  simp only [resolveKey, h]

/-- A mapped connection ID redirects the packet and leaves the map alone. -/
theorem resolveKey_of_mapped {connId key : String} (h : parsed.quicConnectionId = some connId)
    (hmap : t.quicMap.lookup connId = some key) :
    t.resolveKey parsed = (t.quicMap, key) := by
  simp only [resolveKey, h, hmap]

/-- A connection ID seen for the first time is mapped to the packet's own key. -/
theorem resolveKey_of_unmapped {connId : String} (h : parsed.quicConnectionId = some connId)
    (hmap : connId ∉ t.quicMap) :
    t.resolveKey parsed =
      ((if t.config.maxQuicMappings ≤ t.quicMap.size then ∅ else t.quicMap).insert connId
        parsed.connectionKey, parsed.connectionKey) := by
  simp only [resolveKey, h, AList.lookup_eq_none.mpr hmap]

/-- The three ways a key is resolved: no connection ID, a mapped one, a new one. -/
theorem resolveKey_cases :
    (parsed.quicConnectionId = none ∧ t.resolveKey parsed = (t.quicMap, parsed.connectionKey)) ∨
      (∃ connId key, parsed.quicConnectionId = some connId ∧ t.quicMap.lookup connId = some key ∧
        t.resolveKey parsed = (t.quicMap, key)) ∨
      ∃ connId, parsed.quicConnectionId = some connId ∧ connId ∉ t.quicMap ∧
        t.resolveKey parsed =
          ((if t.config.maxQuicMappings ≤ t.quicMap.size then ∅ else t.quicMap).insert connId
            parsed.connectionKey, parsed.connectionKey) := by
  cases hid : parsed.quicConnectionId with
  -- not QUIC, or without a connection ID
  | none => exact Or.inl ⟨rfl, resolveKey_of_no_connectionId t parsed hid⟩
  | some connId =>
    cases hmap : t.quicMap.lookup connId with
    | some key =>
      exact Or.inr (Or.inl ⟨connId, key, rfl, hmap, resolveKey_of_mapped t parsed hid hmap⟩)
    | none =>
      have hnot : connId ∉ t.quicMap := AList.notMem_of_lookup hmap
      exact Or.inr (Or.inr ⟨connId, rfl, hnot, resolveKey_of_unmapped t parsed hid hnot⟩)

section Ingest

variable [DeepPacketInspection]

@[simp]
theorem ingestAt_key : (t.ingestAt parsed now clock).2.key = (t.resolveKey parsed).2 := by
  unfold ingestAt
  dsimp only
  split <;> rfl

/-- A packet is dropped exactly when its key is new and the active table is full. -/
theorem ingestAt_dropped_iff :
    (t.ingestAt parsed now clock).2.dropped = true ↔ t.AtCapacity (t.resolveKey parsed).2 := by
  unfold ingestAt
  dsimp only
  split
  next h => exact ⟨fun _ => h, fun _ => rfl⟩
  next h => exact ⟨fun hfalse => by simp at hfalse, fun hfull => absurd hfull h⟩

/-- The tracker after the two locks of an ingest. -/
def locked (t : ConnectionTracker) (parsed : ParsedPacket) (clock : ClockReading) :
    ConnectionTracker :=
  { t with rtt := (t.rtt.observe parsed clock.instant).1, quicMap := (t.resolveKey parsed).1 }

/-- A dropped packet goes no further than the locks; any other is entered after them. -/
theorem ingestAt_fst :
    (t.ingestAt parsed now clock).1 =
      if t.AtCapacity (t.resolveKey parsed).2 then t.locked parsed clock
      else (t.locked parsed clock).enter (t.resolveKey parsed).2 parsed now clock
        (t.rtt.observe parsed clock.instant).2 := by
  unfold ingestAt
  dsimp only
  split <;> rfl

@[simp]
theorem ingestAt_quicMap : (t.ingestAt parsed now clock).1.quicMap = (t.resolveKey parsed).1 := by
  rw [ingestAt_fst]
  split <;> rfl

@[simp]
theorem ingestAt_historic : (t.ingestAt parsed now clock).1.historic = t.historic := by
  rw [ingestAt_fst]
  split <;> rfl

@[simp]
theorem ingestAt_config : (t.ingestAt parsed now clock).1.config = t.config := by
  rw [ingestAt_fst]
  split <;> rfl

/-- The active table after an ingest: unchanged for a dropped packet, and otherwise with the
packet's entry modified or inserted. -/
theorem ingestAt_connections :
    (t.ingestAt parsed now clock).1.connections =
      if t.AtCapacity (t.resolveKey parsed).2 then t.connections
      else t.connections.upsert (t.resolveKey parsed).2
        (mergeEntry parsed now clock (t.rtt.observe parsed clock.instant).2)
        (freshEntry parsed now clock (t.rtt.observe parsed clock.instant).2) := by
  rw [ingestAt_fst]
  split <;> rfl

/-- A connection is created for a packet whose key is new, unless the packet is dropped. -/
theorem ingestAt_created_iff :
    (t.ingestAt parsed now clock).2.created = true ↔
      (t.resolveKey parsed).2 ∉ t.connections ∧ ¬ t.AtCapacity (t.resolveKey parsed).2 := by
  unfold ingestAt
  dsimp only
  split
  next h => simp [h]
  next h => simp [h]

/-- A created connection adds its key to the active table. -/
theorem keys_ingestAt_of_created (h : (t.ingestAt parsed now clock).2.created = true) :
    (t.ingestAt parsed now clock).1.connections.keys =
      (t.resolveKey parsed).2 :: t.connections.keys := by
  obtain ⟨hnew, hroom⟩ := (ingestAt_created_iff t parsed now clock).mp h
  rw [ingestAt_connections, if_neg hroom, AList.upsert_of_notMem hnew, AList.keys_insert,
    List.erase_of_not_mem fun hmem => hnew (AList.mem_keys.mpr hmem)]

/-- Any other packet leaves the keys as they are. -/
theorem keys_ingestAt_of_not_created (h : (t.ingestAt parsed now clock).2.created = false) :
    (t.ingestAt parsed now clock).1.connections.keys.Perm t.connections.keys := by
  rw [ingestAt_connections]
  split
  next => exact .refl _
  next hroom =>
    have hmem : (t.resolveKey parsed).2 ∈ t.connections := by
      by_contra hnew
      have hcreated := (ingestAt_created_iff t parsed now clock).mpr ⟨hnew, hroom⟩
      rw [h] at hcreated
      cases hcreated
    rw [AList.upsert, AList.keys_insert]
    exact (List.perm_cons_erase (AList.mem_keys.mp hmem)).symm

end Ingest

variable (order : IterOrder String)

@[simp]
theorem archive_connections (removed : List (String × Connection)) :
    (t.archive now order removed).connections = t.connections := by
  unfold archive
  split <;> rfl

@[simp]
theorem archive_quicMap (removed : List (String × Connection)) :
    (t.archive now order removed).quicMap = t.quicMap := by
  unfold archive
  split <;> rfl

@[simp]
theorem archive_config (removed : List (String × Connection)) :
    (t.archive now order removed).config = t.config := by
  unfold archive
  split <;> rfl

/-- Forgetting no key changes nothing. -/
theorem forgetMappings_nil : t.forgetMappings [] = t := by
  have hretain : t.quicMap.retain (fun _ connKey => !decide (connKey ∈ ([] : List String))) =
      t.quicMap :=
    AList.retain_eq_self fun _ _ _ => by simp
  rw [forgetMappings, hretain]

/-- A cleanup sweeps, archives and forgets. Skipping the last step when nothing was removed makes no
difference. -/
theorem cleanup_fst :
    (t.cleanup now order clock).1 =
      ((t.sweep now clock).archive now order (t.swept now order clock)).forgetMappings
        ((t.swept now order clock).map Prod.fst) := by
  unfold cleanup
  dsimp only
  split
  next hempty => rw [List.isEmpty_iff.mp hempty, forgetMappings_nil]
  next => rfl

/-- A cleanup returns what its sweep removed. -/
theorem cleanup_snd :
    (t.cleanup now order clock).2 = (t.swept now order clock).map Prod.snd := rfl

theorem cleanup_connections :
    (t.cleanup now order clock).1.connections =
      t.connections.retain fun key conn => !expired now clock key conn := by
  rw [cleanup_fst]
  exact archive_connections ..

@[simp]
theorem cleanup_config : (t.cleanup now order clock).1.config = t.config := by
  rw [cleanup_fst]
  exact archive_config ..

theorem cleanup_historic :
    (t.cleanup now order clock).1.historic =
      ((t.sweep now clock).archive now order (t.swept now order clock)).historic := by
  rw [cleanup_fst, forgetMappings]

/-- Cleanup drops exactly the mappings to keys it removed. -/
theorem cleanup_quicMap :
    (t.cleanup now order clock).1.quicMap =
      t.quicMap.retain fun _ connKey =>
        !decide (connKey ∈ (t.swept now order clock).map Prod.fst) := by
  rw [cleanup_fst, forgetMappings, archive_quicMap]
  rfl

/-- A key is removed by the sweep exactly when its entry has expired. -/
theorem mem_swept_keys {key : String} :
    key ∈ (t.swept now order clock).map Prod.fst ↔
      ∃ conn, t.connections.lookup key = some conn ∧ expired now clock key conn = true := by
  simp only [swept, List.mem_map, List.mem_filter, Prod.exists, exists_and_right, exists_eq_right,
    AList.mem_entriesIn]

/-- A sweep takes off the active table what it hands out, by any weight. -/
theorem total_sweep (f : Connection → ℕ) :
    (t.sweep now clock).connections.total f +
        ((t.swept now order clock).map fun e => f e.2).sum = t.connections.total f := by
  have h := AList.total_retain_add_sum_removed (fun key conn => !expired now clock key conn) f order
    t.connections
  simp only [Bool.not_not] at h
  exact h

/-- The keys left by cleanup are those of the entries that have not expired. -/
theorem mem_cleanup_connections {key : String} :
    key ∈ (t.cleanup now order clock).1.connections ↔
      ∃ conn, t.connections.lookup key = some conn ∧ expired now clock key conn = false := by
  rw [cleanup_connections, AList.mem_retain]
  simp only [Bool.not_eq_true']

end Spec

/-! ## Calls -/

/-- One call on a tracker, with the caller's time. -/
inductive Call
  | ingestAt (parsed : ParsedPacket) (now : SystemTime)
  | cleanup (now : SystemTime) (order : IterOrder String)
  | clear

variable [DeepPacketInspection]

/-- The tracker after one call, the clocks reading as given. -/
def step (t : ConnectionTracker) : Call × ClockReading → ConnectionTracker
  | (.ingestAt parsed now, clock) => (t.ingestAt parsed now clock).1
  | (.cleanup now order, clock) => (t.cleanup now order clock).1
  | (.clear, _) => t.clear

/-- The tracker after a sequence of calls. -/
def run (t : ConnectionTracker) (calls : List (Call × ClockReading)) : ConnectionTracker :=
  calls.foldl step t

end ConnectionTracker

end RustNet
