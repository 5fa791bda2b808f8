import RustNet.Foundations.Eviction
import RustNet.Network.Tracker.Basic

/-!
# The limits of the tracker's tables

Called one operation after another, the tracker keeps each table within its limit, with three
different policies: a new connection is dropped, the oldest-closed historic connections are
evicted, and a full QUIC map is emptied before the next insertion, so that it holds one entry even
under a limit of zero.

A dropped packet leaves the active and the historic table alone, but not always the QUIC map: the
connection ID is mapped before the capacity check. `OrphansMapping` names that case.

## Main results

* `run_withinLimits`: the limits hold in every state reached from an empty tracker;
* `ingestAt_drop_atomic_iff`: a drop leaves the three tables as they were exactly when the packet
  does not map a connection ID on its way.
-/

namespace RustNet

namespace ConnectionTracker

/-! ## Each table within its limit -/

/-- The tables are within the limits of `config`, which is the tracker's own. -/
structure WithinLimits (config : TrackerConfig) (t : ConnectionTracker) : Prop where
  config_eq : t.config = config
  connections_size : t.connections.size ≤ config.maxConnections
  historic_size : t.historic.size ≤ config.maxHistoric
  quicMap_size : t.quicMap.size ≤ max 1 config.maxQuicMappings

variable {config : TrackerConfig} {t : ConnectionTracker}

theorem withinLimits_withConfig (config : TrackerConfig) :
    (withConfig config).WithinLimits config where
  config_eq := rfl
  connections_size := Nat.zero_le _
  historic_size := Nat.zero_le _
  quicMap_size := Nat.zero_le _

/-- Resolving a key keeps the QUIC map within its limit: it grows only below the limit, and is
emptied first at it. -/
theorem size_resolveKey_le (ht : t.WithinLimits config) (parsed : ParsedPacket) :
    (t.resolveKey parsed).1.size ≤ max 1 config.maxQuicMappings := by
  have hold := ht.quicMap_size
  rcases t.resolveKey_cases parsed with ⟨-, hkey⟩ | ⟨_, _, -, -, hkey⟩ | ⟨connId, -, -, hkey⟩
  -- without a new connection ID the map stays as it is
  · rw [hkey]
    exact hold
  · rw [hkey]
    exact hold
  · rw [hkey, ht.config_eq]
    dsimp only
    split
    -- a full map is emptied, and holds the new mapping alone
    next =>
      have := AList.size_insert_le connId parsed.connectionKey ∅
      rw [AList.size_empty] at this
      omega
    -- below the limit there is room for one more
    next hroom =>
      have := AList.size_insert_le connId parsed.connectionKey t.quicMap
      omega

/-- The entries chosen for eviction are those closed first. -/
theorem oldestClosed_eq_leastKeys (historic : AList fun _ : String => Connection)
    (order : IterOrder String) (count : ℕ) :
    oldestClosed historic order count =
      historic.leastKeys (fun conn => conn.closedAt.getD conn.createdAt)
        (fun a b => a.nanos ≤ b.nanos) order count := rfl

/-- The keys chosen for eviction are distinct keys of the historic table, as many as asked for. -/
theorem oldestClosed_spec (historic : AList fun _ : String => Connection)
    (order : IterOrder String) {count : ℕ} (hcount : count ≤ historic.size) :
    (oldestClosed historic order count).Nodup ∧
      (∀ key ∈ oldestClosed historic order count, key ∈ historic) ∧
      (oldestClosed historic order count).length = count := by
  rw [oldestClosed_eq_leastKeys]
  refine ⟨?_, ?_, ?_⟩
  · exact AList.nodup_leastKeys _ _ order count historic
  · exact fun key hkey => AList.mem_of_mem_leastKeys hkey
  · exact AList.length_leastKeys hcount

/-- Eviction brings the historic table down to its limit. -/
theorem size_archive_le (t : ConnectionTracker) (now : SystemTime) (order : IterOrder String)
    (removed : List (String × Connection)) (ht : t.historic.size ≤ t.config.maxHistoric) :
    (t.archive now order removed).historic.size ≤ t.config.maxHistoric := by
  unfold archive
  split
  next =>
    dsimp only
    split
    -- over the limit, the excess is evicted
    next hover =>
      obtain ⟨hnodup, hmem, hlen⟩ := oldestClosed_spec (archiveAll t.historic now removed) order
        (Nat.sub_le _ t.config.maxHistoric)
      have hsize := AList.size_eraseAll hnodup hmem
      omega
    next hroom => omega
  next => exact ht

section Calls

variable [DeepPacketInspection]

/-- An ingest keeps the limits: the entry operation inserts only below the limit. -/
theorem ingestAt_withinLimits (ht : t.WithinLimits config) (parsed : ParsedPacket)
    (now : SystemTime) (clock : ClockReading) :
    (t.ingestAt parsed now clock).1.WithinLimits config where
  config_eq := by rw [ingestAt_config, ht.config_eq]
  connections_size := by
    rw [ingestAt_connections]
    split
    next => exact ht.connections_size
    -- an admitted packet has an entry already, or finds room for a new one
    next hadmitted =>
      by_cases hmem : (t.resolveKey parsed).2 ∈ t.connections
      · rw [AList.upsert, AList.size_insert_of_mem hmem]
        exact ht.connections_size
      · have hroom : ¬ config.maxConnections ≤ t.connections.size := by
          rw [← ht.config_eq]
          exact fun h => hadmitted ⟨hmem, h⟩
        rw [AList.upsert, AList.size_insert_of_notMem hmem]
        omega
  historic_size := by
    rw [ingestAt_historic]
    exact ht.historic_size
  quicMap_size := by
    rw [ingestAt_quicMap]
    exact size_resolveKey_le ht parsed

omit [DeepPacketInspection] in
/-- A cleanup keeps the limits. -/
theorem cleanup_withinLimits (ht : t.WithinLimits config) (now : SystemTime)
    (order : IterOrder String) (clock : ClockReading) :
    (t.cleanup now order clock).1.WithinLimits config where
  config_eq := by rw [cleanup_config, ht.config_eq]
  connections_size := by
    rw [cleanup_connections]
    exact (AList.size_retain_le _ _).trans ht.connections_size
  historic_size := by
    have hlimit : (t.sweep now clock).historic.size ≤ (t.sweep now clock).config.maxHistoric := by
      change t.historic.size ≤ t.config.maxHistoric
      rw [ht.config_eq]
      exact ht.historic_size
    rw [cleanup_historic, ← ht.config_eq]
    exact size_archive_le _ now order _ hlimit
  quicMap_size := by
    rw [cleanup_quicMap]
    exact (AList.size_retain_le _ _).trans ht.quicMap_size

/-- Every call keeps the limits. -/
theorem step_withinLimits (ht : t.WithinLimits config) (call : Call × ClockReading) :
    (t.step call).WithinLimits config := by
  obtain ⟨call, clock⟩ := call
  cases call with
  | ingestAt parsed now => exact ingestAt_withinLimits ht parsed now clock
  | cleanup now order => exact cleanup_withinLimits ht now order clock
  | clear => exact ⟨ht.config_eq, Nat.zero_le _, Nat.zero_le _, Nat.zero_le _⟩

/-- In every state reached from an empty tracker by any sequence of calls, each table is within its
limit, and a packet is dropped exactly when the key it resolves to is new and the active table is
full. The limits are any, also zero; the QUIC map, which is emptied before it is inserted into,
holds one entry even then. -/
theorem run_withinLimits (config : TrackerConfig) (calls : List (Call × ClockReading)) :
    ((withConfig config).run calls).connections.size ≤ config.maxConnections ∧
      ((withConfig config).run calls).historic.size ≤ config.maxHistoric ∧
      ((withConfig config).run calls).quicMap.size ≤ max 1 config.maxQuicMappings ∧
      ∀ (parsed : ParsedPacket) (now : SystemTime) (clock : ClockReading),
        (((withConfig config).run calls).ingestAt parsed now clock).2.dropped = true ↔
          (((withConfig config).run calls).ingestAt parsed now clock).2.key ∉
              ((withConfig config).run calls).connections ∧
            config.maxConnections ≤ ((withConfig config).run calls).connections.size := by
  have hlimits : ((withConfig config).run calls).WithinLimits config :=
    Run.foldl_of_step (I := WithinLimits config) (fun _ call ht => step_withinLimits ht call)
      (withinLimits_withConfig config)
  refine ⟨hlimits.connections_size, hlimits.historic_size, hlimits.quicMap_size, ?_⟩
  intro parsed now clock
  rw [ingestAt_dropped_iff, ingestAt_key, AtCapacity, hlimits.config_eq]

end Calls

/-! ## Drops and the QUIC map -/

/-- Ingesting the packet maps a connection ID to a key and then drops the packet: the ID is not
mapped yet, the packet's own key is new, and the active table is full. -/
def OrphansMapping (t : ConnectionTracker) (parsed : ParsedPacket) : Prop :=
  (∃ connId, parsed.quicConnectionId = some connId ∧ connId ∉ t.quicMap) ∧
    t.AtCapacity parsed.connectionKey

/-- The packet changes the QUIC map exactly when its connection ID is not mapped yet. -/
theorem resolveKey_quicMap_ne_iff (t : ConnectionTracker) (parsed : ParsedPacket) :
    (t.resolveKey parsed).1 ≠ t.quicMap ↔
      ∃ connId, parsed.quicConnectionId = some connId ∧ connId ∉ t.quicMap := by
  rcases t.resolveKey_cases parsed with
    ⟨hid, hkey⟩ | ⟨connId, key, hid, hmap, hkey⟩ | ⟨connId, hid, hnot, hkey⟩
  · simp [hkey, hid]
  · have hmem : connId ∈ t.quicMap := AList.mem_of_lookup hmap
    simp [hkey, hid, hmem]
  · constructor
    · exact fun _ => ⟨connId, hid, hnot⟩
    · -- the map afterwards contains the connection ID
      intro _ hsame
      rw [hkey] at hsame
      exact hnot (hsame ▸ (AList.mem_insert _).mpr (Or.inl rfl))

/-- A packet whose connection ID is not mapped yet keeps its own key. -/
theorem resolveKey_key_of_unmapped {t : ConnectionTracker} {parsed : ParsedPacket}
    (h : ∃ connId, parsed.quicConnectionId = some connId ∧ connId ∉ t.quicMap) :
    (t.resolveKey parsed).2 = parsed.connectionKey := by
  obtain ⟨connId, hid, hnot⟩ := h
  rw [resolveKey_of_unmapped t parsed hid hnot]

/-- Such a packet does find the active table full. -/
theorem atCapacity_of_orphansMapping {t : ConnectionTracker} {parsed : ParsedPacket}
    (h : t.OrphansMapping parsed) : t.AtCapacity (t.resolveKey parsed).2 := by
  rw [resolveKey_key_of_unmapped h.1]
  exact h.2

/-- A packet that finds the active table full leaves the QUIC map alone exactly if it does not map
a connection ID on its way. -/
theorem resolveKey_quicMap_eq_iff {t : ConnectionTracker} {parsed : ParsedPacket}
    (hfull : t.AtCapacity (t.resolveKey parsed).2) :
    (t.resolveKey parsed).1 = t.quicMap ↔ ¬ t.OrphansMapping parsed := by
  constructor
  · rintro hsame ⟨hnew, -⟩
    exact (resolveKey_quicMap_ne_iff t parsed).mpr hnew hsame
  · intro hnot
    by_contra hne
    have hnew := (resolveKey_quicMap_ne_iff t parsed).mp hne
    -- with a new connection ID, the key that found the table full is the packet's own
    exact hnot ⟨hnew, resolveKey_key_of_unmapped hnew ▸ hfull⟩

/-- When an ingest reports a drop, the active table, the historic table and the QUIC map are what
they were before, exactly if the packet does not map a connection ID on its way. The tracker is in
any state. The connection ID is mapped before the capacity is checked, and nothing takes the mapping
back. -/
theorem ingestAt_drop_atomic_iff [DeepPacketInspection] (t : ConnectionTracker)
    (parsed : ParsedPacket) (now : SystemTime) (clock : ClockReading) :
    ((t.ingestAt parsed now clock).2.dropped = true →
        (t.ingestAt parsed now clock).1.connections = t.connections ∧
          (t.ingestAt parsed now clock).1.historic = t.historic ∧
          (t.ingestAt parsed now clock).1.quicMap = t.quicMap) ↔
      ¬ t.OrphansMapping parsed := by
  rw [ingestAt_dropped_iff, ingestAt_historic, ingestAt_quicMap, ingestAt_connections]
  constructor
  · intro hatomic horphan
    have hfull := atCapacity_of_orphansMapping horphan
    exact (resolveKey_quicMap_eq_iff hfull).mp (hatomic hfull).2.2 horphan
  · intro hnot hfull
    exact ⟨if_pos hfull, rfl, (resolveKey_quicMap_eq_iff hfull).mpr hnot⟩

/-- A tracker with room for one connection, after the first packet of a UDP flow. -/
def fullTracker [DeepPacketInspection] : ConnectionTracker :=
  (withConfig { TrackerConfig.default with maxConnections := 1 }).run
    [(.ingestAt (.ofUdp (.lan 1 5000) (.lan 2 53) none true 60) ⟨0⟩, .constant 0)]

/-- The first packet of a QUIC flow. -/
def firstQuic : ParsedPacket := .ofQuic (.lan 1 6000) (.lan 2 443) "c0ffee" true 1200

/-- The full tracker drops the first packet of a QUIC flow and maps its connection ID. -/
theorem fullTracker_drop_not_atomic :
    letI : DeepPacketInspection := .silent
    ¬ ((fullTracker.ingestAt firstQuic ⟨0⟩ (.constant 0)).2.dropped = true →
        (fullTracker.ingestAt firstQuic ⟨0⟩ (.constant 0)).1.connections =
            fullTracker.connections ∧
          (fullTracker.ingestAt firstQuic ⟨0⟩ (.constant 0)).1.historic = fullTracker.historic ∧
          (fullTracker.ingestAt firstQuic ⟨0⟩ (.constant 0)).1.quicMap = fullTracker.quicMap) := by
  intro hatomic
  have hmap := (hatomic (by decide +kernel)).2.2
  exact absurd (congrArg AList.size hmap) (by decide +kernel)

end ConnectionTracker

end RustNet
