import RustNet.Network.Tracker.Capacity

/-!
# Keys of the active table

An active entry is filed under the key of its own flow, and the QUIC map points into the active
table. One kind of call breaks this: an ingest that maps a connection ID and then drops the packet
(`OrphansMapping`). From then on the map holds a key without a connection, and a later packet with
that connection ID is filed under it, whatever its own addresses are.

## Main definitions

* `ConnectionTracker.KeyConsistent`: the two facts above.

## Main results

* `step_keyConsistent_iff`: a call keeps the keys consistent exactly if it is no such ingest;
* `run_keyConsistent_iff`: the keys stay consistent exactly along the runs without such an ingest.
-/

namespace RustNet

/-- The key the parser gives to the packets of the connection. -/
def Connection.key (conn : Connection) : String :=
  connectionKey conn.protocol conn.localAddr conn.remoteAddr

namespace ConnectionTracker

theorem freshEntry_key (parsed : ParsedPacket) (now : SystemTime) (clock : ClockReading)
    (measuredRtt : Option ℕ) :
    (freshEntry parsed now clock measuredRtt).key = parsed.connectionKey :=
  parsed.connectionKey_eq.symm

@[simp]
theorem mergeEntry_key [DeepPacketInspection] (parsed : ParsedPacket) (now : SystemTime)
    (clock : ClockReading) (measuredRtt : Option ℕ) (conn : Connection) :
    (mergeEntry parsed now clock measuredRtt conn).key = conn.key := rfl

/-- Every active entry is under its own key, and every value of the QUIC map is an active key. -/
structure KeyConsistent (t : ConnectionTracker) : Prop where
  keyed : ∀ key conn, t.connections.lookup key = some conn → key = conn.key
  mapped : ∀ connId key, t.quicMap.lookup connId = some key → key ∈ t.connections

variable {t : ConnectionTracker}

theorem keyConsistent_withConfig (config : TrackerConfig) :
    (withConfig config).KeyConsistent where
  keyed := by
    intro key conn h
    simp [withConfig] at h
  mapped := by
    intro connId key h
    simp [withConfig] at h

/-! ## Ingest -/

/-- The QUIC map an ingest leaves behind points to the packet's key or where it pointed before. -/
theorem resolveKey_mapped (ht : t.KeyConsistent) {parsed : ParsedPacket} {connId key : String}
    (h : (t.resolveKey parsed).1.lookup connId = some key) :
    key = (t.resolveKey parsed).2 ∨ key ∈ t.connections := by
  rcases t.resolveKey_cases parsed with ⟨-, hkey⟩ | ⟨_, _, -, -, hkey⟩ | ⟨newId, -, -, hkey⟩
  -- the map is the old one
  · rw [hkey] at h
    exact Or.inr (ht.mapped connId key h)
  · rw [hkey] at h
    exact Or.inr (ht.mapped connId key h)
  -- the map has a new entry, for the packet's own key
  · rw [hkey] at h ⊢
    rcases AList.lookup_insert_cases h with ⟨-, hnew⟩ | hold
    · exact Or.inl hnew
    · -- the map was emptied first, or is the old one
      split at hold
      · simp at hold
      · exact Or.inr (ht.mapped connId key hold)

/-- A packet resolved to a key without a connection keeps its own key. -/
theorem resolveKey_of_notMem (ht : t.KeyConsistent) {parsed : ParsedPacket}
    (h : (t.resolveKey parsed).2 ∉ t.connections) :
    (t.resolveKey parsed).2 = parsed.connectionKey := by
  rcases t.resolveKey_cases parsed with ⟨-, hkey⟩ | ⟨connId, key, -, hmap, hkey⟩ | ⟨_, -, -, hkey⟩
  · rw [hkey]
  -- a mapped connection ID leads to an active key
  · rw [hkey] at h
    exact absurd (ht.mapped connId key hmap) h
  · rw [hkey]

section Calls

variable [DeepPacketInspection]

/-- An ingest that enters its packet keeps the keys consistent. -/
theorem ingestAt_keyConsistent_of_entered (ht : t.KeyConsistent) {parsed : ParsedPacket}
    (h : ¬ t.AtCapacity (t.resolveKey parsed).2) (now : SystemTime) (clock : ClockReading) :
    (t.ingestAt parsed now clock).1.KeyConsistent where
  keyed := by
    intro key conn hlookup
    rw [ingestAt_connections, if_neg h] at hlookup
    rcases AList.lookup_upsert_cases hlookup with ⟨rfl, ⟨old, hold, rfl⟩ | ⟨hnone, rfl⟩⟩ | hold
    -- a merge keeps the addresses of the entry, whatever those of the packet are
    · rw [mergeEntry_key]
      exact ht.keyed _ old hold
    -- a new entry has the packet's addresses, and no redirection leads to a new key
    · rw [freshEntry_key]
      exact resolveKey_of_notMem ht (AList.notMem_of_lookup hnone)
    · exact ht.keyed key conn hold
  mapped := by
    intro connId key hlookup
    rw [ingestAt_quicMap] at hlookup
    rw [ingestAt_connections, if_neg h, AList.mem_upsert]
    exact resolveKey_mapped ht hlookup

/-- An ingest that drops its packet keeps the keys consistent exactly if it leaves the QUIC map
alone. -/
theorem ingestAt_keyConsistent_of_dropped (ht : t.KeyConsistent) {parsed : ParsedPacket}
    (h : t.AtCapacity (t.resolveKey parsed).2) (now : SystemTime) (clock : ClockReading) :
    (t.ingestAt parsed now clock).1.KeyConsistent ↔ ¬ t.OrphansMapping parsed := by
  constructor
  · rintro ht' ⟨⟨connId, hid, hnot⟩, hfull⟩
    -- the new connection ID is mapped to the packet's key, which has no connection
    have hmap : (t.ingestAt parsed now clock).1.quicMap.lookup connId =
        some parsed.connectionKey := by
      rw [ingestAt_quicMap, resolveKey_of_unmapped t parsed hid hnot, AList.lookup_insert]
    have hmem := ht'.mapped connId _ hmap
    rw [ingestAt_connections, if_pos h] at hmem
    exact hfull.1 hmem
  · intro hnot
    have hsame := (resolveKey_quicMap_eq_iff h).mpr hnot
    constructor
    · rw [ingestAt_connections, if_pos h]
      exact ht.keyed
    · rw [ingestAt_connections, if_pos h, ingestAt_quicMap, hsame]
      exact ht.mapped

/-- An ingest keeps the keys consistent exactly if it does not map a connection ID and then drop
the packet. -/
theorem ingestAt_keyConsistent_iff (ht : t.KeyConsistent) (parsed : ParsedPacket)
    (now : SystemTime) (clock : ClockReading) :
    (t.ingestAt parsed now clock).1.KeyConsistent ↔ ¬ t.OrphansMapping parsed := by
  by_cases h : t.AtCapacity (t.resolveKey parsed).2
  · exact ingestAt_keyConsistent_of_dropped ht h now clock
  -- a packet that is entered orphans no mapping
  · exact iff_of_true (ingestAt_keyConsistent_of_entered ht h now clock)
      fun horphan => h (atCapacity_of_orphansMapping horphan)

/-! ## Cleanup -/

omit [DeepPacketInspection] in
/-- A cleanup keeps the keys consistent: the mappings to the keys it removes go with them. -/
theorem cleanup_keyConsistent (ht : t.KeyConsistent) (now : SystemTime)
    (order : IterOrder String) (clock : ClockReading) :
    (t.cleanup now order clock).1.KeyConsistent where
  keyed := by
    intro key conn hlookup
    rw [cleanup_connections, AList.lookup_retain, Option.filter_eq_some_iff] at hlookup
    exact ht.keyed key conn hlookup.1
  mapped := by
    intro connId key hlookup
    rw [cleanup_quicMap, AList.lookup_retain, Option.filter_eq_some_iff] at hlookup
    obtain ⟨hmap, hstays⟩ := hlookup
    have hnot : key ∉ (t.swept now order clock).map Prod.fst := by simpa using hstays
    -- the mapping pointed to an active entry, which stays because it was not swept
    obtain ⟨conn, hconn⟩ := AList.mem_iff_exists_lookup.mp (ht.mapped connId key hmap)
    refine (mem_cleanup_connections t now clock order).mpr ⟨conn, hconn, ?_⟩
    by_contra hexpired
    exact hnot ((mem_swept_keys t now clock order).mpr ⟨conn, hconn, by simpa using hexpired⟩)

/-! ## Runs -/

/-- The call is no ingest that maps a connection ID and then drops its packet. -/
def NoOrphan (t : ConnectionTracker) : Call × ClockReading → Prop
  | (.ingestAt parsed _, _) => ¬ t.OrphansMapping parsed
  | _ => True

/-- A call keeps the keys consistent exactly if it is no ingest that orphans a mapping. -/
theorem step_keyConsistent_iff (ht : t.KeyConsistent) (call : Call × ClockReading) :
    (t.step call).KeyConsistent ↔ t.NoOrphan call := by
  obtain ⟨call, clock⟩ := call
  cases call with
  | ingestAt parsed now => exact ingestAt_keyConsistent_iff ht parsed now clock
  | cleanup now order => exact iff_of_true (cleanup_keyConsistent ht now order clock) trivial
  -- both tables are empty
  | clear =>
    refine iff_of_true ⟨?_, ?_⟩ trivial
    · intro key conn h
      simp [step, clear] at h
    · intro connId key h
      simp [step, clear] at h

/-- The keys are consistent in every state of a run from an empty tracker exactly if no ingest of
the run maps a connection ID and then drops its packet. Whether an ingest does so can be told in the
state before it, so the condition is one on the run. -/
theorem run_keyConsistent_iff (config : TrackerConfig) (calls : List (Call × ClockReading)) :
    Run.Always step KeyConsistent (withConfig config) calls ↔
      Run.Along step NoOrphan (withConfig config) calls :=
  Run.always_iff_along (fun _ call ht => step_keyConsistent_iff ht call)
    (keyConsistent_withConfig config)

end Calls

/-- After the full tracker dropped the first packet of a QUIC flow, the QUIC map holds a key without
a connection. -/
theorem fullTracker_drop_breaks_keys :
    letI : DeepPacketInspection := .silent
    ¬ (fullTracker.run
        [(.ingestAt firstQuic ⟨0⟩, .constant 0)]).KeyConsistent := by
  intro hkeys
  -- the value of `c0ffee` would be an active key
  have hmem := hkeys.mapped "c0ffee" firstQuic.connectionKey (by decide +kernel)
  exact absurd hmem (by decide +kernel)

end ConnectionTracker

end RustNet
