import RustNet.Host.Enhanced.Provenance
import RustNet.Network.Tracker.Attribution

/-!
# Where the processes shown come from

The tracker with its worker threads, the enrichment thread, the process lookup it asks and the hooks
of the BPF program behind that, interleaved in any way. On Linux no packet carries process metadata,
so what a connection shows was put there by a visit of the enrichment thread.

## Main definitions

* `Monitor.step`: the whole, one step at a time;
* `Monitor.Unmarked`: no thread is at work on a packet with process metadata.

## Main results

* `Monitor.exists_visit`: a process that is shown is the answer of one visit;
* `Monitor.exists_attested_of_shown`: what stands behind it.
-/

namespace RustNet

open Host ConnectionTracker

/-- The visit asks the lookup: something is missing, and it is a full pass or the connection is
young. -/
def EnrichmentVisit.Asks (visit : EnrichmentVisit) (conn : Connection) : Prop :=
  ¬ (conn.processName.isSome && conn.pid.isSome) = true ∧
    ¬ (!visit.fullPass && !visit.young conn) = true

instance (visit : EnrichmentVisit) (conn : Connection) : Decidable (visit.Asks conn) :=
  inferInstanceAs (Decidable (_ ∧ _))

/-- The packet that a thread is at work on. -/
def ConnectionTracker.Stage.packet : Stage → Option ParsedPacket
  | .received parsed _ | .timed parsed _ _ | .keyed parsed _ _ _ | .absent parsed _ _ _
  | .admitted parsed _ _ _ => some parsed
  | _ => none

/-- The tracker with its threads, and the process lookup of the enrichment thread. -/
structure Monitor (ι : Type*) where
  system : System ι
  lookup : EnhancedLinuxProcessLookup

/-- A step of a thread of the tracker, the call of a hook, a refresh of the lookup, or a visit of
the enrichment thread to an entry. -/
inductive MonitorEvent (ι : Type*)
  | thread (i : ι) (action : Action)
  | record (call : Ebpf.HookCall) (task : Ebpf.Task)
  | refresh (proc : Option ProcFs) (now : Instant)
  | visit (key : String) (fullPass : Bool) (wall : SystemTime) (reading : LookupReading)

namespace Monitor

variable {ι : Type*}

/-- Threads idle around an empty tracker, and a lookup that has scanned procfs once. -/
def start (ι : Type*) (config : TrackerConfig) (lookup : EnhancedLinuxProcessLookup) : Monitor ι :=
  ⟨.start ι config, lookup⟩

/-- A visit with the answers that the lookup gives at the time. -/
def visitOf (m : Monitor ι) (key : String) (fullPass : Bool) (wall : SystemTime)
    (reading : LookupReading) : EnrichmentVisit where
  key := key
  fullPass := fullPass
  wall := wall
  getProcessForConnection := fun conn => (m.lookup.getProcessForConnection reading conn).1

/-- What an event means to the lookup. -/
def lookups (m : Monitor ι) : MonitorEvent ι → List LookupEvent
  | .thread .. => []
  | .record call task => [.record call task]
  | .refresh proc now => [.refresh proc now]
  | .visit key fullPass wall reading =>
    match m.system.entry key with
    | none => []
    | some conn =>
      if (m.visitOf key fullPass wall reading).Asks conn then [.lookup conn reading] else []

/-- No thread is at work on a packet with process metadata. -/
def Unmarked (m : Monitor ι) : Prop :=
  ∀ i, ∀ parsed ∈ (m.system.locals i).packet, parsed.processName = none ∧ parsed.processId = none

/-- A packet that is entered has no process metadata. -/
theorem process_of_entering {m : Monitor ι} {i : ι} {action : Action} {key : String}
    {arrival : Arrival} {measuredRtt : Option ℕ} (hm : m.Unmarked)
    (h : m.system.entering key (.thread i action) = some (arrival, measuredRtt)) :
    arrival.parsed.processName = none ∧ arrival.parsed.processId = none := by
  cases action with
  | call call => cases h
  | advance clock =>
    rw [System.entering] at h
    split at h
    next parsed now rtt key' hstage =>
      split at h
      next =>
        obtain ⟨rfl, -⟩ := Prod.mk.inj (Option.some.inj h)
        refine hm i parsed ?_
        rw [hstage]
        rfl
      next => cases h
    next => cases h

/-! ## Visits -/

/-- Neither the pid nor the name of the process is shown. -/
def Blank (conn : Connection) : Prop := conn.pid = none ∧ conn.processName = none

/-- A visit fills in both, or neither. -/
theorem enrich_of_blank (visit : EnrichmentVisit) {conn : Connection} (h : Blank conn) :
    Blank (visit.enrich conn) ∨ ∃ process, visit.Asks conn ∧
      visit.getProcessForConnection conn = some process ∧
      (visit.enrich conn).pid = some process.1 ∧
      (visit.enrich conn).processName = some process.2 := by
  unfold EnrichmentVisit.enrich
  -- two guards leave the connection as it is before any lookup
  by_cases hset : (conn.processName.isSome && conn.pid.isSome) = true
  · rw [if_pos hset]
    exact Or.inl h
  rw [if_neg hset]
  by_cases hold : (!visit.fullPass && !visit.young conn) = true
  · rw [if_pos hold]
    exact Or.inl h
  rw [if_neg hold]
  cases hanswer : visit.getProcessForConnection conn with
  | none => exact Or.inl h
  | some process =>
    obtain ⟨pid, name⟩ := process
    exact Or.inr ⟨(pid, name), ⟨hset, hold⟩, rfl, by simp [h.1], by simp [h.2]⟩

/-- A visit to a connection that shows its process changes nothing. -/
theorem enrich_of_shown {visit : EnrichmentVisit} {conn : Connection} (hpid : conn.pid.isSome)
    (hname : conn.processName.isSome) : visit.enrich conn = conn := by
  rw [EnrichmentVisit.enrich, if_pos (by rw [hpid, hname]; rfl)]

/-- Protocol and addresses of an entry stay. -/
theorem fromConnection_of_settled {old new : Connection} (h : old.Settled new) :
    ConnectionKey.fromConnection new = .fromConnection old := by
  rw [ConnectionKey.fromConnection, ConnectionKey.fromConnection, h.protocol, h.localAddr,
    h.remoteAddr]

/-! ## The steps -/

section Steps

variable [DecidableEq ι] [DeepPacketInspection]

/-- The monitor after an event. -/
def step (m : Monitor ι) (event : MonitorEvent ι) : Monitor ι where
  system :=
    match event with
    | .thread i action => m.system.write (.thread i action)
    | .visit key fullPass wall reading =>
      m.system.write (.enrichment (m.visitOf key fullPass wall reading))
    | _ => m.system
  lookup := (m.lookups event).foldl EnhancedLinuxProcessLookup.step m.lookup

/-- The packet handed in by an event, if any, has no process metadata. -/
def PlainPacket : MonitorEvent ι → Prop
  | .thread _ (.call (.ingestAt parsed _)) => parsed.processName = none ∧ parsed.processId = none
  | _ => True

/-! ## Packets -/

/-- A thread keeps the packet of its call until it has entered it. -/
theorem packet_next {action : Action} {shared : Shared} {stage : Stage} {parsed : ParsedPacket}
    (h : parsed ∈ (Shared.next action shared stage).2.packet) :
    parsed ∈ stage.packet ∨ ∃ now, action = .call (.ingestAt parsed now) := by
  cases action with
  -- a packet is taken up by a call, and kept or dropped by every later step
  | call call =>
    cases stage with
    | idle =>
      cases call with
      | ingestAt parsed' now =>
        obtain rfl := Option.some.inj h
        exact Or.inr ⟨now, rfl⟩
      | cleanup now order => cases h
      | clear => cases h
    | _ => exact Or.inl h
  | advance clock =>
    refine Or.inl ?_
    cases stage with
    | received parsed' now => exact h
    | timed parsed' now measuredRtt => exact h
    | keyed parsed' now measuredRtt key =>
      simp only [Shared.next, Shared.advance] at h
      split at h <;> exact h
    | absent parsed' now measuredRtt key =>
      simp only [Shared.next, Shared.advance] at h
      split at h
      · cases h
      · exact h
    | sweeping now order =>
      simp only [Shared.next, Shared.advance] at h
      split at h <;> cases h
    | archiving now order toArchive removed => cases toArchive <;> cases h
    | evicting keys removed => cases keys <;> cases h
    | _ => cases h

theorem Unmarked.step {m : Monitor ι} {event : MonitorEvent ι} (hm : m.Unmarked)
    (hevent : PlainPacket event) : (m.step event).Unmarked := by
  cases event with
  -- the thread that moves has the packet it had, or the one of its call
  | thread i action =>
    intro j parsed hparsed
    change parsed ∈ ((Threads.step Shared.next m.system (i, action)).locals j).packet at hparsed
    by_cases hj : j = i
    · subst hj
      rw [Threads.step_locals_self] at hparsed
      rcases packet_next hparsed with hold | ⟨now, rfl⟩
      · exact hm j parsed hold
      · exact hevent
    · rw [Threads.step_locals_of_ne _ hj] at hparsed
      exact hm j parsed hparsed
  | record call task => exact hm
  | refresh proc now => exact hm
  | visit key fullPass wall reading => exact hm

/-! ## Entries -/

/-- The connection shows a process that one visit of the enrichment thread was answered, for an
entry with the same protocol and addresses. -/
def ShownBy (m : Monitor ι) (events : List (MonitorEvent ι)) (conn : Connection)
    (process : Process) : Prop :=
  conn.pid = some process.1 ∧ conn.processName = some process.2 ∧
    ∃ past key fullPass wall reading after old,
      events = past ++ .visit key fullPass wall reading :: after ∧
        (past.foldl step m).system.entry key = some old ∧
        ((past.foldl step m).visitOf key fullPass wall reading).Asks old ∧
        ((past.foldl step m).lookup.getProcessForConnection reading old).1 = some process ∧
        ConnectionKey.fromConnection old = .fromConnection conn

theorem ShownBy.append {m : Monitor ι} {events : List (MonitorEvent ι)} {conn : Connection}
    {process : Process} (h : ShownBy m events conn process) (later : List (MonitorEvent ι)) :
    ShownBy m (events ++ later) conn process := by
  obtain ⟨hpid, hname, past, key, fullPass, wall, reading, after, old, rfl, hvisit⟩ := h
  exact ⟨hpid, hname, past, key, fullPass, wall, reading, after ++ later, old, by simp, hvisit⟩

/-- What is shown of one connection is shown of any other with its key and its process. -/
theorem ShownBy.congr {m : Monitor ι} {events : List (MonitorEvent ι)} {conn conn' : Connection}
    {process : Process} (h : ShownBy m events conn process)
    (hkey : ConnectionKey.fromConnection conn' = .fromConnection conn)
    (hpid : conn'.pid = conn.pid) (hname : conn'.processName = conn.processName) :
    ShownBy m events conn' process := by
  obtain ⟨hpid', hname', past, key, fullPass, wall, reading, after, old, hevents, hentry, hasks,
    hanswer, hold⟩ := h
  exact ⟨hpid.trans hpid', hname.trans hname', past, key, fullPass, wall, reading, after, old,
    hevents, hentry, hasks, hanswer, hold.trans hkey.symm⟩

/-- A step of a thread leaves what an entry shows as it is. -/
theorem entry_step_thread {m : Monitor ι} {i : ι} {action : Action} {key : String}
    {conn' : Connection} (hm : m.Unmarked)
    (h : (m.step (.thread i action)).system.entry key = some conn') :
    Blank conn' ∨ ∃ conn, m.system.entry key = some conn ∧
      ConnectionKey.fromConnection conn' = .fromConnection conn ∧ conn'.pid = conn.pid ∧
      conn'.processName = conn.processName := by
  change (m.system.write (.thread i action)).entry key = some conn' at h
  cases hentering : m.system.entering key (.thread i action) with
  -- the step enters no packet, so that the entry is kept or removed
  | none =>
    have hstage : ∀ parsed now measuredRtt,
        m.system.locals i = .admitted parsed now measuredRtt key →
          ∀ clock, action ≠ .advance clock := by
      rintro parsed now measuredRtt hstage clock rfl
      rw [System.entering, hstage] at hentering
      simp at hentering
    rcases System.next_lookup action m.system.shared key hstage with hkept | hgone
    · exact Or.inr ⟨conn', hkept.symm.trans h, rfl, rfl, rfl⟩
    · exact absurd (hgone.symm.trans h) (by simp)
  -- the entry is new, or a packet without a process is merged into it
  | some ingest =>
    obtain ⟨hname, hpid⟩ := process_of_entering hm hentering
    rw [System.write_entry_of_entering hentering] at h
    obtain rfl := Option.some.inj h
    cases hentry : m.system.entry key with
    | none => exact Or.inl ⟨hpid, hname⟩
    | some conn =>
      refine Or.inr ⟨conn, rfl, fromConnection_of_settled (settled_mergeEntry conn ..), ?_, ?_⟩
      · show conn.pid.or ingest.1.parsed.processId = conn.pid
        rw [hpid, Option.or_none]
      · show conn.processName.or ingest.1.parsed.processName = conn.processName
        rw [hname, Option.or_none]

/-- A process that is shown is the answer of one visit, in every run of the threads, the hooks and
the refreshes: never a pid without its name, or with that of another answer. -/
theorem exists_visit {m : Monitor ι} {events : List (MonitorEvent ι)} {key : String}
    {conn : Connection} (hempty : ∀ key, m.system.entry key = none) (hm : m.Unmarked)
    (hpackets : ∀ event ∈ events, PlainPacket event)
    (h : (events.foldl step m).system.entry key = some conn) :
    Blank conn ∨ ∃ process, ShownBy m events conn process := by
  induction events using List.reverseRecOn generalizing key conn with
  | nil =>
    rw [List.foldl_nil, hempty] at h
    cases h
  | append_singleton events event ih =>
    have hearlier : ∀ e ∈ events, PlainPacket e := fun e he =>
      hpackets e (List.mem_append_left _ he)
    have hunmarked : (events.foldl step m).Unmarked :=
      (Run.always_of_along (fun _ _ => Unmarked.step) hm
        (Run.along_of_forall_mem hearlier)).last
    rw [List.foldl_append, List.foldl_cons, List.foldl_nil] at h
    -- what an earlier state shows under the same key and process is shown now
    have hkept {old : Connection} (hold : (events.foldl step m).system.entry key = some old)
        (hkey : ConnectionKey.fromConnection conn = .fromConnection old)
        (hpid : conn.pid = old.pid) (hname : conn.processName = old.processName) :
        Blank conn ∨ ∃ process, ShownBy m (events ++ [event]) conn process := by
      rcases ih hearlier hold with hblank | ⟨process, hshown⟩
      · exact Or.inl ⟨hpid.trans hblank.1, hname.trans hblank.2⟩
      · exact Or.inr ⟨process, (hshown.congr hkey hpid hname).append _⟩
    cases event with
    | thread i action =>
      rcases entry_step_thread hunmarked h with hblank | ⟨old, hold, hkey, hpid, hname⟩
      · exact Or.inl hblank
      · exact hkept hold hkey hpid hname
    | record call task => exact hkept h rfl rfl rfl
    | refresh proc now => exact hkept h rfl rfl rfl
    | visit key' fullPass wall reading =>
      let visit := (events.foldl step m).visitOf key' fullPass wall reading
      have hentry := lookup_enrich (events.foldl step m).system.shared.tracker visit key
      change (((events.foldl step m).system.shared.tracker.enrich visit).connections.lookup key) =
        some conn at h
      rw [h] at hentry
      obtain ⟨old, hold, hconn⟩ := Option.map_eq_some_iff.mp hentry.symm
      by_cases hvisited : visit.key = key
      · rw [if_pos hvisited] at hconn
        subst hvisited
        have hkey : ConnectionKey.fromConnection conn = .fromConnection old := by
          rw [← hconn]
          exact fromConnection_of_settled (visit.settled_enrich old)
        rcases ih hearlier hold with hblank | ⟨process, hshown⟩
        · rcases enrich_of_blank visit hblank with
            hblank' | ⟨process, hasks, hanswer, hpid, hname⟩
          · rw [hconn] at hblank'
            exact Or.inl hblank'
          · rw [hconn] at hpid hname
            exact Or.inr ⟨process, hpid, hname, events, key', fullPass, wall, reading, [], old, rfl,
              hold, hasks, hanswer, hkey.symm⟩
        · rw [enrich_of_shown (by rw [hshown.1]; rfl) (by rw [hshown.2.1]; rfl)] at hconn
          subst hconn
          exact Or.inr ⟨process, hshown.append _⟩
      · rw [if_neg hvisited] at hconn
        subst hconn
        exact hkept hold rfl rfl rfl

/-! ## The lookups of a run -/

/-- What the events of a run mean to the lookup, in order. -/
def allLookups (m : Monitor ι) (events : List (MonitorEvent ι)) : List LookupEvent :=
  (Run.outputs step lookups m events).flatten

theorem lookup_foldl (m : Monitor ι) (events : List (MonitorEvent ι)) :
    (events.foldl step m).lookup =
      (m.allLookups events).foldl EnhancedLinuxProcessLookup.step m.lookup :=
  Run.project_outputs (f := Monitor.lookup) (fun _ _ => rfl) m events

/-- The lookups up to an event come before those from it on. -/
theorem allLookups_append (m : Monitor ι) (past rest : List (MonitorEvent ι)) :
    m.allLookups (past ++ rest) = m.allLookups past ++ (past.foldl step m).allLookups rest := by
  rw [allLookups, Run.outputs_append, List.flatten_append]
  rfl

/-- The lookups that come before a visit that asks are followed by its own. -/
theorem allLookups_visit (m : Monitor ι) {past after : List (MonitorEvent ι)} {key : String}
    {fullPass : Bool} {wall : SystemTime} {reading : LookupReading} {old : Connection}
    (hentry : (past.foldl step m).system.entry key = some old)
    (hasks : ((past.foldl step m).visitOf key fullPass wall reading).Asks old) :
    m.allLookups past ++ [.lookup old reading] <+:
      m.allLookups (past ++ .visit key fullPass wall reading :: after) := by
  rw [allLookups_append]
  refine List.prefix_append_right_inj _ |>.mpr ?_
  rw [allLookups, Run.outputs, List.flatten_cons, lookups, hentry]
  simp only [if_pos hasks]
  exact List.prefix_append ..

/-- **What stands behind a process that is shown**: in every run of the worker threads, the
enrichment thread, the refreshes and the hooks, a connection that shows a process was attributed by
the last hook call for its flow or by a row of the last scan of procfs, as things stood at one
lookup of the run, which was for a connection with its key; `earlier` is all that happened before
it. Nothing is asked of the run but that no packet carries process metadata, as on Linux. -/
theorem exists_attested_of_shown (trackerConfig : TrackerConfig) (loaded : Bool) (first : ProcFs)
    (config : CleanupConfig) (now : Instant) {events : List (MonitorEvent ι)} {key : String}
    {conn : Connection} (hpackets : ∀ event ∈ events, PlainPacket event)
    (h : (events.foldl step
      (start ι trackerConfig (.newWithConfig loaded first config now))).system.entry key =
        some conn) :
    Blank conn ∨ ∃ process earlier conn' reading,
      conn.pid = some process.1 ∧ conn.processName = some process.2 ∧
        earlier ++ [.lookup conn' reading] <+:
          (start ι trackerConfig (.newWithConfig loaded first config now)).allLookups events ∧
        ConnectionKey.fromConnection conn' = .fromConnection conn ∧
        Attested first earlier conn' reading process ∧
        (conn.protocol = .tcp ∨ conn.protocol = .udp →
          Attested first earlier conn reading process) := by
  generalize hm : start ι trackerConfig (.newWithConfig loaded first config now) = m at h ⊢
  have hlookup : m.lookup = .newWithConfig loaded first config now := by
    rw [← hm]
    rfl
  have hempty : ∀ key, m.system.entry key = none := by
    rw [← hm]
    exact fun _ => rfl
  have hunmarked : m.Unmarked := by
    rw [← hm]
    intro i parsed hparsed
    cases hparsed
  rcases exists_visit hempty hunmarked hpackets h with hblank | ⟨process, hpid, hname, past, key',
    fullPass, wall, reading, after, old, rfl, hentry, hasks, hanswer, hkey⟩
  · exact Or.inl hblank
  -- the visit asked the lookup, which had looked the answer up
  rw [lookup_foldl, hlookup] at hanswer
  obtain ⟨earlier, conn', reading', between, hsplit, -, hkey', -, hfresh⟩ :=
    EnhancedLinuxProcessLookup.exists_fresh_of_answer loaded first config now hanswer
  have hattested := EnhancedLinuxProcessLookup.attested_of_fresh loaded first config now hfresh
  have hbefore : earlier ++ [.lookup conn' reading'] <+:
      m.allLookups (past ++ .visit key' fullPass wall reading :: after) := by
    refine List.IsPrefix.trans ?_ (allLookups_visit m hentry hasks)
    rw [hsplit]
    exact ⟨between, by simp⟩
  have hsame : ConnectionKey.fromConnection conn' = .fromConnection conn := hkey'.trans hkey
  -- of the connection that was looked up, and so of any other TCP or UDP connection with its key
  exact Or.inr ⟨process, earlier, conn', reading', hpid, hname, hbefore, hsame, hattested,
    fun hprotocol => hattested.of_key_eq hsame hprotocol⟩

end Steps

/-- A process connects, its first packet is tracked, and the enrichment thread visits the entry. -/
def sampleMonitorEvents : List (MonitorEvent Bool) :=
  let parsed := ParsedPacket.ofUdp (.lan 1 5000) (.lan 2 53) none true 60
  [.record (.udpSendmsg ⟨.new 10 0 0 1, .new 10 0 0 2, Ebpf.unspecifiedV6, Ebpf.unspecifiedV6, 5000,
      53⟩ none) EnhancedLinuxProcessLookup.sampleTask,
    .thread true (.call (.ingestAt parsed ⟨0⟩))] ++
    List.replicate 5 (.thread true (.advance (.constant 0))) ++
    [.visit (connectionKey .udp (.lan 1 5000) (.lan 2 53)) true ⟨0⟩
      (EnhancedLinuxProcessLookup.sampleReading 20)]

/-- The entry shows the process, and the call of the process stands behind that. -/
theorem exists_attested_of_shown_sampleMonitorEvents :
    letI : DeepPacketInspection := .silent
    let m : Monitor Bool :=
      start Bool .default (.newWithConfig true EnhancedLinuxProcessLookup.emptyProc {} ⟨0⟩)
    ∃ conn, (sampleMonitorEvents.foldl step m).system.entry
        (connectionKey .udp (.lan 1 5000) (.lan 2 53)) = some conn ∧ conn.pid = some 100 ∧
      (Blank conn ∨ ∃ process earlier conn' reading,
        conn.pid = some process.1 ∧ conn.processName = some process.2 ∧
          earlier ++ [.lookup conn' reading] <+: m.allLookups sampleMonitorEvents ∧
          ConnectionKey.fromConnection conn' = .fromConnection conn ∧
          Attested EnhancedLinuxProcessLookup.emptyProc earlier conn' reading process ∧
          (conn.protocol = .tcp ∨ conn.protocol = .udp →
            Attested EnhancedLinuxProcessLookup.emptyProc earlier conn reading process)) := by
  let _ : DeepPacketInspection := .silent
  intro m
  have hshown : ((sampleMonitorEvents.foldl step m).system.entry
      (connectionKey .udp (.lan 1 5000) (.lan 2 53))).map Connection.pid = some (some 100) := by
    decide +kernel
  obtain ⟨conn, hentry, hpid⟩ := Option.map_eq_some_iff.mp hshown
  refine ⟨conn, hentry, hpid, exists_attested_of_shown .default true
    EnhancedLinuxProcessLookup.emptyProc {} ⟨0⟩ ?_ hentry⟩
  -- none of the packets names a process
  intro event hevent
  simp only [sampleMonitorEvents, List.mem_append, List.mem_cons, List.mem_replicate,
    List.not_mem_nil, or_false] at hevent
  rcases hevent with ((rfl | rfl) | ⟨-, rfl⟩) | rfl
  · trivial
  · exact ⟨rfl, rfl⟩
  · trivial
  · trivial

end Monitor

end RustNet
