import RustNet.Network.Tcp.Segments
import RustNet.Network.Tracker.Threads

/-!
# The writers of one table entry

Worker threads merge packets into the entries of the active table while the enrichment thread of
the application fills in process names and pids. A visit of that thread to an entry is one atomic
step, under the lock of the entry, so a pass over the table is a list of visits with the steps of
other threads between them. What the process lookup answers, and whether the pass is a full one,
is the environment's choice.

## Main definitions

* `EnrichmentVisit.enrich`: the body of the enrichment loop;
* `System.write`: the tracker's threads and the enrichment thread, interleaved;
* `Connection.Settled`: what was set in one record of a connection is the same in a later one.

## Main results

* `write_entry_of_entering`, `write_entry_of_not_entering`: all that a step can do to an entry;
* `settled_of_stays`: while an entry stays in the table, what is set once is never changed.
-/

namespace RustNet

/-! ## Enrichment -/

/-- `YOUNG_CONNECTION_SECS` of `start_process_enrichment`: how many seconds a connection counts as
young. -/
def youngConnectionSecs : ℕ := 10

/-- One visit of the enrichment loop: the entry, whether the pass is a full one, what the wall clock
reads and what the process lookup answers. -/
structure EnrichmentVisit where
  key : String
  fullPass : Bool
  wall : SystemTime
  getProcessForConnection : Connection → Option (UInt32 × String)

namespace EnrichmentVisit

/-- The age test of the fast ticks; a creation time in the future counts as young. -/
def young (visit : EnrichmentVisit) (conn : Connection) : Bool :=
  ((visit.wall.durationSince conn.createdAt).map fun age =>
    decide (age / Duration.fromSecs 1 < youngConnectionSecs)).getD true

/-- The body of the enrichment loop. -/
def enrich (visit : EnrichmentVisit) (conn : Connection) : Connection :=
  if conn.processName.isSome && conn.pid.isSome then conn
  else if !visit.fullPass && !visit.young conn then conn
  else
    match visit.getProcessForConnection conn with
    | none => conn
    | some (pid, name) =>
      -- missing pieces are filled in, present ones kept
      { conn with
        processName := if conn.processName.isNone then some name else conn.processName
        pid := if conn.pid.isNone then some pid else conn.pid }

end EnrichmentVisit

namespace ConnectionTracker

/-- The tracker after one visit of the enrichment thread. -/
def enrich (t : ConnectionTracker) (visit : EnrichmentVisit) : ConnectionTracker :=
  match t.connections.lookup visit.key with
  | some conn => { t with connections := t.connections.insert visit.key (visit.enrich conn) }
  | none => t

theorem lookup_enrich (t : ConnectionTracker) (visit : EnrichmentVisit) (key : String) :
    (t.enrich visit).connections.lookup key =
      (t.connections.lookup key).map fun conn =>
        if visit.key = key then visit.enrich conn else conn := by
  unfold enrich
  cases hvisited : t.connections.lookup visit.key with
  | none =>
    by_cases hkey : visit.key = key
    · rw [← hkey, hvisited, Option.map_none]
    · simp only [if_neg hkey, Option.map_id']
  | some conn =>
    by_cases hkey : visit.key = key
    · rw [← hkey, hvisited, AList.lookup_insert, Option.map_some, if_pos rfl]
    · simp only [if_neg hkey, Option.map_id', AList.lookup_insert_ne (Ne.symm hkey)]

/-! ## All writers, interleaved -/

/-- A step of a thread of the tracker, or a visit of the enrichment thread. -/
inductive Write (ι : Type*)
  | thread (i : ι) (action : Action)
  | enrichment (visit : EnrichmentVisit)

namespace System

variable {ι : Type*}

/-- The entry under `key` in the active table. -/
def entry (s : System ι) (key : String) : Option Connection :=
  s.shared.tracker.connections.lookup key

/-- The ingest whose entry operation on `key` a step is, with the round-trip time it measured. -/
def entering (s : System ι) (key : String) : Write ι → Option (Arrival × Option ℕ)
  | .thread i (.advance clock) =>
    match s.locals i with
    | .admitted parsed now measuredRtt key' =>
      if key' = key then some (⟨parsed, now, clock⟩, measuredRtt) else none
    | _ => none
  | _ => none

variable [DecidableEq ι] [DeepPacketInspection]

/-- The system after one write. -/
def write (s : System ι) : Write ι → System ι
  | .thread i action => s.step (i, action)
  | .enrichment visit =>
    { s with shared := { s.shared with tracker := s.shared.tracker.enrich visit } }

end System

end ConnectionTracker

/-! ## What is set once -/

/-- Which application protocol a record is of. -/
def ApplicationProtocol.variant (application : ApplicationProtocol) : ℕ := application.ctorIdx

/-- What `old` has set is the same in `new`: the addresses, the protocol and the creation time, the
direction, and the process, the initial round-trip time and the application protocol once known. -/
structure Connection.Settled (old new : Connection) : Prop where
  protocol : new.protocol = old.protocol
  localAddr : new.localAddr = old.localAddr
  remoteAddr : new.remoteAddr = old.remoteAddr
  createdAt : new.createdAt = old.createdAt
  connectionDirection : ∀ d ∈ old.connectionDirection, d ∈ new.connectionDirection
  processName : ∀ name ∈ old.processName, name ∈ new.processName
  pid : ∀ pid ∈ old.pid, pid ∈ new.pid
  initialRtt : ∀ rtt ∈ old.initialRtt, rtt ∈ new.initialRtt
  variant : ∀ info ∈ old.dpiInfo, ∃ info' ∈ new.dpiInfo,
    info'.application.variant = info.application.variant

namespace Connection.Settled

theorem refl (conn : Connection) : conn.Settled conn where
  protocol := rfl
  localAddr := rfl
  remoteAddr := rfl
  createdAt := rfl
  connectionDirection := fun _ h => h
  processName := fun _ h => h
  pid := fun _ h => h
  initialRtt := fun _ h => h
  variant := fun info h => ⟨info, h, rfl⟩

theorem trans {a b c : Connection} (hab : a.Settled b) (hbc : b.Settled c) : a.Settled c where
  protocol := hbc.protocol.trans hab.protocol
  localAddr := hbc.localAddr.trans hab.localAddr
  remoteAddr := hbc.remoteAddr.trans hab.remoteAddr
  createdAt := hbc.createdAt.trans hab.createdAt
  connectionDirection := fun d h => hbc.connectionDirection d (hab.connectionDirection d h)
  processName := fun name h => hbc.processName name (hab.processName name h)
  pid := fun pid h => hbc.pid pid (hab.pid pid h)
  initialRtt := fun rtt h => hbc.initialRtt rtt (hab.initialRtt rtt h)
  variant := by
    intro info h
    obtain ⟨info', h', heq⟩ := hab.variant info h
    obtain ⟨info'', h'', heq'⟩ := hbc.variant info' h'
    exact ⟨info'', h'', heq'.trans heq⟩

end Connection.Settled

/-- A merge of application-layer information keeps the recorded protocol. -/
theorem mergeApplication_variant [DeepPacketInspection] (old new : ApplicationProtocol) :
    (mergeApplication old new).variant = old.variant := by
  unfold mergeApplication
  split <;> rfl

/-- A merge keeps what is set. -/
theorem settled_mergeEntry [DeepPacketInspection] (conn : Connection) (parsed : ParsedPacket)
    (now : SystemTime) (clock : ClockReading) (measuredRtt : Option ℕ) :
    conn.Settled (ConnectionTracker.mergeEntry parsed now clock measuredRtt conn) where
  protocol := rfl
  localAddr := rfl
  remoteAddr := rfl
  createdAt := rfl
  connectionDirection := fun _ h => h
  processName := fun _ h => Option.or_eq_some_iff.mpr (Or.inl h)
  pid := fun _ h => Option.or_eq_some_iff.mpr (Or.inl h)
  initialRtt := fun _ h => Option.or_eq_some_iff.mpr (Or.inl h)
  variant := by
    intro info hinfo
    unfold ConnectionTracker.mergeEntry mergePacketIntoConnection
    dsimp only
    cases parsed.dpiResult with
    | none => exact ⟨info, hinfo, rfl⟩
    | some result =>
      refine ⟨_, rfl, ?_⟩
      rw [Option.mem_def.mp hinfo]
      exact mergeApplication_variant info.application result.application

/-- A visit of the enrichment thread keeps what is set. -/
theorem EnrichmentVisit.settled_enrich (visit : EnrichmentVisit) (conn : Connection) :
    conn.Settled (visit.enrich conn) := by
  unfold enrich
  split
  · exact .refl conn
  split
  · exact .refl conn
  cases visit.getProcessForConnection conn with
  | none => exact .refl conn
  | some process =>
    -- only missing pieces are filled in
    refine { Connection.Settled.refl conn with processName := ?_, pid := ?_ }
    · intro name hname
      simp [Option.mem_def.mp hname]
    · intro pid hpid
      simp [Option.mem_def.mp hpid]

/-- A visit of the enrichment thread is no activity. -/
theorem EnrichmentVisit.enrich_lastActivity (visit : EnrichmentVisit) (conn : Connection) :
    (visit.enrich conn).lastActivity = conn.lastActivity := by
  unfold enrich
  split
  · rfl
  split
  · rfl
  cases visit.getProcessForConnection conn with
  | none => rfl
  | some process => rfl

/-! ## What one step does to an entry -/

namespace ConnectionTracker

namespace System

variable {ι : Type*} [DecidableEq ι] [DeepPacketInspection] {s : System ι} {key : String}
  {w : Write ι}

/-- The step of an entry operation merges its packet into the entry, or makes one of it. -/
theorem write_entry_of_entering {arrival : Arrival} {measuredRtt : Option ℕ}
    (h : s.entering key w = some (arrival, measuredRtt)) :
    (s.write w).entry key = some ((s.entry key).elim
      (freshEntry arrival.parsed arrival.now arrival.clock measuredRtt)
      (mergeEntry arrival.parsed arrival.now arrival.clock measuredRtt)) := by
  unfold entering at h
  -- only an admitted packet that is advanced enters the table, under its own key
  split at h
  next i clock =>
    split at h
    next parsed now rtt key' hstage =>
      split at h
      next hkey =>
        obtain ⟨rfl, rfl⟩ := Prod.mk.inj (Option.some.inj h)
        subst hkey
        show (Threads.step Shared.next s (i, Action.advance clock)).shared.tracker.connections.lookup
          key' = _
        rw [Threads.step_shared, hstage]
        exact AList.lookup_insert _
      next => cases h
    next => cases h
  next => cases h

/-- A thread that is not at the entry operation leaves an entry as it is, or removes it. -/
theorem next_lookup (action : Action) (s : Shared) {stage : Stage} (key : String)
    (h : ∀ parsed now measuredRtt, stage = .admitted parsed now measuredRtt key →
      ∀ clock, action ≠ .advance clock) :
    (Shared.next action s stage).1.tracker.connections.lookup key =
        s.tracker.connections.lookup key ∨
      (Shared.next action s stage).1.tracker.connections.lookup key = none := by
  cases action with
  | call call => cases stage <;> exact Or.inl rfl
  | advance clock =>
    cases stage with
    | admitted parsed now measuredRtt key' =>
      -- the thread is at the entry operation, but of another entry
      have hkey : key ≠ key' := by
        rintro rfl
        exact h parsed now measuredRtt rfl clock rfl
      exact Or.inl (AList.lookup_insert_ne hkey)
    | sweeping now order =>
      show (s.tracker.connections.retain _).lookup key = _ ∨
        (s.tracker.connections.retain _).lookup key = none
      rw [AList.lookup_retain]
      cases s.tracker.connections.lookup key with
      | none => exact Or.inl rfl
      | some conn =>
        rw [Option.filter_some]
        split
        · exact Or.inl rfl
        · exact Or.inr rfl
    | clearing => exact Or.inr (AList.lookup_empty key)
    | archiving now order toArchive removed => cases toArchive <;> exact Or.inl rfl
    | evicting keys removed => cases keys <;> exact Or.inl rfl
    | unmapping removed =>
      refine Or.inl ?_
      show (if _ then s.tracker else s.tracker.forgetMappings _).connections.lookup key = _
      split <;> rfl
    | _ => exact Or.inl rfl

/-- Any other step leaves the entry as it is, or removes it, or is a visit that enriches it. -/
theorem write_entry_of_not_entering (h : s.entering key w = none) :
    (s.write w).entry key = s.entry key ∨ (s.write w).entry key = none ∨
      ∃ visit : EnrichmentVisit, (s.write w).entry key = (s.entry key).map visit.enrich := by
  cases w with
  -- a thread that enters nothing keeps the entry or removes it
  | thread i action =>
    have hstage : ∀ parsed now measuredRtt,
        s.locals i = .admitted parsed now measuredRtt key → ∀ clock, action ≠ .advance clock := by
      rintro parsed now measuredRtt hstage clock rfl
      rw [entering, hstage] at h
      simp at h
    rcases next_lookup action s.shared key hstage with hkept | hgone
    · exact Or.inl hkept
    · exact Or.inr (Or.inl hgone)
  -- a visit changes the entry of its key only
  | enrichment visit =>
    have hlookup := lookup_enrich s.shared.tracker visit key
    by_cases hkey : visit.key = key
    · refine Or.inr (Or.inr ⟨visit, hlookup.trans ?_⟩)
      simp only [if_pos hkey]
      rfl
    · refine Or.inl (hlookup.trans ?_)
      simp only [if_neg hkey, Option.map_id']
      rfl

/-- A step keeps what an entry has set, unless it removes the entry. -/
theorem settled_write {conn conn' : Connection} (w : Write ι) (h : s.entry key = some conn)
    (h' : (s.write w).entry key = some conn') : conn.Settled conn' := by
  -- a packet that enters is merged; other writes keep the entry, remove it or enrich it
  cases hentering : s.entering key w with
  | some ingest =>
    rw [write_entry_of_entering hentering, h, Option.elim_some] at h'
    obtain rfl := Option.some.inj h'
    exact settled_mergeEntry conn ..
  | none =>
    rcases write_entry_of_not_entering hentering with hkept | hgone | ⟨visit, henriched⟩
    · obtain rfl := Option.some.inj (h.symm.trans (hkept.symm.trans h'))
      exact .refl conn
    · rw [hgone] at h'
      cases h'
    · rw [henriched, h, Option.map_some] at h'
      obtain rfl := Option.some.inj h'
      exact visit.settled_enrich conn

/-- The entry under `key` stays in the table throughout a run. -/
def Stays (key : String) (s : System ι) (writes : List (Write ι)) : Prop :=
  Run.Always System.write (fun s => (s.entry key).isSome) s writes

/-- While an entry stays in the table (`hstays`), whatever the threads of the tracker and the
enrichment thread do to it in whatever order, what it has set is never changed. `conn` is the entry
before the writes and `conn'` the one after them (`hconn`, `hconn'`); what is set are the fields of
`Settled`. -/
theorem settled_of_stays {writes : List (Write ι)} (hstays : Stays key s writes)
    {conn conn' : Connection} (hconn : s.entry key = some conn)
    (hconn' : (writes.foldl write s).entry key = some conn') : conn.Settled conn' :=
  Run.related_of_always Connection.Settled.refl (fun _ _ _ => Connection.Settled.trans)
    (fun _ w _ _ h h' => settled_write w h h') hstays hconn hconn'

end System

/-- Two threads enter a packet of one flow each. -/
def attributedFlowStart : List (Write Bool) :=
  let parsed := ParsedPacket.ofUdp (.lan 1 5000) (.lan 2 53) none true 60
  [.thread false (.call (.ingestAt parsed ⟨0⟩)), .thread true (.call (.ingestAt parsed ⟨0⟩))] ++
    List.replicate 5 (.thread false (.advance (.constant 0)))

/-- The entry is there, and the enrichment thread visits it before and after the second merge. The
process lookup answers differently the second time. -/
def attributedFlowRest : List (Write Bool) :=
  let key := connectionKey .udp (.lan 1 5000) (.lan 2 53)
  [.enrichment ⟨key, false, ⟨0⟩, fun _ => some (42, "curl")⟩] ++
    List.replicate 5 (.thread true (.advance (.constant 0))) ++
    [.enrichment ⟨key, true, ⟨0⟩, fun _ => some (7, "wget")⟩]

/-- The first answer stays. -/
theorem attributedFlow_settled :
    letI : DeepPacketInspection := .silent
    let key := connectionKey .udp (.lan 1 5000) (.lan 2 53)
    let s := attributedFlowStart.foldl System.write (System.start Bool .default)
    let s' := attributedFlowRest.foldl System.write s
    (∀ conn ∈ s.entry key, ∀ conn' ∈ s'.entry key, conn.Settled conn') ∧
      (s'.entry key).map Connection.processName = some (some "curl") := by
  intro key s s'
  have hstays : letI : DeepPacketInspection := .silent
      System.Stays key s attributedFlowRest := by
    unfold System.Stays
    decide +kernel
  exact ⟨fun conn hconn conn' hconn' =>
    @System.settled_of_stays _ _ .silent s key attributedFlowRest hstays conn conn' hconn hconn',
    by decide +kernel⟩

end ConnectionTracker

end RustNet
