import RustNet.Foundations.Threads
import RustNet.Network.Tracker.Basic

/-!
# Threads that share a tracker

Any number of threads call one tracker. A call is a sequence of table operations, each atomic, and
between two of them any other thread may move. `Stage` is where a thread is in its call: which
operation comes next, and the local variables it needs. The operations are those of
`Tracker.Basic`, so what is interleaved here is what runs in sequence there.

Two lists are kept for the specification only: the packets entered into the table, and the
connections that `cleanup` calls have returned.

## Main definitions

* `Stage`, `Shared`, `Shared.next`: the program of one thread;
* `Threads.step Shared.next`: the interleaving of all threads.

## Main results

* `solo_ingestAt`, `solo_cleanup`, `solo_clear`: what the steps of one call add up to;
* `exists_step_of_idle`: a call that no other thread interrupts is the sequential one.
-/

namespace RustNet

namespace ConnectionTracker

/-- Where a thread is in its call. -/
inductive Stage
  | idle
  /-- `ingest_at`, before the RTT lock. -/
  | received (parsed : ParsedPacket) (now : SystemTime)
  /-- `ingest_at`, before the QUIC map lock. -/
  | timed (parsed : ParsedPacket) (now : SystemTime) (measuredRtt : Option ℕ)
  /-- `ingest_at`, before `contains_key`. -/
  | keyed (parsed : ParsedPacket) (now : SystemTime) (measuredRtt : Option ℕ) (key : String)
  /-- `ingest_at`, before `len`: the key was not in the table. -/
  | absent (parsed : ParsedPacket) (now : SystemTime) (measuredRtt : Option ℕ) (key : String)
  /-- `ingest_at`, before the entry operation: the capacity check has passed. -/
  | admitted (parsed : ParsedPacket) (now : SystemTime) (measuredRtt : Option ℕ) (key : String)
  /-- `cleanup`, before the sweep. -/
  | sweeping (now : SystemTime) (order : IterOrder String)
  /-- `cleanup`, with these removed entries still to be archived. -/
  | archiving (now : SystemTime) (order : IterOrder String)
      (toArchive removed : List (String × Connection))
  /-- `cleanup`, with these historic keys still to be evicted. -/
  | evicting (keys : List String) (removed : List (String × Connection))
  /-- `cleanup`, before the QUIC map lock. -/
  | unmapping (removed : List (String × Connection))
  /-- `clear`, before the active table is cleared, and so on. -/
  | clearing
  | clearingHistoric
  | clearingRtt
  | clearingQuicMap

/-- The first stage of a call. -/
def Stage.start : Call → Stage
  | .ingestAt parsed now => .received parsed now
  | .cleanup now order => .sweeping now order
  | .clear => .clearing

/-- What a thread does next: an idle one may start a call, and any other takes one step of its call,
the clocks reading as given. -/
inductive Action
  | call (call : Call)
  | advance (clock : ClockReading)

/-- The tracker, and the lists kept for the specification. -/
structure Shared where
  tracker : ConnectionTracker
  /-- The packets entered into the active table. -/
  accepted : List ParsedPacket
  /-- The connections returned by `cleanup`. -/
  returned : List Connection

namespace Shared

/-- An empty tracker, with no packet accepted and no connection returned yet. -/
def withConfig (config : TrackerConfig) : Shared := ⟨.withConfig config, [], []⟩

variable [DeepPacketInspection]

/-- The next table operation of a thread. -/
def advance (s : Shared) (clock : ClockReading) : Stage → Shared × Stage
  | .idle => (s, .idle)
  | .received parsed now =>
    let (rtt, measuredRtt) := s.tracker.rtt.observe parsed clock.instant
    ({ s with tracker := { s.tracker with rtt := rtt } }, .timed parsed now measuredRtt)
  | .timed parsed now measuredRtt =>
    let (quicMap, key) := s.tracker.resolveKey parsed
    ({ s with tracker := { s.tracker with quicMap := quicMap } },
      .keyed parsed now measuredRtt key)
  | .keyed parsed now measuredRtt key =>
    (s, if key ∈ s.tracker.connections then .admitted parsed now measuredRtt key
      else .absent parsed now measuredRtt key)
  | .absent parsed now measuredRtt key =>
    -- a full table drops the packet, and the call returns
    (s, if s.tracker.config.maxConnections ≤ s.tracker.connections.size then .idle
      else .admitted parsed now measuredRtt key)
  | .admitted parsed now measuredRtt key =>
    ({ s with
        tracker := s.tracker.enter key parsed now clock measuredRtt
        accepted := parsed :: s.accepted }, .idle)
  | .sweeping now order =>
    let removed := s.tracker.swept now order clock
    ({ s with tracker := s.tracker.sweep now clock },
      if s.tracker.config.keepHistoric then .archiving now order removed removed
      else .evicting [] removed)
  | .archiving now order (e :: toArchive) removed =>
    ({ s with tracker :=
        { s.tracker with historic := archiveAll s.tracker.historic now [e] } },
      .archiving now order toArchive removed)
  | .archiving _ order [] removed =>
    let historic := s.tracker.historic
    let maxHistoric := s.tracker.config.maxHistoric
    (s, .evicting
      (if maxHistoric < historic.size then
        oldestClosed historic order (historic.size - maxHistoric)
      else []) removed)
  | .evicting (key :: keys) removed =>
    ({ s with tracker := { s.tracker with historic := s.tracker.historic.erase key } },
      .evicting keys removed)
  | .evicting [] removed => (s, .unmapping removed)
  | .unmapping removed =>
    let removedKeys := removed.map Prod.fst
    ({ s with
        tracker := if removedKeys.isEmpty then s.tracker else s.tracker.forgetMappings removedKeys
        returned := removed.map Prod.snd ++ s.returned }, .idle)
  | .clearing => ({ s with tracker := { s.tracker with connections := ∅ } }, .clearingHistoric)
  | .clearingHistoric => ({ s with tracker := { s.tracker with historic := ∅ } }, .clearingRtt)
  | .clearingRtt =>
    ({ s with tracker := { s.tracker with rtt := s.tracker.rtt.clear } }, .clearingQuicMap)
  | .clearingQuicMap => ({ s with tracker := { s.tracker with quicMap := ∅ } }, .idle)

/-- The program of a thread. A call reaches an idle thread only. -/
def next : Action → Shared → Stage → Shared × Stage
  | .call call, s, .idle => (s, .start call)
  | .call _, s, stage => (s, stage)
  | .advance clock, s, stage => s.advance clock stage

end Shared

/-- The threads `ι` and the tracker they share. -/
abbrev System (ι : Type*) := Threads.System ι Shared Stage

/-- All threads idle around an empty tracker. -/
def System.start (ι : Type*) (config : TrackerConfig) : System ι :=
  ⟨.withConfig config, fun _ => .idle⟩

/-- The system after one event: the thread it names acts. -/
def System.step {ι : Type*} [DecidableEq ι] [DeepPacketInspection] :
    System ι → ι × Action → System ι :=
  Threads.step Shared.next

/-! ## A call that is not interrupted -/

section Solo

variable [DeepPacketInspection]

/-- The steps of a thread that runs alone under one reading of the clocks. -/
def solo (clock : ClockReading) (n : ℕ) (s : Shared) (stage : Stage) : Shared × Stage :=
  (List.replicate n (Action.advance clock)).foldl (fun p a => Shared.next a p.1 p.2) (s, stage)

@[simp]
theorem solo_zero (clock : ClockReading) (s : Shared) (stage : Stage) :
    solo clock 0 s stage = (s, stage) := rfl

theorem solo_succ (clock : ClockReading) (n : ℕ) (s : Shared) (stage : Stage) :
    solo clock (n + 1) s stage =
      solo clock n (s.advance clock stage).1 (s.advance clock stage).2 := rfl

theorem solo_add (clock : ClockReading) (m n : ℕ) (s : Shared) (stage : Stage) :
    solo clock (m + n) s stage =
      solo clock n (solo clock m s stage).1 (solo clock m s stage).2 := by
  rw [solo, List.replicate_add, List.foldl_append]
  rfl

/-- The first two steps of an ingest take the locks. -/
theorem solo_received (s : Shared) (parsed : ParsedPacket) (now : SystemTime)
    (clock : ClockReading) :
    solo clock 2 s (.received parsed now) =
      ({ s with tracker := s.tracker.locked parsed clock },
        .keyed parsed now (s.tracker.rtt.observe parsed clock.instant).2
          (s.tracker.resolveKey parsed).2) := rfl

/-- The other three steps check for capacity, and enter the packet or drop it. -/
theorem solo_keyed (s : Shared) (parsed : ParsedPacket) (now : SystemTime)
    (measuredRtt : Option ℕ) (key : String) (clock : ClockReading) :
    solo clock 3 s (.keyed parsed now measuredRtt key) =
      if s.tracker.AtCapacity key then (s, .idle)
      else
        ({ s with
            tracker := s.tracker.enter key parsed now clock measuredRtt
            accepted := parsed :: s.accepted }, .idle) := by
  rw [solo_succ]
  by_cases hmem : key ∈ s.tracker.connections
  -- the key is found and entered, and the thread is idle in the third step
  · have hroom : ¬ s.tracker.AtCapacity key := fun h => h.1 hmem
    have hstep : s.advance clock (.keyed parsed now measuredRtt key) =
        (s, .admitted parsed now measuredRtt key) := by
      rw [Shared.advance, if_pos hmem]
    rw [hstep, if_neg hroom]
    rfl
  -- the key is new, and the length decides
  · have hstep : s.advance clock (.keyed parsed now measuredRtt key) =
        (s, .absent parsed now measuredRtt key) := by
      rw [Shared.advance, if_neg hmem]
    rw [hstep, solo_succ, Shared.advance]
    dsimp only
    by_cases hfull : s.tracker.config.maxConnections ≤ s.tracker.connections.size
    · rw [if_pos hfull, if_pos ⟨hmem, hfull⟩]
      rfl
    · have hroom : ¬ s.tracker.AtCapacity key := fun h => hfull h.2
      rw [if_neg hfull, if_neg hroom]
      rfl

/-- Five steps take an ingest to its end, and a packet that is not dropped is accepted. -/
theorem solo_ingestAt (s : Shared) (parsed : ParsedPacket) (now : SystemTime)
    (clock : ClockReading) :
    solo clock 5 s (.received parsed now) =
      (⟨(s.tracker.ingestAt parsed now clock).1,
        if (s.tracker.ingestAt parsed now clock).2.dropped then s.accepted
          else parsed :: s.accepted,
        s.returned⟩, .idle) := by
  let key := (s.tracker.resolveKey parsed).2
  rw [solo_add clock 2 3, solo_received, solo_keyed]
  -- the locks touch neither the active table nor the limit
  by_cases hfull : s.tracker.AtCapacity key
  · have hlocked : (s.tracker.locked parsed clock).AtCapacity key := hfull
    have hdropped := (ingestAt_dropped_iff s.tracker parsed now clock).mpr hfull
    rw [if_pos hlocked, if_pos hdropped, ingestAt_fst, if_pos hfull]
  · have hlocked : ¬ (s.tracker.locked parsed clock).AtCapacity key := hfull
    have hentered := mt (ingestAt_dropped_iff s.tracker parsed now clock).mp hfull
    rw [if_neg hlocked, if_neg hentered, ingestAt_fst, if_neg hfull]

/-- The archiving steps insert every removed entry. -/
theorem solo_archiving (s : Shared) (now : SystemTime) (order : IterOrder String)
    (toArchive removed : List (String × Connection)) (clock : ClockReading) :
    solo clock toArchive.length s (.archiving now order toArchive removed) =
      ({ s with tracker :=
          { s.tracker with historic := archiveAll s.tracker.historic now toArchive } },
        .archiving now order [] removed) := by
  induction toArchive generalizing s with
  | nil => rfl
  | cons e toArchive ih =>
    rw [List.length_cons, solo_succ]
    exact ih _

/-- The evicting steps erase every chosen key. -/
theorem solo_evicting (s : Shared) (keys : List String) (removed : List (String × Connection))
    (clock : ClockReading) :
    solo clock keys.length s (.evicting keys removed) =
      ({ s with tracker := { s.tracker with historic := s.tracker.historic.eraseAll keys } },
        .evicting [] removed) := by
  induction keys generalizing s with
  | nil => rfl
  | cons key keys ih =>
    rw [List.length_cons, solo_succ]
    exact ih _

/-- The steps of a cleanup after its sweep archive the removed entries. -/
theorem solo_archive (s : Shared) (now : SystemTime) (order : IterOrder String)
    (removed : List (String × Connection)) (clock : ClockReading) :
    ∃ n, solo clock n s
        (if s.tracker.config.keepHistoric then .archiving now order removed removed
          else .evicting [] removed) =
      ({ s with tracker := s.tracker.archive now order removed }, .evicting [] removed) := by
  by_cases hkeep : s.tracker.config.keepHistoric
  · let archived := archiveAll s.tracker.historic now removed
    let excess := archived.size - s.tracker.config.maxHistoric
    -- nothing is evicted from a table within its limit
    obtain ⟨keys, hkeys⟩ : ∃ keys, keys = if s.tracker.config.maxHistoric < archived.size then
      oldestClosed archived order excess else [] := ⟨_, rfl⟩
    have herase : archived.eraseAll keys = if s.tracker.config.maxHistoric < archived.size then
        archived.eraseAll (oldestClosed archived order excess) else archived := by
      rw [hkeys]
      split
      · rfl
      · rfl
    refine ⟨removed.length + 1 + keys.length, ?_⟩
    have harchive : s.tracker.archive now order removed =
        { s.tracker with historic := archived.eraseAll keys } := by
      rw [archive, if_pos hkeep, herase]
    rw [if_pos hkeep, harchive, solo_add, solo_add, solo_archiving]
    -- the step in the middle chooses the keys to evict
    have hselect : solo clock 1
        { s with tracker := { s.tracker with historic := archived } }
        (.archiving now order [] removed) =
          ({ s with tracker := { s.tracker with historic := archived } },
            .evicting keys removed) := by
      rw [hkeys]
      rfl
    rw [hselect, solo_evicting]
  -- without a historic table there is nothing to do
  · refine ⟨0, ?_⟩
    rw [if_neg hkeep, archive, if_neg hkeep]
    rfl

/-- A cleanup takes as many steps as it has entries to archive and to evict, and a few more. -/
theorem solo_cleanup (s : Shared) (now : SystemTime) (order : IterOrder String)
    (clock : ClockReading) :
    ∃ n, solo clock n s (.sweeping now order) =
      (⟨(s.tracker.cleanup now order clock).1, s.accepted,
        (s.tracker.cleanup now order clock).2 ++ s.returned⟩, .idle) := by
  let removed := s.tracker.swept now order clock
  let swept : Shared := { s with tracker := s.tracker.sweep now clock }
  obtain ⟨n, hn⟩ := solo_archive swept now order removed clock
  have hsweep : solo clock 1 s (.sweeping now order) =
      (swept, if swept.tracker.config.keepHistoric then .archiving now order removed removed
        else .evicting [] removed) := rfl
  -- after the last eviction, one step ends the archive and one forgets the mappings
  refine ⟨1 + n + 2, ?_⟩
  rw [solo_add, solo_add, hsweep]
  dsimp only
  rw [hn]
  rfl

/-- A clear takes four steps. -/
theorem solo_clear (s : Shared) (clock : ClockReading) :
    solo clock 4 s .clearing = ({ s with tracker := s.tracker.clear }, .idle) := rfl

/-- A call that no other thread interrupts has the effect of the sequential one, and leaves its
thread idle. -/
theorem exists_solo_step (s : Shared) (call : Call) (clock : ClockReading) :
    ∃ n accepted returned, solo clock n s (.start call) =
      (⟨s.tracker.step (call, clock), accepted, returned⟩, .idle) := by
  cases call with
  | ingestAt parsed now => exact ⟨5, _, _, solo_ingestAt s parsed now clock⟩
  | cleanup now order =>
    obtain ⟨n, hn⟩ := solo_cleanup s now order clock
    exact ⟨n, _, _, hn⟩
  | clear => exact ⟨4, _, _, solo_clear s clock⟩

end Solo

/-- From a state where thread `i` is idle, thread `i` can make a whole call on its own: the tracker
is then as after the sequential call, and the other threads have not moved. -/
theorem exists_step_of_idle {ι : Type*} [DecidableEq ι] [DeepPacketInspection] (s : System ι)
    {i : ι} (hidle : s.locals i = .idle) (call : Call) (clock : ClockReading) :
    ∃ n, let s' := (((.call call :: List.replicate n (.advance clock)).map (Prod.mk i)).foldl
        System.step s)
      s'.shared.tracker = s.shared.tracker.step (call, clock) ∧ s'.locals = s.locals := by
  obtain ⟨n, accepted, returned, hn⟩ := exists_solo_step s.shared call clock
  refine ⟨n, ?_⟩
  -- alone, a thread carries its call to the end
  have hrun : (.call call :: List.replicate n (Action.advance clock)).foldl
      (fun p a => Shared.next a p.1 p.2) (s.shared, s.locals i) =
        (⟨s.shared.tracker.step (call, clock), accepted, returned⟩, .idle) := by
    rw [List.foldl_cons, hidle]
    exact hn
  dsimp only
  rw [System.step, Threads.foldl_solo]
  dsimp only
  rw [hrun]
  exact ⟨rfl, by rw [← hidle, Function.update_eq_self]⟩

end ConnectionTracker

end RustNet
