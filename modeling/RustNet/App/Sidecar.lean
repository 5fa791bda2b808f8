import RustNet.App.Snapshot

/-!
# The connection records of a PCAP export

With PCAP export on, a record of every connection is to go to a sidecar file. The cleanup thread
writes the connections its sweep removed, one after the other, and `stop` writes those of the
current snapshot. `main` calls `stop` when the user interface has ended, and dropping the
application calls it again.

The threads take turns in any order. A pass of the snapshot thread, a sweep and a clear are one step
each, while the publication of the snapshot and the writing of each record are steps of their own.
The file can be opened and the clock stands after the epoch, so that every record can be written.

Connections are told apart by serial numbers, which exist for the specification only.

## Main definitions

* `SidecarApp`, `SidecarApp.step`: the state of the application, and its steps;
* `SidecarApp.Undisturbed`: the steps that neither lose a connection nor write one twice.

## Main results

* `ledger_step`: such a step keeps every connection in exactly one place;
* `exactlyOnce_of_along`: after a run of such steps that has left no connection behind, each was
  written exactly once;
* `twice_of_mem_snapshot`: what the snapshot shows when the application stops is written twice.
-/

namespace RustNet

/-- A connection with its serial number. -/
abbrev Record := ℕ × Connection

/-- Where the cleanup thread is. -/
inductive CleanupPoint
  /-- Before the check of the stop flag, or asleep. -/
  | waiting
  /-- Past the check. -/
  | sweeping
  /-- With the records of removed connections still to write. -/
  | writing (removed : List Record)

/-- Where the snapshot thread is. -/
inductive ProviderPoint
  /-- Before the check of the stop flag, or asleep. -/
  | waiting
  /-- Past the check. -/
  | collecting
  /-- With a snapshot to publish. -/
  | publishing (snapshotData : List Record)

/-- How far the application is from its end. -/
inductive Phase
  | running | stopped | dropped
deriving DecidableEq

/-- The application, as far as the sidecar file depends on it. -/
structure SidecarApp where
  tracker : ConnectionTracker
  showHistoric : Bool
  provider : ProviderPoint
  /-- `connections_snapshot`. -/
  snapshot : List Record
  cleanupThread : CleanupPoint
  /-- The records in the file. -/
  sidecar : List Record
  phase : Phase
  /-- How many connections were ever tracked. -/
  tracked : ℕ
  /-- The serial numbers of the connections in the active table. -/
  serial : String → ℕ
  /-- The serial numbers of the connections in the historic table. -/
  historicSerial : String → ℕ

/-- A step of a thread, with what the environment decides for it. -/
inductive SidecarEvent
  | ingest (parsed : ParsedPacket) (now : SystemTime) (clock : ClockReading)
  | enterCleanup
  | sweep (now : SystemTime) (order : IterOrder String) (clock : ClockReading)
  | writeRecord
  | enterSnapshot
  | collect (pass : SnapshotPass)
  | publish
  | setShowHistoric (showHistoric : Bool)
  | clear
  | stop
  | drop

namespace SidecarApp

/-- The application before the first packet. -/
def start (config : TrackerConfig) : SidecarApp where
  tracker := .withConfig config
  showHistoric := false
  provider := .waiting
  snapshot := []
  cleanupThread := .waiting
  sidecar := []
  phase := .running
  tracked := 0
  serial := fun _ => 0
  historicSerial := fun _ => 0

/-- The serial number of an element of a snapshot. -/
def serialOf (s : SidecarApp) : Origin → ℕ
  | .active key => s.serial key
  | .historic key => s.historicSerial key

/-- The records the cleanup thread has still to write. -/
def pending (s : SidecarApp) : List Record :=
  match s.cleanupThread with
  | .writing removed => removed
  | _ => []

/-- `stop`: the connections of the snapshot are written, in every call. -/
def writeSnapshot (s : SidecarApp) (phase : Phase) : SidecarApp :=
  { s with sidecar := s.sidecar ++ s.snapshot, phase := phase }

section Steps

variable [DeepPacketInspection] (filterLocalhost : Bool)

/-- One step. A step that no thread is ready for changes nothing. -/
def step (s : SidecarApp) : SidecarEvent → SidecarApp
  | .ingest parsed now clock =>
    let (tracker, outcome) := s.tracker.ingestAt parsed now clock
    -- a connection that comes back under an old key is a new one
    if outcome.created then
      { s with
        tracker := tracker
        tracked := s.tracked + 1
        serial := Function.update s.serial outcome.key s.tracked }
    else { s with tracker := tracker }
  | .enterCleanup =>
    match s.cleanupThread, s.phase with
    | .waiting, .running => { s with cleanupThread := .sweeping }
    | _, _ => s
  | .sweep now order clock =>
    match s.cleanupThread with
    | .sweeping =>
      let removed := s.tracker.swept now order clock
      -- a historic copy replaces an older one of the same historic key
      { s with
        tracker := (s.tracker.cleanup now order clock).1
        cleanupThread := .writing (removed.map fun e => (s.serial e.1, e.2))
        historicSerial := removed.foldl (fun serials e =>
          Function.update serials (ConnectionTracker.historicKey e.1 e.2) (s.serial e.1))
          s.historicSerial }
    | _ => s
  | .writeRecord =>
    match s.cleanupThread with
    | .writing (record :: removed) =>
      { s with sidecar := s.sidecar ++ [record], cleanupThread := .writing removed }
    | .writing [] => { s with cleanupThread := .waiting }
    | _ => s
  | .enterSnapshot =>
    match s.provider, s.phase with
    | .waiting, .running => { s with provider := .collecting }
    | _, _ => s
  | .collect pass =>
    match s.provider with
    | .collecting =>
      -- the toggle is read during the pass
      let elements :=
        { pass with showHistoric := s.showHistoric }.elements filterLocalhost s.tracker
      { s with provider := .publishing (elements.map fun e => (s.serialOf e.1, e.2)) }
    | _ => s
  | .publish =>
    match s.provider with
    | .publishing snapshotData => { s with provider := .waiting, snapshot := snapshotData }
    | _ => s
  | .setShowHistoric showHistoric =>
    if s.phase = .running then { s with showHistoric := showHistoric } else s
  | .clear =>
    if s.phase = .running then
      { s with tracker := s.tracker.clear, showHistoric := false, snapshot := [] }
    else s
  | .stop => if s.phase = .running then s.writeSnapshot .stopped else s
  | .drop => if s.phase = .stopped then s.writeSnapshot .dropped else s

/-! ## Exactly once -/

/-- Every connection that was ever tracked has exactly one record in the file. -/
def ExactlyOnce (s : SidecarApp) : Prop :=
  ∀ n < s.tracked, (s.sidecar.map Prod.fst).count n = 1

/-- A clear finds no connection in the active table, and the application is stopped and dropped
with an empty snapshot. -/
def Undisturbed (s : SidecarApp) : SidecarEvent → Prop
  | .clear => s.tracker.connections = ∅
  | .stop => s.snapshot = []
  | .drop => s.snapshot = []
  | _ => True

/-- The serial numbers of the connections in the active table. -/
def live (s : SidecarApp) : List ℕ := s.tracker.connections.keys.map s.serial

/-- Every connection is in exactly one place: in the file, with the cleanup thread, or in the
active table. -/
def Ledger (s : SidecarApp) : Prop :=
  (s.sidecar.map Prod.fst ++ (s.pending.map Prod.fst ++ s.live)).Perm (List.range s.tracked)

variable {filterLocalhost}

omit [DeepPacketInspection] in
theorem ledger_start (config : TrackerConfig) : Ledger (start config) := List.Perm.refl []

omit [DeepPacketInspection] in
/-- The serial numbers of other keys stay when one key gets the next number. -/
theorem map_update_serial {keys : List String} {key : String} (h : key ∉ keys)
    (serial : String → ℕ) (n : ℕ) : keys.map (Function.update serial key n) = keys.map serial := by
  apply List.map_congr_left
  intro key' hkey'
  have hne : key' ≠ key := fun heq => h (heq ▸ hkey')
  exact Function.update_of_ne hne n serial

/-- A packet puts a new connection into the active table, or leaves the ledger alone. -/
theorem ledger_ingest {s : SidecarApp} (hs : Ledger s) (parsed : ParsedPacket) (now : SystemTime)
    (clock : ClockReading) : Ledger (step filterLocalhost s (.ingest parsed now clock)) := by
  cases hcreated : (s.tracker.ingestAt parsed now clock).2.created with
  | true =>
    have hkeys := s.tracker.keys_ingestAt_of_created parsed now clock hcreated
    have hnew : (s.tracker.resolveKey parsed).2 ∉ s.tracker.connections.keys := fun hmem =>
      ((s.tracker.ingestAt_created_iff parsed now clock).mp hcreated).1 (AList.mem_keys.mpr hmem)
    have hlive : (step filterLocalhost s (.ingest parsed now clock)).live =
        s.tracked :: s.live := by
      simp only [step, hcreated, if_true, live, hkeys, List.map_cons,
        ConnectionTracker.ingestAt_key, Function.update_self, map_update_serial hnew]
    have hrest : (step filterLocalhost s (.ingest parsed now clock)).sidecar = s.sidecar ∧
        (step filterLocalhost s (.ingest parsed now clock)).pending = s.pending ∧
          (step filterLocalhost s (.ingest parsed now clock)).tracked = s.tracked + 1 := by
      simp [step, hcreated, pending]
    rw [Ledger, hlive, hrest.1, hrest.2.1, hrest.2.2, List.range_succ, ← List.append_assoc]
    -- the new number comes to stand at the end
    refine List.perm_middle.trans ?_
    rw [List.append_assoc]
    exact (hs.cons s.tracked).trans (List.perm_append_singleton _ _).symm
  | false =>
    -- an update and a dropped packet leave the keys as they are, up to their order
    have hkeys := s.tracker.keys_ingestAt_of_not_created parsed now clock hcreated
    simp only [Ledger, live, pending, step, hcreated, Bool.false_eq_true, if_false] at hs ⊢
    exact (((hkeys.map s.serial).append_left _).append_left _).trans hs

/-- A sweep moves the connections it removes from the active table to the cleanup thread. -/
theorem ledger_sweep {s : SidecarApp} (hs : Ledger s) (now : SystemTime)
    (order : IterOrder String) (clock : ClockReading) :
    Ledger (step filterLocalhost s (.sweep now order clock)) := by
  unfold step
  cases hpoint : s.cleanupThread with
  | waiting => exact hs
  | writing removed => exact hs
  | sweeping =>
    -- the keys are those that stay and those that are swept
    have hkeys : (((s.tracker.swept now order clock).map Prod.fst) ++
        (s.tracker.cleanup now order clock).1.connections.keys).Perm s.tracker.connections.keys := by
      have hentries := s.tracker.connections.entriesIn_perm order
      have hswept := (hentries.filter fun e => ConnectionTracker.expired now clock e.1 e.2).map
        Prod.fst
      rw [List.filter_map, List.map_map] at hswept
      rw [ConnectionTracker.cleanup_connections]
      refine (hswept.append_right _).trans ?_
      have hsplit := (List.filter_append_perm (fun e : Σ _ : String, Connection =>
        ConnectionTracker.expired now clock e.1 e.2) s.tracker.connections.entries).map Sigma.fst
      rw [List.map_append] at hsplit
      exact hsplit
    -- so are their numbers
    have hmap := hkeys.map s.serial
    rw [List.map_append] at hmap
    simp only [Ledger, pending, hpoint, List.map_nil, List.nil_append, live, List.map_map] at hs ⊢
    refine (List.Perm.append_left _ ?_).trans hs
    rw [List.map_map] at hmap
    exact hmap

/-- An undisturbed step keeps every connection in exactly one place. -/
theorem ledger_step {s : SidecarApp} {e : SidecarEvent} (hs : Ledger s) (he : Undisturbed s e) :
    Ledger (step filterLocalhost s e) := by
  cases e with
  | ingest parsed now clock => exact ledger_ingest hs parsed now clock
  | sweep now order clock => exact ledger_sweep hs now order clock
  | writeRecord =>
    unfold step
    cases hpoint : s.cleanupThread with
    | waiting => exact hs
    | sweeping => exact hs
    | writing removed =>
      cases removed with
      | nil =>
        simp only [Ledger, pending, hpoint] at hs ⊢
        exact hs
      -- the record goes from the thread to the file
      | cons record removed =>
        simp only [Ledger, pending, hpoint, List.map_cons, List.map_append, List.map_nil] at hs ⊢
        rw [List.append_assoc]
        exact hs
  | enterCleanup =>
    unfold step
    cases hpoint : s.cleanupThread <;> cases hphase : s.phase <;>
      simpa only [Ledger, pending, hpoint, live] using hs
  | enterSnapshot =>
    unfold step
    cases s.provider <;> cases s.phase <;> exact hs
  | collect pass =>
    unfold step
    cases s.provider <;> exact hs
  | publish =>
    unfold step
    cases s.provider <;> exact hs
  | setShowHistoric showHistoric =>
    unfold step
    simp only
    split <;> exact hs
  | clear =>
    unfold step
    simp only
    split
    -- there is nothing to lose
    · have hempty : s.tracker.connections = ∅ := he
      simp only [Ledger, live, pending, hempty, ConnectionTracker.clear] at hs ⊢
      exact hs
    · exact hs
  | stop | drop =>
    have hempty : s.snapshot = [] := he
    unfold step
    simp only
    split
    · simp only [Ledger, live, pending, writeSnapshot, hempty, List.append_nil] at hs ⊢
      exact hs
    · exact hs

/-- Throughout an undisturbed run every connection is in exactly one place. -/
theorem always_ledger (config : TrackerConfig) {events : List SidecarEvent}
    (h : Run.Along (step filterLocalhost) Undisturbed (start config) events) :
    Run.Always (step filterLocalhost) Ledger (start config) events :=
  Run.always_of_along (fun _ _ hs he => ledger_step hs he) (ledger_start config) h

/-- Whenever an undisturbed run has left no connection in the active table (`hlive`) or with the
cleanup thread (`hpending`), each was written exactly once. The worker, the cleanup thread, the
snapshot thread, clears, the stop and the drop take their steps in any order; `Undisturbed` asks of
a clear that there is nothing to clear, and of the stop and the drop that there is no snapshot to
write again. -/
theorem exactlyOnce_of_along (config : TrackerConfig) (filterLocalhost : Bool)
    {events : List SidecarEvent}
    (h : Run.Along (step filterLocalhost) Undisturbed (start config) events)
    (hlive : (events.foldl (step filterLocalhost) (start config)).tracker.connections = ∅)
    (hpending : (events.foldl (step filterLocalhost) (start config)).pending = []) :
    ExactlyOnce (events.foldl (step filterLocalhost) (start config)) := by
  -- nothing is left but the file, which then lists all numbers
  have hledger := (always_ledger config h).last
  simp only [Ledger, live, hlive, hpending, AList.keys_empty, List.map_nil, List.append_nil]
    at hledger
  intro n hn
  rw [hledger.count_eq]
  exact List.count_eq_one_of_mem List.nodup_range (List.mem_range.mpr hn)

/-! ## What the snapshot shows in the end -/

/-- No step takes a record out of the file. -/
theorem sidecar_prefix_step (s : SidecarApp) (e : SidecarEvent) :
    s.sidecar <+: (step filterLocalhost s e).sidecar := by
  cases e with
  | ingest parsed now clock =>
    simp only [step]
    split <;> exact List.prefix_refl _
  -- the two writers of the file: the cleanup thread record by record, and the last flush
  | writeRecord =>
    unfold step
    cases s.cleanupThread with
    | waiting | sweeping => exact List.prefix_refl _
    | writing removed =>
      cases removed with
      | nil => exact List.prefix_refl _
      | cons record removed => exact List.prefix_append _ _
  | sweep now order clock =>
    unfold step
    cases s.cleanupThread <;> exact List.prefix_refl _
  | enterCleanup =>
    unfold step
    cases s.cleanupThread <;> cases s.phase <;> exact List.prefix_refl _
  | enterSnapshot =>
    unfold step
    cases s.provider <;> cases s.phase <;> exact List.prefix_refl _
  | collect pass =>
    unfold step
    cases s.provider <;> exact List.prefix_refl _
  | publish =>
    unfold step
    cases s.provider <;> exact List.prefix_refl _
  | setShowHistoric showHistoric =>
    unfold step
    simp only
    split <;> exact List.prefix_refl _
  | clear =>
    unfold step
    simp only
    split <;> exact List.prefix_refl _
  | stop | drop =>
    unfold step
    simp only
    split
    · exact List.prefix_append _ _
    · exact List.prefix_refl _

theorem sidecar_prefix_foldl (s : SidecarApp) (events : List SidecarEvent) :
    s.sidecar <+: (events.foldl (step filterLocalhost) s).sidecar := by
  induction events generalizing s with
  | nil => exact List.prefix_refl _
  | cons e events ih => exact (sidecar_prefix_step s e).trans (ih _)

/-- Between `stop` and `drop` only a publication changes the snapshot. -/
theorem step_stopped {s : SidecarApp} {e : SidecarEvent} (hphase : s.phase = .stopped)
    (hpublish : e ≠ .publish) (hdrop : e ≠ .drop) :
    (step filterLocalhost s e).phase = .stopped ∧
      (step filterLocalhost s e).snapshot = s.snapshot := by
  cases e with
  | publish => exact absurd rfl hpublish
  | drop => exact absurd rfl hdrop
  -- no other thread writes the snapshot, and none leaves `stopped`
  | ingest parsed now clock =>
    simp only [step]
    split <;> exact ⟨hphase, rfl⟩
  | enterCleanup =>
    unfold step
    cases s.cleanupThread <;> simp only [hphase, and_self]
  | sweep now order clock =>
    unfold step
    cases s.cleanupThread <;> exact ⟨hphase, rfl⟩
  | writeRecord =>
    unfold step
    cases s.cleanupThread with
    | waiting | sweeping => exact ⟨hphase, rfl⟩
    | writing removed => cases removed <;> exact ⟨hphase, rfl⟩
  | enterSnapshot =>
    unfold step
    cases s.provider <;> simp only [hphase, and_self]
  | collect pass =>
    unfold step
    cases s.provider <;> exact ⟨hphase, rfl⟩
  | setShowHistoric _ | clear | stop => simp [step, hphase]

theorem foldl_stopped {s : SidecarApp} {events : List SidecarEvent} (hphase : s.phase = .stopped)
    (hevents : ∀ e ∈ events, e ≠ .publish ∧ e ≠ .drop) :
    (events.foldl (step filterLocalhost) s).phase = .stopped ∧
      (events.foldl (step filterLocalhost) s).snapshot = s.snapshot := by
  induction events generalizing s with
  | nil => exact ⟨hphase, rfl⟩
  | cons e events ih =>
    obtain ⟨hpublish, hdrop⟩ := hevents e List.mem_cons_self
    obtain ⟨hphase', hsnapshot⟩ := @step_stopped _ filterLocalhost s e hphase hpublish hdrop
    rw [List.foldl_cons, ← hsnapshot]
    exact ih hphase' fun e' he' => hevents e' (List.mem_cons_of_mem e he')

/-- A connection that the snapshot shows when the application stops is written twice, unless
another snapshot is published before the application is dropped. -/
theorem twice_of_mem_snapshot {s : SidecarApp} (hphase : s.phase = .running)
    {between after : List SidecarEvent} (hbetween : ∀ e ∈ between, e ≠ .publish ∧ e ≠ .drop)
    {n : ℕ} (hn : n ∈ s.snapshot.map Prod.fst) :
    2 ≤ ((((.stop :: between) ++ .drop :: after).foldl (step filterLocalhost) s).sidecar.map
      Prod.fst).count n := by
  have hstop : step filterLocalhost s .stop = s.writeSnapshot .stopped := by
    rw [step, if_pos hphase]
  -- the two calls write the same snapshot
  obtain ⟨hphase', hsnapshot⟩ := @foldl_stopped _ filterLocalhost
    (s.writeSnapshot .stopped) between rfl hbetween
  have hdrop : (step filterLocalhost (between.foldl (step filterLocalhost)
      (s.writeSnapshot .stopped)) .drop).sidecar =
      (between.foldl (step filterLocalhost) (s.writeSnapshot .stopped)).sidecar ++ s.snapshot := by
    rw [step, if_pos hphase', writeSnapshot, hsnapshot, writeSnapshot]
  have hfirst := @sidecar_prefix_foldl _ filterLocalhost (s.writeSnapshot .stopped) between
  have hsecond := @sidecar_prefix_foldl _ filterLocalhost
    (step filterLocalhost (between.foldl (step filterLocalhost)
      (s.writeSnapshot .stopped)) .drop) after
  rw [List.foldl_append, List.foldl_cons, List.foldl_cons, hstop]
  -- the file only grows, so that both copies are there in the end
  have hpos : 1 ≤ (s.snapshot.map Prod.fst).count n := List.count_pos_iff.mpr hn
  have hbefore := (hfirst.sublist.map Prod.fst).count_le n
  have hall := (hsecond.sublist.map Prod.fst).count_le n
  rw [writeSnapshot, List.map_append, List.count_append] at hbefore
  rw [hdrop, List.map_append, List.count_append] at hall
  refine le_trans ?_ hall
  rw [writeSnapshot]
  omega

end Steps

/-! ## Two runs -/

/-- A UDP packet, the only one of the connection in the samples. -/
def sidecarPacket : ParsedPacket := .ofUdp (.lan 1 5000) (.lan 2 53) none true 60

/-- One connection, shown by the snapshot when the application ends. -/
def shownRun : List SidecarEvent :=
  [.ingest sidecarPacket ⟨0⟩ (.constant 0), .enterSnapshot, .collect (passAt ⟨0⟩), .publish, .stop,
    .drop]

/-- The connection is written twice. -/
theorem shownRun_not_exactlyOnce :
    letI : DeepPacketInspection := .silent
    ¬ ExactlyOnce (shownRun.foldl (step false) (start .default)) := by
  intro h
  exact absurd (h 0 (by decide +kernel)) (by decide +kernel)

/-- One connection, removed by the cleanup before the application ends. -/
def removedRun : List SidecarEvent :=
  [.ingest sidecarPacket ⟨0⟩ (.constant 0), .enterCleanup,
    .sweep ⟨Duration.fromSecs 100⟩ (.listed String) (.constant (Duration.fromSecs 100)),
    .writeRecord, .stop, .drop]

/-- The connection is written once. -/
theorem removedRun_exactlyOnce :
    letI : DeepPacketInspection := .silent
    ExactlyOnce (removedRun.foldl (step false) (start .default)) := by
  let _ : DeepPacketInspection := .silent
  have hguard : Run.Along (step false) Undisturbed (start .default) removedRun :=
    ⟨trivial, trivial, trivial, trivial, rfl, rfl, trivial⟩
  exact exactlyOnce_of_along .default false hguard (by rfl) (by rfl)

end SidecarApp

end RustNet
