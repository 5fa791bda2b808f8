import RustNet.Network.Tracker.Threads

/-!
# Conservation of packets and bytes

Whatever order the threads move in, every packet whose ingest was not dropped is counted once: in
an active connection, in a connection that a cleanup under way has removed, or in one that a
cleanup has returned. The one step that counts is the entry operation. It decides between creation
and merge by the table it finds, so it does not matter what became of the entry after the worker
looked for it.

## Main definitions

* `Measure`: a weight of connections that creation and merge increase by a weight of the packet;
* `NoOverflow`: the step overflows no counter.

## Main results

* `next_moves`: a step moves a measure between the shared state and the acting thread, and adds the
  weight of the packet it accepts;
* `run_conserves`: packets and bytes are conserved by every schedule without `clear`.
-/

namespace RustNet

namespace ConnectionTracker

/-- The entries that a cleanup under way has removed and not returned yet. -/
def Stage.removed : Stage → List (String × Connection)
  | .archiving _ _ _ removed => removed
  | .evicting _ removed => removed
  | .unmapping removed => removed
  | _ => []

section Conserved

variable [DeepPacketInspection]

/-- A weight of connections that counts packets by a weight of their own. -/
structure Measure where
  ofConnection : Connection → ℕ
  ofPacket : ParsedPacket → ℕ
  /-- A new connection weighs what its first packet weighs. -/
  freshEntry_eq : ∀ parsed now clock measuredRtt,
    ofConnection (freshEntry parsed now clock measuredRtt) = ofPacket parsed
  /-- A merge adds the weight of the packet. -/
  mergeEntry_eq : ∀ parsed now clock measuredRtt (conn : Connection), conn.Fits parsed →
    ofConnection (mergeEntry parsed now clock measuredRtt conn) =
      ofConnection conn + ofPacket parsed

/-- Packets in both directions: a packet adds one, whether it starts an entry or is merged into
one. -/
def Measure.packets : Measure where
  ofConnection := Connection.packetCount
  ofPacket _ := 1
  freshEntry_eq parsed now clock _ := create_packetCount parsed now clock
  mergeEntry_eq parsed now clock _ _ h := merge_packetCount parsed now clock h

/-- Bytes in both directions: a packet adds its length, whether it starts an entry or is merged into
one. -/
def Measure.bytes : Measure where
  ofConnection := Connection.byteCount
  ofPacket parsed := parsed.packetLen.toNat
  freshEntry_eq parsed now clock _ := create_byteCount parsed now clock
  mergeEntry_eq parsed now clock _ _ h := merge_byteCount parsed now clock h

namespace Measure

variable (μ : Measure)

/-- The weight in the shared state: the active connections and the returned ones. -/
def holds (s : Shared) : ℕ :=
  s.tracker.connections.total μ.ofConnection + (s.returned.map μ.ofConnection).sum

/-- The weight of the packets entered. -/
def owes (s : Shared) : ℕ := (s.accepted.map μ.ofPacket).sum

/-- The weight a thread has removed and not returned yet. -/
def carries (stage : Stage) : ℕ := (stage.removed.map fun e => μ.ofConnection e.2).sum

/-- An entry operation adds the weight of its packet to the active table. -/
theorem total_enter (t : ConnectionTracker) (key : String) (parsed : ParsedPacket)
    (now : SystemTime) (clock : ClockReading) (measuredRtt : Option ℕ)
    (hfits : ∀ conn ∈ t.connections.lookup key, conn.Fits parsed) :
    (t.enter key parsed now clock measuredRtt).connections.total μ.ofConnection =
      t.connections.total μ.ofConnection + μ.ofPacket parsed := by
  apply AList.total_upsert
  -- whichever branch the entry operation takes, the packet is weighed once
  · intro conn hconn
    exact μ.mergeEntry_eq parsed now clock measuredRtt conn (hfits conn hconn)
  · exact μ.freshEntry_eq parsed now clock measuredRtt

end Measure

section Step

variable {ι : Type*}

/-- The step overflows no counter: the packet of an entry operation fits the connection it is
merged into. -/
def NoOverflow (s : System ι) (e : ι × Action) : Prop :=
  match e.2, s.locals e.1 with
  | .advance _, .admitted parsed _ _ key =>
    ∀ conn ∈ s.shared.tracker.connections.lookup key, conn.Fits parsed
  | _, _ => True

/-- A step that clears nothing and overflows no counter moves a measure between the shared state
and the acting thread, and adds the weight of the packet it accepts. -/
theorem next_moves (μ : Measure) (s : System ι) (e : ι × Action)
    (hclear : s.locals e.1 ≠ .clearing) (hfits : NoOverflow s e) :
    μ.holds (Shared.next e.2 s.shared (s.locals e.1)).1 +
        μ.carries (Shared.next e.2 s.shared (s.locals e.1)).2 + μ.owes s.shared =
      μ.holds s.shared + μ.carries (s.locals e.1) +
        μ.owes (Shared.next e.2 s.shared (s.locals e.1)).1 := by
  obtain ⟨i, action⟩ := e
  dsimp only at hclear hfits ⊢
  cases action with
  | call call =>
    cases hstage : s.locals i with
    | idle => cases call <;> rfl
    | _ => rfl
  | advance clock =>
    unfold NoOverflow at hfits
    -- only the entry operation, the sweep and the return move or add weight
    cases hstage : s.locals i with
    | keyed parsed now measuredRtt key =>
      simp only [Shared.next, Shared.advance]
      split <;> rfl
    | absent parsed now measuredRtt key =>
      simp only [Shared.next, Shared.advance]
      split <;> rfl
    | admitted parsed now measuredRtt key =>
      simp only [hstage] at hfits
      -- the table gains what the accepted packet weighs
      have htotal := μ.total_enter s.shared.tracker key parsed now clock measuredRtt hfits
      simp only [Shared.next, Shared.advance, Measure.holds, Measure.owes, List.map_cons,
        List.sum_cons, htotal, Measure.carries, Stage.removed]
      omega
    | sweeping now order =>
      -- the thread carries what the table lost
      have htotal := s.shared.tracker.total_sweep now clock order μ.ofConnection
      have hcarries : μ.carries (Shared.next (.advance clock) s.shared (.sweeping now order)).2 =
          ((s.shared.tracker.swept now order clock).map fun e => μ.ofConnection e.2).sum := by
        simp only [Shared.next, Shared.advance]
        split <;> rfl
      rw [hcarries]
      simp only [Shared.next, Shared.advance, Measure.holds, Measure.owes, Measure.carries,
        Stage.removed, List.map_nil, List.sum_nil]
      omega
    | archiving now order toArchive removed => cases toArchive <;> rfl
    | evicting keys removed => cases keys <;> rfl
    | unmapping removed =>
      -- what the thread carried is returned
      have hconnections : (Shared.next (.advance clock) s.shared
          (.unmapping removed)).1.tracker.connections = s.shared.tracker.connections := by
        simp only [Shared.next, Shared.advance]
        split <;> rfl
      have hreturned : (removed.map Prod.snd).map μ.ofConnection =
          removed.map fun e => μ.ofConnection e.2 := List.map_map
      rw [Measure.holds, hconnections]
      simp only [Shared.next, Shared.advance, Measure.holds, Measure.owes, Measure.carries,
        Stage.removed, List.map_append, List.sum_append, hreturned, List.map_nil, List.sum_nil]
      omega
    | clearing => exact absurd hstage hclear
    | _ => rfl

instance (s : System ι) (e : ι × Action) : Decidable (NoOverflow s e) := by
  unfold NoOverflow
  split <;> infer_instance

end Step

/-! ## Schedules without `clear` -/

section Schedules

variable {ι : Type*} [DecidableEq ι]

/-- A thread comes to clear the active table only by a call of `clear`. -/
theorem next_ne_clearing {action : Action} {stage : Stage} (s : Shared)
    (haction : action ≠ .call .clear) (hstage : stage ≠ .clearing) :
    (Shared.next action s stage).2 ≠ .clearing := by
  cases action with
  | call call =>
    cases stage with
    -- only an idle thread listens to a call
    | idle =>
      cases call with
      | clear => exact absurd rfl haction
      | _ => exact Stage.noConfusion
    | clearing => exact absurd rfl hstage
    | _ => exact Stage.noConfusion
  | advance clock =>
    cases stage with
    | keyed | absent | sweeping =>
      simp only [Shared.next, Shared.advance]
      split <;> exact Stage.noConfusion
    | archiving now order toArchive removed => cases toArchive <;> exact Stage.noConfusion
    | evicting keys removed => cases keys <;> exact Stage.noConfusion
    | _ => exact Stage.noConfusion

/-- Without a call of `clear` no thread ever comes to clear the active table. -/
theorem along_ne_clearing {s : System ι} {events : List (ι × Action)}
    (hs : ∀ i, s.locals i ≠ .clearing) (hclear : ∀ e ∈ events, e.2 ≠ .call .clear) :
    Run.Along System.step (fun s e => s.locals e.1 ≠ .clearing) s events := by
  induction events generalizing s with
  | nil => trivial
  | cons e events ih =>
    refine ⟨hs e.1, ih ?_ fun e' he' => hclear e' (List.mem_cons_of_mem _ he')⟩
    intro j
    -- the acting thread does not start to clear, and the others do not move
    by_cases hj : j = e.1
    · subst hj
      rw [System.step, Threads.step_locals_self]
      exact next_ne_clearing _ (hclear e List.mem_cons_self) (hs e.1)
    · rw [System.step, Threads.step_locals_of_ne _ hj]
      exact hs j

variable [Fintype ι]

/-- A measure is conserved in every state of a schedule that clears nothing and overflows no
counter. -/
theorem always_balanced (μ : Measure) (config : TrackerConfig) {events : List (ι × Action)}
    (hclear : ∀ e ∈ events, e.2 ≠ .call .clear)
    (hfits : Run.Along System.step NoOverflow (System.start ι config) events) :
    Run.Always System.step (Threads.Balanced μ.holds μ.owes μ.carries)
      (System.start ι config) events := by
  refine Threads.balanced_of_along
    (fun s e he => next_moves μ s e he.1 he.2) ?_
    ((along_ne_clearing (fun _ => Stage.noConfusion) hclear).and hfits)
  -- at the start there is nothing to weigh
  simp [Threads.Balanced, Measure.holds, Measure.owes, Measure.carries, System.start,
    Shared.withConfig, withConfig, Stage.removed]

/-- The weight `f` of the active connections. -/
def System.active (f : Connection → ℕ) (s : System ι) : ℕ := s.shared.tracker.connections.total f

/-- The weight `f` of the connections that cleanups have returned. -/
def System.returned (f : Connection → ℕ) (s : System ι) : ℕ := (s.shared.returned.map f).sum

/-- The weight `f` of the connections that cleanups under way have removed and will return. -/
def System.underway (f : Connection → ℕ) (s : System ι) : ℕ :=
  ∑ i, ((s.locals i).removed.map fun e => f e.2).sum

/-- In every state of every schedule without `clear` (`hclear`) in which no counter overflows
(`hfits`), the active connections and those removed by cleanups together count as many packets, and
as many bytes, as the packets that were not dropped. When no cleanup is under way, the removed
connections are the returned ones. The threads `ι` are any number, and each table operation is a
step of its own. -/
theorem run_conserves (config : TrackerConfig) (events : List (ι × Action))
    (hclear : ∀ e ∈ events, e.2 ≠ .call .clear)
    (hfits : Run.Along System.step NoOverflow (System.start ι config) events) :
    let s := events.foldl System.step (System.start ι config)
    s.active Connection.packetCount +
          (s.returned Connection.packetCount + s.underway Connection.packetCount) =
        s.shared.accepted.length ∧
      s.active Connection.byteCount +
          (s.returned Connection.byteCount + s.underway Connection.byteCount) =
        (s.shared.accepted.map fun parsed => parsed.packetLen.toNat).sum ∧
      ((∀ i, (s.locals i).removed = []) →
        s.underway Connection.packetCount = 0 ∧ s.underway Connection.byteCount = 0) := by
  intro s
  have hpackets := (always_balanced Measure.packets config hclear hfits).last
  have hbytes := (always_balanced Measure.bytes config hclear hfits).last
  -- one packet is owed for each that was accepted
  have howes : Measure.packets.owes s.shared = s.shared.accepted.length := by
    simp [Measure.owes, Measure.packets]
  refine ⟨?_, ?_, ?_⟩
  · rw [← howes, ← add_assoc]
    exact hpackets
  · rw [← add_assoc]
    exact hbytes
  · intro hidle
    simp [System.underway, hidle]

end Schedules

end Conserved

/-- Two threads enter a packet of the same flow at the same time; the second one then cleans up. -/
def sharedFlowEvents : List (Bool × Action) :=
  let parsed := ParsedPacket.ofUdp (.lan 1 5000) (.lan 2 53) none true 60
  [(false, .call (.ingestAt parsed ⟨0⟩)), (true, .call (.ingestAt parsed ⟨0⟩))] ++
    (List.replicate 5 [(false, .advance (.constant 0)), (true, .advance (.constant 0))]).flatten ++
    [(true, .call (.cleanup ⟨Duration.fromSecs 100⟩ (.listed String)))] ++
    List.replicate 5 (true, .advance (.constant 0))

/-- Both packets are in the connection that the cleanup returned. -/
theorem sharedFlow_conserves :
    letI : DeepPacketInspection := .silent
    let s := sharedFlowEvents.foldl System.step (System.start Bool .default)
    (s.active Connection.packetCount +
        (s.returned Connection.packetCount + s.underway Connection.packetCount) =
      s.shared.accepted.length) ∧ s.returned Connection.packetCount = 2 := by
  intro s
  have hclear : ∀ e ∈ sharedFlowEvents, e.2 ≠ .call .clear := by simp [sharedFlowEvents]
  have hfits : letI : DeepPacketInspection := .silent
      Run.Along System.step NoOverflow (System.start Bool .default) sharedFlowEvents := by
    decide +kernel
  have hconserved := @run_conserves .silent _ _ _ .default sharedFlowEvents hclear hfits
  exact ⟨hconserved.1, by decide +kernel⟩

end ConnectionTracker

end RustNet
