import RustNet.Foundations.CheckThenAct
import RustNet.Network.Tracker.Threads

/-!
# The active table under concurrent ingests

A worker checks the capacity and inserts its entry in two steps. When other workers insert in
between, its check no longer holds, and the insertion takes the table over its limit.

Between the check and the insertion the workers run the pattern of `CheckThenAct`, so the table
exceeds its limit by less than the number of threads.

## Main definitions

* `StaleEntry`: an entry operation whose capacity check would now fail.

## Main results

* `run_withinLimit_iff`: the table stays within its limit exactly along the schedules without a
  stale entry;
* `run_size_le`: along every schedule it exceeds the limit by less than the number of threads.
-/

namespace RustNet

namespace ConnectionTracker

/-- The key that an admitted ingest is about to enter. -/
def Stage.admittedKey : Stage → Option String
  | .admitted _ _ _ key => some key
  | _ => none

section Steps

variable [DeepPacketInspection]

/-- No step changes the configuration. -/
@[simp]
theorem next_config (action : Action) (s : Shared) (stage : Stage) :
    (Shared.next action s stage).1.tracker.config = s.tracker.config := by
  cases action with
  | call call => cases stage <;> rfl
  | advance clock =>
    cases stage with
    | archiving now order toArchive removed => cases toArchive <;> rfl
    | evicting keys removed => cases keys <;> rfl
    | unmapping removed =>
      simp only [Shared.next, Shared.advance]
      split <;> rfl
    | _ => rfl

/-- Only an entry operation adds a key to the active table. -/
theorem mem_of_mem_next (action : Action) (s : Shared) {stage : Stage}
    (hstage : stage.admittedKey = none) {key : String}
    (hkey : key ∈ (Shared.next action s stage).1.tracker.connections) :
    key ∈ s.tracker.connections := by
  cases action with
  | call call => cases stage <;> exact hkey
  | advance clock =>
    cases stage with
    -- a sweep and a clear take keys away, and every other stage leaves the table alone
    | admitted parsed now measuredRtt key => exact absurd hstage (Option.some_ne_none key)
    | sweeping now order =>
      obtain ⟨conn, hconn, -⟩ := AList.mem_retain.mp hkey
      exact AList.mem_of_lookup hconn
    | clearing => exact absurd hkey (AList.notMem_empty key)
    | archiving now order toArchive removed => cases toArchive <;> exact hkey
    | evicting keys removed => cases keys <;> exact hkey
    | unmapping removed =>
      simp only [Shared.next, Shared.advance] at hkey
      split at hkey <;> exact hkey
    | _ => exact hkey

/-- A thread is admitted only by a step that leaves the table alone, and that found its key in the
table or the table below its limit. -/
theorem admittedKey_next (action : Action) (s : Shared) {stage : Stage}
    (hstage : stage.admittedKey = none) :
    (Shared.next action s stage).2.admittedKey = none ∨
      ∃ key, (Shared.next action s stage).2.admittedKey = some key ∧
        (Shared.next action s stage).1.tracker.connections = s.tracker.connections ∧
        (key ∈ s.tracker.connections ∨
          s.tracker.connections.size < s.tracker.config.maxConnections) := by
  cases action with
  | call call =>
    cases stage with
    | idle => cases call <;> exact Or.inl rfl
    | _ => exact Or.inl hstage
  | advance clock =>
    cases stage with
    -- `contains_key` admits a thread whose key is in the table
    | keyed parsed now measuredRtt key =>
      by_cases hmem : key ∈ s.tracker.connections
      · refine Or.inr ⟨key, ?_, rfl, Or.inl hmem⟩
        rw [Shared.next, Shared.advance, if_pos hmem]
        rfl
      · left
        rw [Shared.next, Shared.advance, if_neg hmem]
        rfl
    -- `len` admits a thread that finds room
    | absent parsed now measuredRtt key =>
      by_cases hfull : s.tracker.config.maxConnections ≤ s.tracker.connections.size
      · left
        rw [Shared.next, Shared.advance, if_pos hfull]
        rfl
      · refine Or.inr ⟨key, ?_, rfl, Or.inr (Nat.lt_of_not_le hfull)⟩
        rw [Shared.next, Shared.advance, if_neg hfull]
        rfl
    | sweeping now order =>
      left
      simp only [Shared.next, Shared.advance]
      split <;> rfl
    | archiving now order toArchive removed => cases toArchive <;> exact Or.inl rfl
    | evicting keys removed => cases keys <;> exact Or.inl rfl
    | _ => exact Or.inl rfl

/-- A call does not reach an admitted thread. -/
theorem next_call_of_admittedKey {stage : Stage} {key : String}
    (hstage : stage.admittedKey = some key) (call : Call) (s : Shared) :
    Shared.next (.call call) s stage = (s, stage) := by
  cases stage with
  | idle => exact absurd hstage.symm (Option.some_ne_none key)
  | _ => rfl

/-- An admitted thread enters its key, and its call is over. -/
theorem next_advance_of_admittedKey {stage : Stage} {key : String}
    (hstage : stage.admittedKey = some key) (clock : ClockReading) (s : Shared) :
    (∃ modify fresh, (Shared.next (.advance clock) s stage).1.tracker.connections =
        s.tracker.connections.upsert key modify fresh) ∧
      (Shared.next (.advance clock) s stage).2.admittedKey = none := by
  cases stage with
  | admitted parsed now measuredRtt key' =>
    obtain rfl : key' = key := Option.some.inj hstage
    exact ⟨⟨_, _, rfl⟩, rfl⟩
  | _ => exact absurd hstage.symm (Option.some_ne_none key)

end Steps

/-! ## When the limit is kept -/

section Limit

variable {ι : Type*}

/-- The active table is within its limit. -/
def System.WithinLimit (s : System ι) : Prop :=
  s.shared.tracker.connections.size ≤ s.shared.tracker.config.maxConnections

/-- The event is an entry operation whose capacity check, made again now, would fail: the key is
new and the table is full. -/
def StaleEntry (s : System ι) : ι × Action → Prop
  | (i, .advance _) => ∃ key, (s.locals i).admittedKey = some key ∧ s.shared.tracker.AtCapacity key
  | (_, .call _) => False

variable [DecidableEq ι] [DeepPacketInspection]

@[simp]
theorem step_config (s : System ι) (e : ι × Action) :
    (s.step e).shared.tracker.config = s.shared.tracker.config :=
  next_config ..

/-- A step keeps the table within its limit exactly if it is no stale entry. -/
theorem step_withinLimit_iff {s : System ι} (hs : s.WithinLimit) (e : ι × Action) :
    (s.step e).WithinLimit ↔ ¬ StaleEntry s e := by
  obtain ⟨i, action⟩ := e
  rw [System.WithinLimit, step_config, System.step, Threads.step_shared]
  dsimp only
  cases hadm : (s.locals i).admittedKey with
  -- the step adds no key, and it is no entry operation
  | none =>
    have hsize := AList.size_le_of_subset fun key hkey =>
      mem_of_mem_next action s.shared hadm hkey
    refine iff_of_true (hsize.trans hs) ?_
    cases action with
    | call call => exact id
    | advance clock =>
      rintro ⟨key, hkey, -⟩
      exact Option.some_ne_none key (hkey.symm.trans hadm)
  | some key =>
    cases action with
    | call call =>
      rw [next_call_of_admittedKey hadm]
      exact iff_of_true hs id
    | advance clock =>
      obtain ⟨⟨modify, fresh, hupsert⟩, -⟩ := next_advance_of_admittedKey hadm clock s.shared
      have hstale : StaleEntry s (i, .advance clock) ↔ s.shared.tracker.AtCapacity key := by
        simp [StaleEntry, hadm]
      rw [hupsert, hstale, AList.upsert]
      -- the table grows if the key is new, and then there must be room for it
      by_cases hmem : key ∈ s.shared.tracker.connections
      · rw [AList.size_insert_of_mem hmem]
        exact iff_of_true hs fun hfull => hfull.1 hmem
      · rw [AList.size_insert_of_notMem hmem, AtCapacity]
        simp only [hmem, not_false_eq_true, true_and, not_le]
        exact Nat.succ_le_iff

/-- Under any schedule of any threads, the active table is within its limit in every state exactly
if no entry operation of the schedule comes after its capacity check has become stale. The check and
the entry operation are two steps, between which other threads can insert; `StaleEntry` makes the
check again in the state before the second step. -/
theorem run_withinLimit_iff (config : TrackerConfig) (events : List (ι × Action)) :
    Run.Always System.step System.WithinLimit (System.start ι config) events ↔
      Run.Along System.step (fun s e => ¬ StaleEntry s e) (System.start ι config) events :=
  Run.always_iff_along (fun _ e hs => step_withinLimit_iff hs e) (Nat.zero_le _)

end Limit

/-- Two workers of a tracker with room for one connection enter a packet of a flow each. -/
def twoFlowEvents : List (Bool × Action) :=
  [(false, .call (.ingestAt (.ofUdp (.lan 1 5000) (.lan 2 53) none true 60) ⟨0⟩)),
    (true, .call (.ingestAt (.ofUdp (.lan 1 5001) (.lan 2 53) none true 60) ⟨0⟩))] ++
    (List.replicate 5 [(false, .advance (.constant 0)), (true, .advance (.constant 0))]).flatten

/-- Both workers find room, and the table ends with two connections. -/
theorem twoFlows_exceed_limit :
    letI : DeepPacketInspection := .silent
    ¬ (twoFlowEvents.foldl System.step
        (System.start Bool { TrackerConfig.default with maxConnections := 1 })).WithinLimit := by
  rw [System.WithinLimit]
  decide +kernel

/-! ## How far the limit is exceeded -/

section Admission

variable {ι : Type*}

/-- The keys of the active table and of the admitted ingests. -/
def admission (s : System ι) : CheckThenAct.State ι String :=
  ⟨s.shared.tracker.connections.keys.toFinset, Stage.admittedKey ∘ s.locals⟩

theorem mem_admission_present {s : System ι} {key : String} :
    key ∈ (admission s).present ↔ key ∈ s.shared.tracker.connections := by
  rw [admission, List.mem_toFinset, AList.mem_keys]

theorem card_admission_present (s : System ι) :
    (admission s).present.card = s.shared.tracker.connections.size :=
  AList.card_toFinset_keys _

variable [DecidableEq ι] [DeepPacketInspection]

theorem admission_step_pending (s : System ι) (e : ι × Action) :
    (admission (s.step e)).pending =
      Function.update (admission s).pending e.1
        (Shared.next e.2 s.shared (s.locals e.1)).2.admittedKey := by
  rw [admission, System.step, Threads.step_locals, Function.comp_update]
  rfl

/-- Every step of the threads is a step of check-then-act. -/
theorem step_admission (s : System ι) (e : ι × Action) :
    CheckThenAct.Step s.shared.tracker.config.maxConnections (admission s)
      (admission (s.step e)) := by
  have hpending := admission_step_pending s e
  obtain ⟨i, action⟩ := e
  cases hadm : (s.locals i).admittedKey with
  -- a thread that is not admitted may be now, and otherwise adds no key
  | none =>
    rcases admittedKey_next action s.shared hadm with
      hnone | ⟨key, hsome, hsame, hcheck⟩
    · have hstep : admission (s.step (i, action)) =
          { admission s with present := (admission (s.step (i, action))).present } := by
        ext1
        · rfl
        · rw [hpending, hnone, ← hadm]
          exact Function.update_eq_self i (admission s).pending
      rw [hstep]
      refine CheckThenAct.Step.shrink _ _ fun key hkey => ?_
      rw [mem_admission_present] at hkey ⊢
      exact mem_of_mem_next action s.shared hadm hkey
    · have hstep : admission (s.step (i, action)) =
          { admission s with pending := Function.update (admission s).pending i (some key) } := by
        ext1
        · rw [admission, System.step, Threads.step_shared, hsame]
          rfl
        · rw [hpending, hsome]
      rw [hstep]
      -- which of the two checks it passed
      rcases hcheck with hmem | hroom
      · exact .admitKnown _ i key (mem_admission_present.mpr hmem)
      · exact .admitRoom _ i key ((card_admission_present s).trans_lt hroom)
  -- an admitted thread enters its key
  | some key =>
    cases action with
    | call call =>
      have hstep : s.step (i, .call call) = s :=
        Threads.step_eq_self (next_call_of_admittedKey hadm call s.shared)
      rw [hstep]
      exact .shrink _ _ (Finset.Subset.refl _)
    | advance clock =>
      obtain ⟨⟨modify, fresh, hupsert⟩, hdone⟩ := next_advance_of_admittedKey hadm clock s.shared
      have hstep : admission (s.step (i, .advance clock)) =
          ⟨insert key (admission s).present, Function.update (admission s).pending i none⟩ := by
        ext1
        · ext key'
          rw [mem_admission_present, System.step, Threads.step_shared, hupsert, AList.mem_upsert,
            Finset.mem_insert, mem_admission_present]
        · rw [hpending, hdone]
      rw [hstep]
      exact .act _ i key hadm

/-- Every schedule of the threads is a run of check-then-act. -/
theorem run_admission (s : System ι) (events : List (ι × Action)) :
    Relation.ReflTransGen (CheckThenAct.Step s.shared.tracker.config.maxConnections)
      (admission s) (admission (events.foldl System.step s)) := by
  induction events generalizing s with
  | nil => exact .refl
  | cons e events ih =>
    have hrest := ih (s.step e)
    -- the limit is the same after the step
    rw [step_config] at hrest
    exact .head (step_admission s e) hrest

/-- Under any schedule the active table exceeds its limit by less than the number of threads. -/
theorem run_size_le [Fintype ι] (config : TrackerConfig) (events : List (ι × Action)) :
    (events.foldl System.step (System.start ι config)).shared.tracker.connections.size ≤
      config.maxConnections + (Fintype.card ι - 1) := by
  -- at the start no key is in the table, and no thread is admitted
  have hstart : CheckThenAct.claimed (admission (System.start ι config)) = ∅ := by
    rw [Finset.eq_empty_iff_forall_notMem]
    intro key hkey
    rcases CheckThenAct.mem_claimed.mp hkey with hpresent | ⟨i, hpending⟩
    · exact AList.notMem_empty key (mem_admission_present.mp hpresent)
    · exact Option.some_ne_none key hpending.symm
  rw [← card_admission_present]
  refine CheckThenAct.card_present_le (run_admission (System.start ι config) events) ?_
  rw [hstart, Finset.card_empty]
  exact Nat.zero_le _

end Admission

end ConnectionTracker

end RustNet
