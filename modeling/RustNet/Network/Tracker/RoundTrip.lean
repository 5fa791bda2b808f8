import RustNet.Network.Tracker.Basic

/-!
# Matching SYNs and SYN-ACKs

A run of the RTT tracker is a list of operations with the clock readings they make. The SYNs are
numbered, for the specification only, so that a sample can be traced back to the SYN it measures
from. A pending SYN expires only when some other SYN is recorded: `record_syn_ack` does not look
at its age.

## Main definitions

* `RttOp`, `RttTracker.after`: the operations, and the tracker after one of them;
* `RttRun`: the tracker with the numbered SYNs and the samples returned so far;
* `EndsWait`: what takes a pending SYN out of the tracker.

## Main results

* `lookup_foldl_after_iff`: the pending SYN of a key is the last one that nothing has ended;
* `returned_sound_iff`: no SYN yields two samples, and all samples are within the pending age
  exactly if every SYN-ACK finds its SYN gone or young enough.
-/

namespace RustNet

/-- An operation of the RTT tracker. -/
inductive RttOp
  | syn (key : ConnectionKey)
  | synAck (key : ConnectionKey)
  | cleanupStale
  | clear
  | takeAverage (windowSecs : ℕ)
deriving DecidableEq

namespace RttTracker

/-- The tracker after one operation, with its reading of the clock. -/
def after (t : RttTracker) (e : Instant × RttOp) : RttTracker :=
  match e.2 with
  | .syn key => t.recordSyn key e.1
  | .synAck key => (t.recordSynAck key e.1).1
  | .cleanupStale => t.cleanupStale e.1
  | .clear => t.clear
  | .takeAverage windowSecs => (t.takeAverageRtt windowSecs e.1).1

/-- The round-trip time that an operation returns. -/
def returns (t : RttTracker) (e : Instant × RttOp) : Option ℕ :=
  match e.2 with
  | .synAck key => (t.recordSynAck key e.1).2
  | _ => none

end RttTracker

/-! ## The tracker inside the connection tracker -/

/-- The operation that a packet asks of the RTT tracker. -/
def ParsedPacket.rttOp? (parsed : ParsedPacket) : Option RttOp :=
  parsed.tcpHeader.bind fun header =>
    let key : ConnectionKey := ⟨parsed.localAddr, parsed.remoteAddr⟩
    if header.flags.syn then some (if header.flags.ack then .synAck key else .syn key) else none

/-- The operation of a call. -/
def ConnectionTracker.Call.rttOp? : ConnectionTracker.Call → Option RttOp
  | .ingestAt parsed _ => parsed.rttOp?
  | .cleanup _ _ => none
  | .clear => some .clear

/-- What a packet does to the RTT tracker, and the time it is handed back, are those of its
operation. -/
theorem RttTracker.observe_eq (t : RttTracker) (parsed : ParsedPacket) (instant : Instant) :
    t.observe parsed instant =
      (parsed.rttOp?.elim t fun op => t.after (instant, op),
        parsed.rttOp?.bind fun op => t.returns (instant, op)) := by
  unfold RttTracker.observe ParsedPacket.rttOp?
  cases parsed.tcpHeader with
  | none => rfl
  | some header =>
    cases hsyn : header.flags.syn <;> cases hack : header.flags.ack <;>
      simp [hsyn, hack, after, returns]

/-- Every call makes at most one operation of the RTT tracker. -/
theorem ConnectionTracker.step_rtt [DeepPacketInspection] (t : ConnectionTracker)
    (call : ConnectionTracker.Call) (clock : ClockReading) :
    (t.step (call, clock)).rtt =
      call.rttOp?.elim t.rtt fun op => t.rtt.after (clock.instant, op) := by
  cases call with
  | ingestAt parsed now =>
    show (t.ingestAt parsed now clock).1.rtt = parsed.rttOp?.elim _ _
    have hlocked : (t.locked parsed clock).rtt = parsed.rttOp?.elim t.rtt fun op =>
        t.rtt.after (clock.instant, op) := by
      rw [ConnectionTracker.locked, RttTracker.observe_eq]
    rw [ConnectionTracker.ingestAt_fst]
    split <;> exact hlocked
  | cleanup now order =>
    show (t.cleanup now order clock).1.rtt = t.rtt
    rw [ConnectionTracker.cleanup_fst]
    unfold ConnectionTracker.forgetMappings ConnectionTracker.archive
    split <;> rfl
  | clear => rfl

/-! ## Pending SYNs -/

/-- What takes a SYN of `key` recorded at `since` out of the tracker: a newer one or a SYN-ACK of the
key, a cleanup that finds it `age` old, or clearing everything. Recording a SYN cleans up. -/
def EndsWait (age : ℕ) (key : ConnectionKey) (since : Instant) (e : Instant × RttOp) : Prop :=
  match e.2 with
  | .syn key' => key' = key ∨ since.nanos + age ≤ e.1.nanos
  | .synAck key' => key' = key
  | .cleanupStale => since.nanos + age ≤ e.1.nanos
  | .clear => True
  | .takeAverage _ => False

namespace RttTracker

variable (t : RttTracker) (key key' : ConnectionKey) (now since : Instant)

@[simp]
theorem after_maxPendingAge (e : Instant × RttOp) : (t.after e).maxPendingAge = t.maxPendingAge := by
  unfold after
  split
  · rfl
  · unfold recordSynAck
    split <;> rfl
  all_goals rfl

theorem lookup_cleanupStale_iff :
    (t.cleanupStale now).pendingSyns.lookup key = some since ↔
      t.pendingSyns.lookup key = some since ∧ now.nanos < since.nanos + t.maxPendingAge := by
  rw [cleanupStale, AList.lookup_retain, Option.filter_eq_some_iff, decide_eq_true_iff,
    sub_lt_iff_lt_add]

theorem lookup_recordSynAck :
    (t.recordSynAck key' now).1.pendingSyns.lookup key =
      if key = key' then none else t.pendingSyns.lookup key := by
  unfold recordSynAck
  cases hpending : t.pendingSyns.lookup key' with
  | some syn =>
    show (t.pendingSyns.erase key').lookup key = _
    by_cases hkey : key = key'
    · rw [if_pos hkey, hkey, AList.lookup_erase]
    · rw [if_neg hkey, AList.lookup_erase_ne hkey]
  | none =>
    show t.pendingSyns.lookup key = _
    by_cases hkey : key = key'
    · rw [if_pos hkey, hkey, hpending]
    · rw [if_neg hkey]

/-- A SYN is pending after an operation that records it, or if it was pending and the operation does
not end its wait. -/
theorem lookup_after_iff (hage : 0 < t.maxPendingAge) (e : Instant × RttOp) :
    (t.after e).pendingSyns.lookup key = some since ↔
      e = (since, .syn key) ∨
        t.pendingSyns.lookup key = some since ∧ ¬ EndsWait t.maxPendingAge key since e := by
  obtain ⟨now, op⟩ := e
  cases op with
  | syn key' =>
    show ({ t with pendingSyns := t.pendingSyns.insert key' now }.cleanupStale now).pendingSyns.lookup
      key = some since ↔ _
    rw [lookup_cleanupStale_iff]
    by_cases hkey : key = key'
    -- the new SYN replaces the pending one, and is not stale
    · subst hkey
      simp only [AList.lookup_insert, EndsWait, true_or, not_true, and_false, or_false,
        Option.some.injEq, Prod.mk.injEq, and_true]
      constructor
      · exact And.left
      · rintro rfl
        exact ⟨rfl, by omega⟩
    · simp only [AList.lookup_insert_ne hkey, EndsWait, Prod.mk.injEq, RttOp.syn.injEq,
        Ne.symm hkey, and_false, false_or, not_le]
  | synAck key' =>
    show (t.recordSynAck key' now).1.pendingSyns.lookup key = some since ↔ _
    rw [lookup_recordSynAck]
    by_cases hkey : key = key'
    · simp [hkey, EndsWait]
    · simp [hkey, EndsWait, Ne.symm hkey]
  | cleanupStale =>
    show (t.cleanupStale now).pendingSyns.lookup key = some since ↔ _
    rw [lookup_cleanupStale_iff]
    simp [EndsWait]
  | clear => simp [after, clear, EndsWait]
  | takeAverage windowSecs => simp [after, takeAverageRtt, EndsWait]

/-- The pending SYN of a key is the last one recorded whose wait nothing has ended. -/
theorem lookup_foldl_after_iff (l : List (Instant × RttOp)) :
    (l.foldl after new).pendingSyns.lookup key = some since ↔
      ∃ before between, l = before ++ (since, .syn key) :: between ∧
        ∀ e ∈ between, ¬ EndsWait (Duration.fromSecs 30) key since e := by
  have hage : ∀ l : List (Instant × RttOp),
      (l.foldl after new).maxPendingAge = Duration.fromSecs 30 := fun l =>
    Run.foldl_of_step (I := fun t : RttTracker => t.maxPendingAge = Duration.fromSecs 30)
      (fun t e ht => by rw [after_maxPendingAge, ht]) rfl
  induction l using List.reverseRecOn with
  | nil =>
    constructor
    · intro h
      cases h
    · rintro ⟨before, between, h, -⟩
      simp at h
  | append_singleton l e ih =>
    rw [List.foldl_append, List.foldl_cons, List.foldl_nil,
      lookup_after_iff _ _ _ (by rw [hage]; decide), hage]
    refine (or_congr_right (and_congr_left fun _ => ih)).trans ?_
    constructor
    · rintro (rfl | ⟨⟨before, between, rfl, hwait⟩, he⟩)
      · exact ⟨l, [], rfl, by simp⟩
      · refine ⟨before, between ++ [e], by simp, fun e' he' => ?_⟩
        rcases List.mem_append.mp he' with hmem | hlast
        · exact hwait e' hmem
        · rw [List.mem_singleton.mp hlast]
          exact he
    · rintro ⟨before, between, hl, hwait⟩
      -- the SYN is the last event, or the last event came after it
      rcases Run.cut_append_singleton hl with ⟨rfl, rfl, rfl⟩ | ⟨rest, rfl, rfl⟩
      · exact Or.inl rfl
      · exact Or.inr ⟨⟨before, rest, rfl, fun e' he' => hwait e' (List.mem_append_left _ he')⟩,
          hwait e (by simp)⟩

/-- A SYN-ACK returns the age of the pending SYN. -/
theorem returns_eq_some_iff {e : Instant × RttOp} {rtt : ℕ} :
    t.returns e = some rtt ↔ ∃ key since, e.2 = .synAck key ∧
      t.pendingSyns.lookup key = some since ∧ rtt = (e.1.nanos - since.nanos).toNat := by
  obtain ⟨now, op⟩ := e
  cases op with
  | synAck key =>
    show (t.recordSynAck key now).2 = some rtt ↔ _
    unfold recordSynAck
    cases hpending : t.pendingSyns.lookup key with
    | some since => simp [hpending, eq_comm]
    | none => simp [hpending]
  | _ => simp [returns]

end RttTracker

/-! ## Numbered SYNs -/

/-- A run of the tracker. -/
structure RttRun where
  tracker : RttTracker
  /-- How many SYNs were recorded. -/
  syns : ℕ
  /-- The number of the SYN recorded last for a key. -/
  filed : ConnectionKey → ℕ
  /-- The samples returned so far, each with the number of its SYN. -/
  returned : List (ℕ × ℕ)

namespace RttRun

/-- Before the first operation: an empty tracker, no SYN recorded and no sample returned. -/
def start : RttRun := ⟨.new, 0, fun _ => 0, []⟩

/-- One operation; a SYN gets the next number. -/
def next (s : RttRun) (e : Instant × RttOp) : RttRun where
  tracker := s.tracker.after e
  syns := match e.2 with
    | .syn _ => s.syns + 1
    | _ => s.syns
  filed := match e.2 with
    | .syn key => Function.update s.filed key s.syns
    | _ => s.filed
  returned := match e.2, s.tracker.returns e with
    | .synAck key, some rtt => (s.filed key, rtt) :: s.returned
    | _, _ => s.returned

/-- No two samples come from one SYN, and no pending SYN has yielded a sample. -/
structure OncePerSyn (s : RttRun) : Prop where
  filed_lt : ∀ key ∈ s.tracker.pendingSyns, s.filed key < s.syns
  filed_inj : ∀ key ∈ s.tracker.pendingSyns, ∀ key' ∈ s.tracker.pendingSyns,
    s.filed key = s.filed key' → key = key'
  filed_fresh : ∀ key ∈ s.tracker.pendingSyns, s.filed key ∉ s.returned.map Prod.fst
  returned_lt : ∀ n ∈ s.returned.map Prod.fst, n < s.syns
  nodup : (s.returned.map Prod.fst).Nodup

/-- An operation that records no SYN and returns no sample keeps the numbers. -/
theorem OncePerSyn.of_subset {s s' : RttRun} (h : s.OncePerSyn)
    (hpending : ∀ key ∈ s'.tracker.pendingSyns, key ∈ s.tracker.pendingSyns)
    (hsyns : s'.syns = s.syns) (hfiled : s'.filed = s.filed) (hreturned : s'.returned = s.returned) :
    s'.OncePerSyn where
  filed_lt key hkey := by
    rw [hfiled, hsyns]
    exact h.filed_lt key (hpending key hkey)
  filed_inj key hkey key' hkey' := by
    rw [hfiled]
    exact h.filed_inj key (hpending key hkey) key' (hpending key' hkey')
  filed_fresh key hkey := by
    rw [hfiled, hreturned]
    exact h.filed_fresh key (hpending key hkey)
  returned_lt := by
    rw [hreturned, hsyns]
    exact h.returned_lt
  nodup := by
    rw [hreturned]
    exact h.nodup

/-- A key pending after an operation was pending before, or the operation is its SYN. -/
theorem pending_next {s : RttRun} (hage : 0 < s.tracker.maxPendingAge) {e : Instant × RttOp}
    {key : ConnectionKey} (h : key ∈ (s.next e).tracker.pendingSyns) :
    e.2 = .syn key ∨ key ∈ s.tracker.pendingSyns ∧ e.2 ≠ .synAck key := by
  obtain ⟨since, hsince⟩ := AList.mem_iff_exists_lookup.mp h
  rcases (s.tracker.lookup_after_iff key since hage e).mp hsince with rfl | ⟨hold, hwait⟩
  · exact Or.inl rfl
  · refine Or.inr ⟨AList.mem_of_lookup hold, fun hop => hwait ?_⟩
    rw [EndsWait, hop]

/-- Recording a SYN keeps the numbers apart: its number is above all others. -/
theorem oncePerSyn_syn {s : RttRun} (hage : 0 < s.tracker.maxPendingAge) (h : s.OncePerSyn)
    (now : Instant) (key : ConnectionKey) : (s.next (now, .syn key)).OncePerSyn := by
  have hold : ∀ key' ∈ (s.next (now, .syn key)).tracker.pendingSyns, key' ≠ key →
      key' ∈ s.tracker.pendingSyns := by
    intro key' hkey' hne
    rcases pending_next hage hkey' with hsyn | ⟨hmem, -⟩
    · exact absurd (RttOp.syn.inj hsyn).symm hne
    · exact hmem
  have hnew : (s.next (now, .syn key)).filed key = s.syns := Function.update_self ..
  have hkept : ∀ key' ≠ key, (s.next (now, .syn key)).filed key' = s.filed key' := fun key' hne =>
    Function.update_of_ne hne ..
  -- the other pending keys keep their numbers, all below the new one
  have hbelow : ∀ key' ∈ (s.next (now, .syn key)).tracker.pendingSyns, key' ≠ key →
      (s.next (now, .syn key)).filed key' < s.syns := by
    intro key' hkey' hne
    rw [hkept key' hne]
    exact h.filed_lt key' (hold key' hkey' hne)
  exact
    { filed_lt := by
        intro key' hkey'
        by_cases hne : key' = key
        · rw [hne, hnew]
          exact Nat.lt_succ_self s.syns
        · exact (hbelow key' hkey' hne).trans (Nat.lt_succ_self s.syns)
      filed_inj := by
        intro key₁ hkey₁ key₂ hkey₂ heq
        by_cases hne₁ : key₁ = key <;> by_cases hne₂ : key₂ = key
        · rw [hne₁, hne₂]
        · rw [hne₁, hnew] at heq
          exact absurd heq.symm (hbelow key₂ hkey₂ hne₂).ne
        · rw [hne₂, hnew] at heq
          exact absurd heq (hbelow key₁ hkey₁ hne₁).ne
        · rw [hkept key₁ hne₁, hkept key₂ hne₂] at heq
          exact h.filed_inj key₁ (hold key₁ hkey₁ hne₁) key₂ (hold key₂ hkey₂ hne₂) heq
      filed_fresh := by
        intro key' hkey' hreturned
        by_cases hne : key' = key
        · rw [hne, hnew] at hreturned
          exact lt_irrefl _ (h.returned_lt _ hreturned)
        · rw [hkept key' hne] at hreturned
          exact h.filed_fresh key' (hold key' hkey' hne) hreturned
      returned_lt := fun n hn => (h.returned_lt n hn).trans (Nat.lt_succ_self s.syns)
      nodup := h.nodup }

/-- Answering a SYN takes its number out of the pending ones. -/
theorem oncePerSyn_synAck {s : RttRun} (hage : 0 < s.tracker.maxPendingAge) (h : s.OncePerSyn)
    (now : Instant) (key : ConnectionKey) : (s.next (now, .synAck key)).OncePerSyn := by
  have hold : ∀ key' ∈ (s.next (now, .synAck key)).tracker.pendingSyns,
      key' ∈ s.tracker.pendingSyns ∧ key' ≠ key := by
    intro key' hkey'
    rcases pending_next hage hkey' with hsyn | ⟨hmem, hne⟩
    · cases hsyn
    · exact ⟨hmem, fun heq => hne (by rw [heq])⟩
  -- an answer to a SYN that is not pending returns nothing
  cases hreturns : s.tracker.returns (now, .synAck key) with
  | none =>
    refine h.of_subset (fun key' hkey' => (hold key' hkey').1) rfl rfl ?_
    simp only [next, hreturns]
  | some rtt =>
    have hpending : key ∈ s.tracker.pendingSyns := by
      obtain ⟨key', since, hop, hlookup, -⟩ := s.tracker.returns_eq_some_iff.mp hreturns
      rw [RttOp.synAck.inj hop]
      exact AList.mem_of_lookup hlookup
    have hreturned : (s.next (now, .synAck key)).returned.map Prod.fst =
        s.filed key :: s.returned.map Prod.fst := by
      simp only [next, hreturns, List.map_cons]
    exact
      { filed_lt := fun key' hkey' => h.filed_lt key' (hold key' hkey').1
        filed_inj := fun key₁ hkey₁ key₂ hkey₂ =>
          h.filed_inj key₁ (hold key₁ hkey₁).1 key₂ (hold key₂ hkey₂).1
        filed_fresh := by
          intro key' hkey' hmem
          rw [hreturned] at hmem
          rcases List.mem_cons.mp hmem with heq | hearlier
          · exact (hold key' hkey').2 (h.filed_inj key' (hold key' hkey').1 key hpending heq)
          · exact h.filed_fresh key' (hold key' hkey').1 hearlier
        returned_lt := by
          intro n hn
          rw [hreturned] at hn
          rcases List.mem_cons.mp hn with rfl | hearlier
          · exact h.filed_lt key hpending
          · exact h.returned_lt n hearlier
        nodup := by
          rw [hreturned]
          exact List.nodup_cons.mpr ⟨h.filed_fresh key hpending, h.nodup⟩ }

/-- Every operation keeps the numbers apart. -/
theorem oncePerSyn_next {s : RttRun} (hage : 0 < s.tracker.maxPendingAge) (h : s.OncePerSyn)
    (e : Instant × RttOp) : (s.next e).OncePerSyn := by
  obtain ⟨now, op⟩ := e
  have hrest (hop : ∀ key, op ≠ .syn key) : ∀ key ∈ (s.next (now, op)).tracker.pendingSyns,
      key ∈ s.tracker.pendingSyns := fun key hkey =>
    ((pending_next hage hkey).resolve_left (hop key)).1
  cases op with
  | syn key => exact oncePerSyn_syn hage h now key
  | synAck key => exact oncePerSyn_synAck hage h now key
  | cleanupStale => exact h.of_subset (hrest fun _ => RttOp.noConfusion) rfl rfl rfl
  | clear => exact h.of_subset (hrest fun _ => RttOp.noConfusion) rfl rfl rfl
  | takeAverage windowSecs => exact h.of_subset (hrest fun _ => RttOp.noConfusion) rfl rfl rfl

/-! ## Runs -/

/-- No SYN yields two samples. -/
theorem nodup_returned (l : List (Instant × RttOp)) :
    ((l.foldl next start).returned.map Prod.fst).Nodup := by
  have hstart : start.OncePerSyn := ⟨by simp [start, RttTracker.new], by simp [start, RttTracker.new],
    by simp [start, RttTracker.new], by simp [start], by simp [start]⟩
  have hkeep : ∀ (s : RttRun) (e : Instant × RttOp),
      0 < s.tracker.maxPendingAge ∧ s.OncePerSyn →
        0 < (s.next e).tracker.maxPendingAge ∧ (s.next e).OncePerSyn := by
    intro s e hs
    refine ⟨?_, oncePerSyn_next hs.1 hs.2 e⟩
    show 0 < (s.tracker.after e).maxPendingAge
    rw [RttTracker.after_maxPendingAge]
    exact hs.1
  have h := Run.foldl_of_step (l := l) hkeep ⟨by decide, hstart⟩
  exact h.2.nodup

/-- Every SYN-ACK that finds its SYN pending finds it at most `age` old: since a SYN of its key that
is older, something has ended the wait. -/
def AnsweredInTime (age : ℕ) (events : List (Instant × RttOp)) : Prop :=
  ∀ before between after key syn ack,
    events = before ++ (syn, .syn key) :: between ++ (ack, .synAck key) :: after →
    (∀ e ∈ between, ¬ EndsWait age key syn e) → ack.nanos ≤ syn.nanos + age

/-- The samples after an operation are the earlier ones and the one it returns. -/
theorem forall_returned_next_iff {P : ℕ → Prop} (s : RttRun) (e : Instant × RttOp) :
    (∀ r ∈ (s.next e).returned, P r.2) ↔
      (∀ r ∈ s.returned, P r.2) ∧ ∀ rtt ∈ s.tracker.returns e, P rtt := by
  obtain ⟨now, op⟩ := e
  cases op with
  | synAck key =>
    cases hreturns : s.tracker.returns (now, .synAck key) with
    | none => simp [next, hreturns]
    | some rtt => simp [next, hreturns, and_comm]
  | _ => simp [next, RttTracker.returns]

/-- The samples of a run are those its operations return. -/
theorem forall_returned_iff {P : ℕ → Prop} (s : RttRun) (l : List (Instant × RttOp)) :
    (∀ r ∈ (l.foldl next s).returned, P r.2) ↔
      (∀ r ∈ s.returned, P r.2) ∧
        Run.Along RttTracker.after (fun t e => ∀ rtt ∈ t.returns e, P rtt) s.tracker l := by
  induction l generalizing s with
  | nil => simp
  | cons e l ih => rw [List.foldl_cons, ih, forall_returned_next_iff, Run.along_cons, and_assoc]; rfl

/-- No SYN yields two samples, and no sample is above the maximum pending age, exactly if every
SYN-ACK finds its SYN gone or at most that old. The events are any operations of the tracker, on any
keys and at any times. A SYN that is recorded takes out the old ones; a SYN-ACK does not look at the
age of the one that it finds. -/
theorem returned_sound_iff (events : List (Instant × RttOp)) :
    (((events.foldl next start).returned.map Prod.fst).Nodup ∧
        ∀ r ∈ (events.foldl next start).returned, r.2 ≤ Duration.fromSecs 30) ↔
      AnsweredInTime (Duration.fromSecs 30) events := by
  have hreturned := forall_returned_iff (P := fun rtt => rtt ≤ Duration.fromSecs 30) start events
  rw [and_iff_right (nodup_returned events)]
  refine hreturned.trans ?_
  rw [and_iff_right (by simp [start]), Run.along_iff_forall_split]
  constructor
  · intro h before between after key syn ack hevents hwait
    -- a SYN that waits for too long is answered by a sample of its age
    have hpending := (RttTracker.lookup_foldl_after_iff key syn _).mpr ⟨before, between, rfl, hwait⟩
    have hrtt : (ack.nanos - syn.nanos).toNat ≤ Duration.fromSecs 30 :=
      h _ (ack, .synAck key) after hevents _
        ((RttTracker.returns_eq_some_iff _).mpr ⟨key, syn, rfl, hpending, rfl⟩)
    omega
  · rintro h pre ⟨ack, op⟩ post hevents rtt hrtt
    obtain ⟨key, syn, hop, hpending, rfl⟩ := (RttTracker.returns_eq_some_iff _).mp hrtt
    obtain ⟨before, between, hsplit, hwait⟩ :=
      (RttTracker.lookup_foldl_after_iff key syn _).mp hpending
    obtain rfl : op = .synAck key := hop
    have hage := h before between post key syn ack (by rw [hevents, hsplit]) hwait
    show (ack.nanos - syn.nanos).toNat ≤ _
    omega

/-- A SYN is answered after a hundred seconds, on a port pair that has been used again. -/
def lateAnswer : List (Instant × RttOp) :=
  let key : ConnectionKey := ⟨.lan 1 5000, .lan 2 443⟩
  [(⟨0⟩, .syn key), (⟨100000000000⟩, .synAck key)]

/-- The sample is as long as that. -/
theorem lateAnswer_returned :
    lateAnswer.Pairwise (fun a b => a.1.nanos ≤ b.1.nanos) ∧
      (lateAnswer.foldl next start).returned = [(0, 100000000000)] ∧
      ¬ ∀ r ∈ (lateAnswer.foldl next start).returned, r.2 ≤ Duration.fromSecs 30 := by
  decide +kernel

end RttRun

end RustNet
