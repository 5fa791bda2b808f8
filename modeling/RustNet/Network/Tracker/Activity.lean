import RustNet.Network.Tracker.Archive
import RustNet.Network.Tracker.Attribution

/-!
# The last activity of an entry

Every ingest carries the time stamp taken when its packet was handed in, and writes it to the
`last_activity` of the entry it reaches: the last writer wins. Workers that take their time stamps
in one order may reach the entry in another. The time stamps that an entry has ingested are kept
beside the system, for the specification only.

## Main definitions

* `Stamped`, `Stamped.write`: the system, and the time stamps ingested into one entry so far;
* `Stamped.UpToDate`: the last activity is the latest of them, and not before the creation.

## Main results

* `run_upToDate_iff`: the last activity is the latest time stamp throughout a run exactly if the
  ingests reach the entry in the order of their time stamps.
-/

namespace RustNet

namespace ConnectionTracker

/-- A system, and the time stamps of the ingests that reached the entry under one key since it was
created, latest arrival first. -/
structure Stamped (ι : Type*) where
  system : System ι
  stamps : List SystemTime

namespace Stamped

variable {ι : Type*}

/-- All threads idle around an empty tracker. -/
def start (ι : Type*) (config : TrackerConfig) : Stamped ι := ⟨.start ι config, []⟩

/-- The last activity of the entry is the latest time stamp ingested into it, and not before its
creation. -/
def UpToDate (key : String) (s : Stamped ι) : Prop :=
  ∀ conn ∈ s.system.entry key, conn.lastActivity ∈ s.stamps ∧
    (∀ stamp ∈ s.stamps, stamp.nanos ≤ conn.lastActivity.nanos) ∧
    conn.createdAt.nanos ≤ conn.lastActivity.nanos

/-- A write that merges a packet into the entry carries a time stamp not before those that came
earlier. -/
def InOrder (key : String) (s : Stamped ι) (w : Write ι) : Prop :=
  (s.system.entry key).isSome → ∀ ingest ∈ s.system.entering key w,
    ∀ stamp ∈ s.stamps, stamp.nanos ≤ ingest.1.now.nanos

instance (key : String) (s : Stamped ι) : Decidable (s.UpToDate key) := by
  unfold UpToDate
  infer_instance

variable [DecidableEq ι] [DeepPacketInspection]

/-- One write, and its time stamp if it reaches the entry; a new entry starts with its own. -/
def write (key : String) (s : Stamped ι) (w : Write ι) : Stamped ι where
  system := s.system.write w
  stamps :=
    match s.system.entering key w with
    | some ingest =>
      if (s.system.entry key).isSome then ingest.1.now :: s.stamps else [ingest.1.now]
    | none => s.stamps

variable {key : String} {s : Stamped ι} {w : Write ι}

/-- A step that enters no packet keeps the entry's times, if it keeps the entry. -/
theorem write_upToDate_of_not_entering (hs : s.UpToDate key)
    (h : s.system.entering key w = none) : (s.write key w).UpToDate key := by
  have hstamps : (s.write key w).stamps = s.stamps := by
    simp only [write, h]
  intro conn hconn
  rw [hstamps]
  rcases System.write_entry_of_not_entering h with hkept | hgone | ⟨visit, henriched⟩
  · exact hs conn (hkept ▸ hconn)
  · exact absurd (hgone ▸ hconn) (Option.not_mem_none conn)
  · obtain ⟨old, hold, rfl⟩ := Option.map_eq_some_iff.mp (henriched ▸ hconn)
    rw [visit.enrich_lastActivity, (visit.settled_enrich old).createdAt]
    exact hs old hold

/-- A step keeps the last activity up to date exactly if it enters no packet out of order. -/
theorem write_upToDate_iff (hs : s.UpToDate key) (w : Write ι) :
    (s.write key w).UpToDate key ↔ s.InOrder key w := by
  cases hentering : s.system.entering key w with
  | none =>
    refine iff_of_true (write_upToDate_of_not_entering hs hentering) fun _ ingest hingest => ?_
    rw [hentering] at hingest
    cases hingest
  | some ingest =>
    have hentry := System.write_entry_of_entering hentering
    cases hconn : s.system.entry key with
    -- a new entry has one time stamp, its own
    | none =>
      rw [hconn, Option.elim_none] at hentry
      have hstamps : (s.write key w).stamps = [ingest.1.now] := by
        simp only [write, hentering, hconn, Option.isSome_none, Bool.false_eq_true, if_false]
      obtain ⟨hcreated, hactive⟩ :=
        freshEntry_times ingest.1.parsed ingest.1.now ingest.1.clock ingest.2
      refine iff_of_true (fun conn h => ?_) fun hsome => ?_
      · obtain rfl := Option.some.inj (hentry.symm.trans h)
        rw [hstamps, hcreated, hactive]
        exact ⟨List.mem_singleton_self _, by simp, le_rfl⟩
      · rw [hconn] at hsome
        cases hsome
    -- the packet's time stamp replaces the last activity
    | some conn =>
      rw [hconn, Option.elim_some] at hentry
      obtain ⟨hmem, hlatest, hcreated⟩ := hs conn hconn
      have hstamps : (s.write key w).stamps = ingest.1.now :: s.stamps := by
        simp only [write, hentering, hconn, Option.isSome_some, if_true]
      constructor
      · intro h _ ingest' hingest' stamp hstamp
        obtain rfl := Option.some.inj (hentering.symm.trans hingest')
        have hlatest' := (h _ hentry).2.1 stamp
        rw [mergeEntry_lastActivity, hstamps] at hlatest'
        exact hlatest' (List.mem_cons_of_mem _ hstamp)
      · intro h conn' hconn'
        obtain rfl := Option.some.inj (hentry.symm.trans hconn')
        have horder := h (by rw [hconn]; rfl) ingest hentering
        rw [hstamps, mergeEntry_lastActivity, mergeEntry_createdAt]
        refine ⟨List.mem_cons_self, fun stamp hstamp => ?_, hcreated.trans (horder _ hmem)⟩
        rcases List.mem_cons.mp hstamp with rfl | hearlier
        · exact le_rfl
        · exact horder stamp hearlier

/-- Whatever the threads and the enrichment thread do, the last activity of the entry is the latest
time stamp ingested into it, and not before its creation, throughout the run exactly if every ingest
that reaches the entry carries a time stamp not before the earlier ones. The time stamps are taken
before the entry is locked, so two threads can reach it in the other order. -/
theorem run_upToDate_iff (config : TrackerConfig) (key : String) (writes : List (Write ι)) :
    Run.Always (write key) (UpToDate key) (start ι config) writes ↔
      Run.Along (write key) (InOrder key) (start ι config) writes := by
  refine Run.always_iff_along (fun _ w hs => write_upToDate_iff hs w) ?_
  intro conn hconn
  exact absurd hconn (Option.not_mem_none conn)

end Stamped

/-- Two workers take a packet of one flow each, the second a millisecond after the first, and the
second reaches the entry first. -/
def reorderedWrites : List (Write Bool) :=
  let parsed := ParsedPacket.ofUdp (.lan 1 5000) (.lan 2 53) none true 60
  [.thread false (.call (.ingestAt parsed ⟨0⟩)),
    .thread true (.call (.ingestAt parsed ⟨1000000⟩))] ++
    List.replicate 5 (.thread true (.advance (.constant 1000000))) ++
    List.replicate 5 (.thread false (.advance (.constant 2000000)))

/-- The last activity falls back behind the creation, and half a millisecond before the flow has
been idle for its timeout it is cleaned up. -/
theorem reordered_not_upToDate :
    letI : DeepPacketInspection := .silent
    let key := connectionKey .udp (.lan 1 5000) (.lan 2 53)
    let s := reorderedWrites.foldl (Stamped.write key) (Stamped.start Bool .default)
    let now : SystemTime := ⟨60000500000⟩
    ¬ Run.Always (Stamped.write key) (Stamped.UpToDate key) (Stamped.start Bool .default)
        reorderedWrites ∧
      ∃ conn ∈ s.system.entry key, conn.shouldCleanup now now = true ∧
        { conn with lastActivity := ⟨1000000⟩ }.shouldCleanup now now = false := by
  intro key s now
  refine ⟨by decide +kernel, ?_⟩
  have hcleanup : (s.system.entry key).any (fun conn => conn.shouldCleanup now now &&
      !{ conn with lastActivity := ⟨1000000⟩ }.shouldCleanup now now) = true := by
    decide +kernel
  obtain ⟨conn, hconn, hboth⟩ := (Option.any_eq_true _ _).mp hcleanup
  rw [Bool.and_eq_true, Bool.not_eq_true'] at hboth
  exact ⟨conn, hconn, hboth⟩

end ConnectionTracker

end RustNet
