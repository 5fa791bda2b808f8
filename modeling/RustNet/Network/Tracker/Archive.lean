import RustNet.Foundations.Retention
import RustNet.Foundations.Text
import RustNet.Network.Tracker.Analytics
import RustNet.Network.Tracker.Capacity

/-!
# The historic archive

A cleanup files a copy of every connection it removes in the historic table, under the key of the
flow and the time the connection was created, and evicts what was closed first when the table is
over its limit.

The same flow can close many times. Its connections are told apart by their creation times, which
differ as long as the callers' times do not go back: a connection is closed only some time after it
was created, and the next one of the flow is created no earlier than that.

## Main definitions

* `Closing`: a connection that a cleanup returned, with its key and the time of the cleanup;
* `ConnectionTracker.Archived`: the invariant, with the closings so far.

## Main results

* `historicKey_inj`: a historic key gives back the flow's key and the creation time;
* `oldestClosed_order`: what is evicted was closed no later than what is left;
* `ConnectionTracker.historic_mostRecent`: the historic table over a run.
-/

namespace RustNet

/-! ## Historic keys -/

/-- A historic key gives back the flow's key and, for connections created since the epoch, the time
of creation. -/
theorem historicKey_inj {key key' : String} {conn conn' : Connection}
    (hconn : 0 ≤ conn.createdAt.nanos) (hconn' : 0 ≤ conn'.createdAt.nanos)
    (h : ConnectionTracker.historicKey key conn = ConnectionTracker.historicKey key' conn') :
    key = key' ∧ conn.createdAt.nanos = conn'.createdAt.nanos := by
  have hchars := congrArg String.toList h
  simp only [ConnectionTracker.historicKey, SystemTime.durationSince_getD, String.toList_append,
    List.append_assoc] at hchars
  have hcolon : ∀ n : ℕ, ':' ∉ n.repr.toList := fun n => by
    rw [Nat.toList_repr]
    exact Text.notMem_toDigits (by decide) n
  obtain ⟨hkey, hdigits⟩ := Text.eq_of_append_separator (hcolon _) (hcolon _) hchars
  rw [Nat.toList_repr, Nat.toList_repr] at hdigits
  have hnanos := Text.toDigits_inj hdigits
  simp only [SystemTime.unixEpoch] at hnanos
  exact ⟨String.toList_inj.mp hkey, by omega⟩

/-! ## Closings -/

/-- A connection that a cleanup removed from under a key. -/
structure Closing where
  key : String
  conn : Connection
  /-- The time of the cleanup. -/
  time : SystemTime

namespace Closing

/-- The historic key of the connection. -/
def historicKey (c : Closing) : String := ConnectionTracker.historicKey c.key c.conn

/-- Its entry in the historic table. -/
def entry (c : Closing) : String × Connection :=
  (c.historicKey, ConnectionTracker.historicCopy c.time c.conn)

/-- When it was closed, as a number that closings can be put in order by. -/
def nanos (c : Closing) : ℤ := c.time.nanos

end Closing

namespace ConnectionTracker

/-- The closings of a cleanup at `now`. -/
def closings (now : SystemTime) (removed : List (String × Connection)) : List Closing :=
  removed.map fun e => ⟨e.1, e.2, now⟩

/-! ## Eviction -/

/-- What is evicted was closed no later than what is left. -/
theorem oldestClosed_order {historic : AList fun _ : String => Connection}
    {order : IterOrder String} {count : ℕ} {key key' : String} {conn conn' : Connection}
    (hconn : historic.lookup key = some conn) (hconn' : historic.lookup key' = some conn')
    (hevicted : key ∈ oldestClosed historic order count)
    (hleft : key' ∉ oldestClosed historic order count) :
    (conn.closedAt.getD conn.createdAt).nanos ≤ (conn'.closedAt.getD conn'.createdAt).nanos := by
  rw [oldestClosed_eq_leastKeys] at hevicted hleft
  exact AList.rank_of_mem_leastKeys (fun conn => conn.closedAt.getD conn.createdAt) _ hconn hconn'
    hevicted hleft

/-- Archiving files the new closings and evicts down to the limit: what is left are the most recent
of the closings filed before and the new ones. -/
theorem archive_mostRecent (t : ConnectionTracker) (now : SystemTime) (order : IterOrder String)
    {removed : List (String × Connection)} {kept : List Closing}
    (hkeep : t.config.keepHistoric = true) (hlists : t.historic.Lists Closing.entry kept)
    (hnodup : ((kept ++ closings now removed).map Closing.historicKey).Nodup) :
    ∃ kept', MostRecent Closing.nanos t.config.maxHistoric (kept ++ closings now removed) kept' ∧
      (t.archive now order removed).historic.Lists Closing.entry kept' := by
  have hfiled : (archiveAll t.historic now removed).Lists Closing.entry
      (kept ++ closings now removed) := by
    have hall := hlists.insertAll hnodup
    rw [closings, List.foldl_map] at hall
    exact hall
  have hsize := hfiled.size_eq hnodup
  unfold archive
  rw [if_pos hkeep]
  dsimp only
  by_cases hover : t.config.maxHistoric < (archiveAll t.historic now removed).size
  · rw [if_pos hover]
    obtain ⟨hdistinct, hmem, hlen⟩ := oldestClosed_spec (archiveAll t.historic now removed) order
      (Nat.sub_le _ t.config.maxHistoric)
    refine ⟨_, MostRecent.evict hfiled hnodup hdistinct hmem (by omega) ?_, hfiled.eraseAll _⟩
    -- every closing is filed with its time
    intro a ha hleft b hb hevicted
    exact oldestClosed_order ((hfiled _ _).mpr ⟨b, hb, rfl⟩) ((hfiled _ _).mpr ⟨a, ha, rfl⟩)
      hevicted hleft
  · rw [if_neg hover]
    exact ⟨_, MostRecent.of_length_le (by omega), hfiled⟩

/-! ## The invariant -/

/-- The active connections and the historic table after some closings, the last call having been made
at `latest`. -/
structure Archived (config : TrackerConfig) (t : ConnectionTracker) (closed : List Closing)
    (latest : ℤ) : Prop where
  config_eq : t.config = config
  epoch : 0 ≤ latest
  /-- An active connection was created since the epoch, and last seen no earlier. -/
  created : ∀ key conn, t.connections.lookup key = some conn →
    0 ≤ conn.createdAt.nanos ∧ conn.createdAt.nanos ≤ conn.lastActivity.nanos ∧
      conn.lastActivity.nanos ≤ latest
  /-- It was created no earlier than the flow's connections before it were closed. -/
  reopened : ∀ key conn, t.connections.lookup key = some conn →
    ∀ c ∈ closed, c.key = key → c.nanos ≤ conn.createdAt.nanos
  /-- A closed connection was closed some time after it was created. -/
  lasted : ∀ c ∈ closed, 0 ≤ c.conn.createdAt.nanos ∧ c.conn.createdAt.nanos < c.nanos ∧
    c.nanos ≤ latest
  /-- Closings are in order, and so are the connections of one flow. -/
  ordered : closed.Pairwise fun c c' =>
    c.nanos ≤ c'.nanos ∧ (c.key = c'.key → c.nanos ≤ c'.conn.createdAt.nanos)
  kept : ∃ kept, MostRecent Closing.nanos config.maxHistoric closed kept ∧
    t.historic.Lists Closing.entry kept

variable {config : TrackerConfig} {t : ConnectionTracker} {closed : List Closing} {latest : ℤ}

theorem archived_withConfig (config : TrackerConfig) : Archived config (withConfig config) [] 0 where
  config_eq := rfl
  epoch := le_rfl
  created := fun _ _ h => absurd h (by simp [withConfig])
  reopened := fun _ _ h => absurd h (by simp [withConfig])
  lasted := fun _ h => absurd h List.not_mem_nil
  ordered := List.Pairwise.nil
  kept := ⟨[], MostRecent.of_length_le (Nat.zero_le _), AList.lists_empty⟩

/-- The closed connections have different historic keys. -/
theorem nodup_historicKey (hlasted : ∀ c ∈ closed, 0 ≤ c.conn.createdAt.nanos ∧
      c.conn.createdAt.nanos < c.nanos ∧ c.nanos ≤ latest)
    (hordered : closed.Pairwise fun c c' =>
      c.nanos ≤ c'.nanos ∧ (c.key = c'.key → c.nanos ≤ c'.conn.createdAt.nanos)) :
    (closed.map Closing.historicKey).Nodup := by
  rw [List.Nodup, List.pairwise_map]
  refine hordered.imp_of_mem ?_
  intro c c' hc hc' hpair hsame
  obtain ⟨hkey, hcreated⟩ := historicKey_inj (hlasted c hc).1 (hlasted c' hc').1 hsame
  -- the same flow: the later connection was created no earlier than the first was closed
  have hreopened := hpair.2 hkey
  have := (hlasted c hc).2.1
  omega

section Ingest

variable [DeepPacketInspection]

/-- A merge leaves the time of creation. -/
theorem mergeEntry_createdAt (parsed : ParsedPacket) (now : SystemTime) (clock : ClockReading)
    (measuredRtt : Option ℕ) (conn : Connection) :
    (mergeEntry parsed now clock measuredRtt conn).createdAt = conn.createdAt := rfl

theorem mergeEntry_lastActivity (parsed : ParsedPacket) (now : SystemTime) (clock : ClockReading)
    (measuredRtt : Option ℕ) (conn : Connection) :
    (mergeEntry parsed now clock measuredRtt conn).lastActivity = now := rfl

omit [DeepPacketInspection] in
/-- A new connection is created and last seen now. -/
theorem freshEntry_times (parsed : ParsedPacket) (now : SystemTime) (clock : ClockReading)
    (measuredRtt : Option ℕ) :
    (freshEntry parsed now clock measuredRtt).createdAt = now ∧
      (freshEntry parsed now clock measuredRtt).lastActivity = now := ⟨rfl, rfl⟩

/-- An active connection after an ingest was there before, or was merged into, or is new. -/
theorem lookup_ingestAt_cases {parsed : ParsedPacket} {now : SystemTime} {clock : ClockReading}
    {key : String} {conn : Connection}
    (h : (t.ingestAt parsed now clock).1.connections.lookup key = some conn) :
    t.connections.lookup key = some conn ∨
      (∃ old, t.connections.lookup key = some old ∧ conn.createdAt = old.createdAt ∧
        conn.lastActivity = now) ∨
      conn.createdAt = now ∧ conn.lastActivity = now := by
  rw [ingestAt_connections] at h
  by_cases hfull : t.AtCapacity (t.resolveKey parsed).2
  · rw [if_pos hfull] at h
    exact Or.inl h
  · rw [if_neg hfull] at h
    rcases AList.lookup_upsert_cases h with ⟨rfl, ⟨old, hold, rfl⟩ | ⟨-, rfl⟩⟩ | hold
    · exact Or.inr (Or.inl ⟨old, hold, mergeEntry_createdAt .., mergeEntry_lastActivity ..⟩)
    · exact Or.inr (Or.inr (freshEntry_times ..))
    · exact Or.inl hold

/-- An ingest keeps the invariant. -/
theorem archived_ingestAt (h : Archived config t closed latest) (parsed : ParsedPacket)
    {now : SystemTime} (hnow : latest ≤ now.nanos) (clock : ClockReading) :
    Archived config (t.ingestAt parsed now clock).1 closed now.nanos where
  config_eq := by rw [ingestAt_config, h.config_eq]
  epoch := h.epoch.trans hnow
  created := by
    intro key conn hconn
    have hepoch := h.epoch
    -- an entry left alone, merged into, or created by this ingest
    rcases lookup_ingestAt_cases hconn with hold | ⟨old, hold, hcreated, hlast⟩ | ⟨hcreated, hlast⟩
    · obtain ⟨h₀, h₁, h₂⟩ := h.created key conn hold
      exact ⟨h₀, h₁, h₂.trans hnow⟩
    · obtain ⟨h₀, h₁, h₂⟩ := h.created key old hold
      rw [hcreated, hlast]
      exact ⟨h₀, (h₁.trans h₂).trans hnow, le_rfl⟩
    · rw [hcreated, hlast]
      exact ⟨hepoch.trans hnow, le_rfl, le_rfl⟩
  reopened := by
    intro key conn hconn c hc hkey
    rcases lookup_ingestAt_cases hconn with hold | ⟨old, hold, hcreated, -⟩ | ⟨hcreated, -⟩
    · exact h.reopened key conn hold c hc hkey
    · rw [hcreated]
      exact h.reopened key old hold c hc hkey
    · rw [hcreated]
      exact (h.lasted c hc).2.2.trans hnow
  lasted := by
    intro c hc
    obtain ⟨h₀, h₁, h₂⟩ := h.lasted c hc
    exact ⟨h₀, h₁, h₂.trans hnow⟩
  ordered := h.ordered
  kept := by
    rw [ingestAt_historic]
    exact h.kept

end Ingest

section Cleanup

variable {now : SystemTime} {order : IterOrder String} {clock : ClockReading}

/-- A closing of a cleanup is that of an active connection that has expired. -/
theorem mem_closings_iff {c : Closing} :
    c ∈ closings now (t.swept now order clock) ↔
      t.connections.lookup c.key = some c.conn ∧ expired now clock c.key c.conn = true ∧
        c.time = now := by
  obtain ⟨key, conn, time⟩ := c
  simp only [closings, swept, List.mem_map, List.mem_filter, Prod.exists, AList.mem_entriesIn,
    Closing.mk.injEq]
  constructor
  · rintro ⟨_, _, ⟨hlookup, hexpired⟩, rfl, rfl, rfl⟩
    exact ⟨hlookup, hexpired, rfl⟩
  · rintro ⟨hlookup, hexpired, rfl⟩
    exact ⟨key, conn, ⟨hlookup, hexpired⟩, rfl, rfl, rfl⟩

/-- A connection expires some time after it was last seen. -/
theorem lastActivity_lt_of_expired {key : String} {conn : Connection}
    (h : expired now clock key conn = true) : conn.lastActivity.nanos < now.nanos := by
  have hidle := of_decide_eq_true h
  rw [SystemTime.durationSince_getD] at hidle
  omega

/-- The closings of one cleanup are of different keys. -/
theorem closings_pairwise :
    (closings now (t.swept now order clock)).Pairwise fun c c' => c.key ≠ c'.key := by
  have hnodup : ((t.swept now order clock).map Prod.fst).Nodup :=
    (t.connections.nodup_keys_entriesIn order).sublist (List.filter_sublist.map _)
  rw [closings, List.pairwise_map]
  exact List.pairwise_map.mp hnodup

/-- The new closings, too, are of connections that lasted some time. -/
theorem lasted_append_closings (h : Archived config t closed latest) (hnow : latest ≤ now.nanos)
    (order : IterOrder String) (clock : ClockReading) :
    ∀ c ∈ closed ++ closings now (t.swept now order clock),
      0 ≤ c.conn.createdAt.nanos ∧ c.conn.createdAt.nanos < c.nanos ∧ c.nanos ≤ now.nanos := by
  intro c hc
  rcases List.mem_append.mp hc with hold | hnew
  · obtain ⟨h₀, h₁, h₂⟩ := h.lasted c hold
    exact ⟨h₀, h₁, h₂.trans hnow⟩
  · obtain ⟨hlookup, hexpired, htime⟩ := mem_closings_iff.mp hnew
    obtain ⟨h₀, h₁, -⟩ := h.created c.key c.conn hlookup
    rw [Closing.nanos, htime]
    exact ⟨h₀, h₁.trans_lt (lastActivity_lt_of_expired hexpired), le_rfl⟩

/-- The new closings come after the others, and so do their connections. -/
theorem ordered_append_closings (h : Archived config t closed latest) (hnow : latest ≤ now.nanos)
    (order : IterOrder String) (clock : ClockReading) :
    (closed ++ closings now (t.swept now order clock)).Pairwise fun c c' =>
      c.nanos ≤ c'.nanos ∧ (c.key = c'.key → c.nanos ≤ c'.conn.createdAt.nanos) := by
  refine List.pairwise_append.mpr ⟨h.ordered, ?_, ?_⟩
  · -- within the cleanup: one time, different keys
    refine closings_pairwise.imp_of_mem fun hc hc' hne => ⟨?_, fun hkey => absurd hkey hne⟩
    rw [Closing.nanos, Closing.nanos, (mem_closings_iff.mp hc).2.2, (mem_closings_iff.mp hc').2.2]
  · intro c hc c' hc'
    obtain ⟨hlookup, -, htime⟩ := mem_closings_iff.mp hc'
    refine ⟨?_, h.reopened c'.key c'.conn hlookup c hc⟩
    rw [show c'.nanos = now.nanos from congrArg SystemTime.nanos htime]
    exact (h.lasted c hc).2.2.trans hnow

/-- What stays active was active before and has not expired. -/
theorem lookup_of_lookup_cleanup {key : String} {conn : Connection}
    (h : (t.cleanup now order clock).1.connections.lookup key = some conn) :
    t.connections.lookup key = some conn ∧ expired now clock key conn = false := by
  rw [cleanup_connections, AList.lookup_retain, Option.filter_eq_some_iff] at h
  exact ⟨h.1, by simpa using h.2⟩

/-- A cleanup keeps the invariant, with its closings. -/
theorem archived_cleanup (hkeep : config.keepHistoric = true)
    (h : Archived config t closed latest) (hnow : latest ≤ now.nanos) :
    Archived config (t.cleanup now order clock).1
      (closed ++ closings now (t.swept now order clock)) now.nanos := by
  have hlasted := lasted_append_closings h hnow order clock
  have hordered := ordered_append_closings h hnow order clock
  refine ⟨by rw [cleanup_config, h.config_eq], h.epoch.trans hnow, ?_, ?_, hlasted, hordered, ?_⟩
  -- the times of a connection are before the new one
  · intro key conn hconn
    obtain ⟨h₀, h₁, h₂⟩ := h.created key conn (lookup_of_lookup_cleanup hconn).1
    exact ⟨h₀, h₁, h₂.trans hnow⟩
  · intro key conn hconn c hc hkey
    obtain ⟨hlookup, hfresh⟩ := lookup_of_lookup_cleanup hconn
    rcases List.mem_append.mp hc with hold | hnew
    · exact h.reopened key conn hlookup c hold hkey
    · -- its key is not closed now
      obtain ⟨hlookup', hexpired, -⟩ := mem_closings_iff.mp hnew
      rw [hkey, hlookup] at hlookup'
      rw [hkey, ← Option.some.inj hlookup', hfresh] at hexpired
      exact absurd hexpired Bool.false_ne_true
  · obtain ⟨kept, hrecent, hlists⟩ := h.kept
    have hkeys := hrecent.nodup_map_append (nodup_historicKey hlasted hordered)
    have hconfig : (t.sweep now clock).config = config := h.config_eq
    obtain ⟨kept', hrecent', hlists'⟩ := archive_mostRecent (t.sweep now clock) now order
      (by rw [hconfig, hkeep]) hlists hkeys
    rw [hconfig] at hrecent'
    rw [cleanup_historic]
    exact ⟨kept', hrecent.append (fun a ha b hb =>
      ((List.pairwise_append.mp hordered).2.2 a ha b hb).1) hrecent', hlists'⟩

end Cleanup

/-! ## Whole runs -/

section Runs

variable [DeepPacketInspection] {calls : List (Call × ClockReading)}

/-- The caller's time of a call. -/
def Call.nanos? : Call → Option ℤ
  | .ingestAt _ now => some now.nanos
  | .cleanup now _ => some now.nanos
  | .clear => none

/-- The callers' times of a run. -/
def callTimes (calls : List (Call × ClockReading)) : List ℤ := calls.filterMap fun e => e.1.nanos?

omit [DeepPacketInspection] in
/-- The closings of a call. -/
def closedBy (t : ConnectionTracker) : Call × ClockReading → List Closing
  | (.cleanup now order, clock) => closings now (t.swept now order clock)
  | _ => []

omit [DeepPacketInspection] in
theorem callTimes_cons {e : Call × ClockReading} {nanos : ℤ} (h : e.1.nanos? = some nanos)
    (calls : List (Call × ClockReading)) : callTimes (e :: calls) = nanos :: callTimes calls :=
  List.filterMap_cons_some h

/-- The closings of a run, in order. -/
def closedIn (t : ConnectionTracker) (calls : List (Call × ClockReading)) : List Closing :=
  (Run.outputs step closedBy t calls).flatten

theorem closedIn_cons (t : ConnectionTracker) (e : Call × ClockReading)
    (calls : List (Call × ClockReading)) :
    t.closedIn (e :: calls) = t.closedBy e ++ (t.step e).closedIn calls := rfl

/-- The closed connections are those that the cleanups returned. -/
theorem closedIn_conn (t : ConnectionTracker) (calls : List (Call × ClockReading)) :
    (t.closedIn calls).map Closing.conn = t.returnedBy calls := by
  have hcall : ∀ (t : ConnectionTracker) (e : Call × ClockReading),
      (t.closedBy e).map Closing.conn = t.removedBy e := by
    rintro t ⟨call, clock⟩
    cases call with
    | cleanup now order =>
      show (closings now (t.swept now order clock)).map Closing.conn = (t.cleanup now order clock).2
      rw [cleanup_snd, closings, List.map_map]
      rfl
    | _ => rfl
  induction calls generalizing t with
  | nil => rfl
  | cons e calls ih => rw [closedIn_cons, List.map_append, hcall, ih, returnedBy_cons]

/-- One call at a time no earlier than the one before keeps the invariant. -/
theorem archived_step (hkeep : config.keepHistoric = true) (h : Archived config t closed latest)
    {e : Call × ClockReading} {nanos : ℤ} (htime : e.1.nanos? = some nanos)
    (hlatest : latest ≤ nanos) :
    Archived config (t.step e) (closed ++ t.closedBy e) nanos := by
  obtain ⟨call, clock⟩ := e
  cases call with
  | ingestAt parsed now =>
    obtain rfl := Option.some.inj htime
    rw [show t.closedBy (.ingestAt parsed now, clock) = [] from rfl, List.append_nil]
    exact archived_ingestAt h parsed hlatest clock
  | cleanup now order =>
    obtain rfl := Option.some.inj htime
    exact archived_cleanup hkeep h hlatest
  | clear => exact absurd htime (by simp [Call.nanos?])

/-- So does a run at times that do not go back. -/
theorem archived_run (hkeep : config.keepHistoric = true) (h : Archived config t closed latest)
    (hclear : ∀ e ∈ calls, e.1 ≠ .clear)
    (htimes : (latest :: callTimes calls).Pairwise (· ≤ ·)) :
    ∃ latest', Archived config (t.run calls) (closed ++ t.closedIn calls) latest' := by
  induction calls generalizing t closed latest with
  | nil => exact ⟨latest, by rwa [show t.closedIn [] = [] from rfl, List.append_nil]⟩
  | cons e calls ih =>
    -- but for a clear every call has a time
    obtain ⟨nanos, hnanos⟩ : ∃ nanos, e.1.nanos? = some nanos := by
      rcases hcall : e.1 with ⟨_, now⟩ | ⟨now, _⟩ | _
      · exact ⟨now.nanos, rfl⟩
      · exact ⟨now.nanos, rfl⟩
      · exact absurd hcall (hclear e List.mem_cons_self)
    rw [callTimes_cons hnanos] at htimes
    obtain ⟨hlatest, hrest⟩ := List.pairwise_cons.mp htimes
    have hstep := archived_step hkeep h hnanos (hlatest nanos List.mem_cons_self)
    obtain ⟨latest', hrun⟩ := ih hstep (fun e' he' => hclear e' (List.mem_cons_of_mem e he')) hrest
    rw [List.append_assoc, ← closedIn_cons] at hrun
    exact ⟨latest', hrun⟩

/-- After every run of ingests and cleanups (`hclear`) with retention on (`hkeep`), at times from
the epoch on that do not go back (`htimes`): the closings are the connections that the cleanups
returned, in the order of their times; their historic keys differ; and the historic table holds
exactly the historic copies of the most recent ones, as many as the limit allows. Of connections
that close at one time, any may be among these. -/
theorem historic_mostRecent (config : TrackerConfig) (hkeep : config.keepHistoric = true)
    (hclear : ∀ e ∈ calls, e.1 ≠ .clear)
    (htimes : (SystemTime.unixEpoch.nanos :: callTimes calls).Pairwise (· ≤ ·)) :
    let closed := (withConfig config).closedIn calls
    closed.map Closing.conn = (withConfig config).returnedBy calls ∧
      closed.Pairwise (fun c c' => c.nanos ≤ c'.nanos) ∧
      (closed.map Closing.historicKey).Nodup ∧
      ∃ kept, MostRecent Closing.nanos config.maxHistoric closed kept ∧
        ((withConfig config).run calls).historic.Lists Closing.entry kept := by
  obtain ⟨latest, h⟩ := archived_run hkeep (archived_withConfig config) hclear htimes
  rw [List.nil_append] at h
  exact ⟨closedIn_conn _ _, h.ordered.imp fun hpair => hpair.1,
    nodup_historicKey h.lasted h.ordered, h.kept⟩

end Runs

/-- A UDP flow that a cleanup after 400 seconds closes, and a TCP connection that the next cleanup
closes, at the same time by the callers' clock and 400 seconds later by the wall clock. -/
def tiedCleanups : List (Call × ClockReading) :=
  [(.ingestAt (.ofUdp (.lan 1 5000) (.lan 2 53) none true 60) ⟨0⟩, .constant 0),
    (.ingestAt establishedPacket ⟨0⟩, .constant 0),
    (.cleanup ⟨Duration.fromSecs 400⟩ (.listed String), .constant 0),
    (.cleanup ⟨Duration.fromSecs 400⟩ (.listed String), .constant (Duration.fromSecs 400))]

/-- With room for one historic connection, the table keeps the flow closed by the first cleanup and
not the connection closed by the second. -/
theorem tiedCleanups_keep_earlier :
    letI : DeepPacketInspection := .silent
    let t := withConfig { TrackerConfig.default with maxHistoric := 1 }
    (SystemTime.unixEpoch.nanos :: callTimes tiedCleanups).Pairwise (· ≤ ·) ∧
      (t.closedIn (tiedCleanups.take 3)).map Closing.historicKey =
        ["UDP:10.0.0.1:5000-UDP:10.0.0.2:53:0"] ∧
      (t.closedIn tiedCleanups).map Closing.historicKey =
        ["UDP:10.0.0.1:5000-UDP:10.0.0.2:53:0", "TCP:10.0.0.1:5000-TCP:10.0.0.2:22:0"] ∧
      (t.run tiedCleanups).historic.keys = ["UDP:10.0.0.1:5000-UDP:10.0.0.2:53:0"] := by
  decide +kernel

/-- The same run under the default limit: both are kept. -/
theorem tiedCleanups_both_kept :
    letI : DeepPacketInspection := .silent
    let t := withConfig .default
    ∃ kept, MostRecent Closing.nanos TrackerConfig.default.maxHistoric (t.closedIn tiedCleanups)
        kept ∧ kept.length = 2 ∧ (t.run tiedCleanups).historic.Lists Closing.entry kept := by
  intro t
  have hclear : ∀ e ∈ tiedCleanups, e.1 ≠ .clear := by simp [tiedCleanups]
  have htimes : (SystemTime.unixEpoch.nanos :: callTimes tiedCleanups).Pairwise (· ≤ ·) := by
    decide +kernel
  obtain ⟨-, -, -, kept, hrecent, hlists⟩ :=
    @historic_mostRecent .silent tiedCleanups .default rfl hclear htimes
  refine ⟨kept, hrecent, ?_, hlists⟩
  rw [hrecent.length_eq]
  decide +kernel

end ConnectionTracker

end RustNet
