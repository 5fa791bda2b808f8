import RustNet.Foundations.Onset
import RustNet.Host.Enhanced.Lookup

/-!
# Where answers come from

The runs of the lookup on Linux: hooks of the BPF program record their calls, procfs is scanned, and
connections are looked up, in any order. An answer that comes from the cache was looked up before,
for a connection with the same key, and an answer that was looked up goes back to a hook that
recorded the flow of the connection or to a row of the last scan.

## Main definitions

* `LookupEvent`, `EnhancedLinuxProcessLookup.step`: the runs;
* `Attested`: what stands behind an answer that was looked up.

## Main results

* `exists_attested`: what stands behind any answer, and how old it is;
* `getProcessForConnection_eq_procfs`: without the program the cache cannot be noticed;
* `balanced_foldl`: every lookup is counted once.
-/

namespace RustNet.Host

/-- A hook that records its call, a lookup, or a refresh with what it reads from procfs. -/
inductive LookupEvent
  | record (call : Ebpf.HookCall) (task : Ebpf.Task)
  | lookup (conn : Connection) (reading : LookupReading)
  | refresh (proc : Option ProcFs) (now : Instant)

/-- The event is a lookup. -/
def LookupEvent.isLookup : LookupEvent → Bool
  | .lookup .. => true
  | _ => false

/-! ## What is on record -/

/-- The last scan of procfs that succeeded. -/
def lastScan (first : ProcFs) (events : List LookupEvent) : ProcFs :=
  events.foldl (fun scan event =>
    match event with
    | .refresh (some proc) _ => proc
    | _ => scan) first

/-- The call is filed under a key that the tracker tries for the flow. -/
def Reports (call : Ebpf.HookCall) (flow : Ebpf.Flow) : Prop :=
  ∃ f, (f = flow ∨ Ebpf.TriesAny flow ∧ f = flow.fromAny) ∧
    call.key = some (Ebpf.userKey f)

/-- The `comm` file of the process gives it this name. -/
def LookupReading.Names (reading : LookupReading) (pid : UInt32) (name : String) : Prop :=
  ∃ comm, reading.readComm pid = some comm ∧ LinuxProcessLookup.commName comm = some name

/-- A scan of procfs or the `comm` file of the process gave it this name. -/
def Named (first : ProcFs) (events : List LookupEvent) (pid : UInt32) (name : String) : Prop :=
  (∃ proc, (proc = first ∨ ∃ now, .refresh (some proc) now ∈ events) ∧
      ∃ entry ∈ proc.entries, entry.process = some (pid, name)) ∨
    ∃ conn reading, .lookup conn reading ∈ events ∧ reading.Names pid name

/-- The name that the program records for a task. -/
def taskName (task : Ebpf.Task) : String :=
  String.ofList (fromUtf8Lossy (Ebpf.ProcessInfo.ofConnInfo (Ebpf.getProcessInfo task)).comm)

/-- The last of the calls that were filed under the key of this one. -/
def LastCall (events : List LookupEvent) (call : Ebpf.HookCall) (task : Ebpf.Task) : Prop :=
  ∃ before after, events = before ++ .record call task :: after ∧
    ∀ call' task', .record call' task' ∈ after → call'.key = call.key →
      Ebpf.getProcessInfo task' = Ebpf.getProcessInfo task

/-- What stands behind the answer of the lookup `.lookup conn reading` after some events: the last
hook call for the flow of the connection, or a row of the last scan. -/
inductive Attested (first : ProcFs) (events : List LookupEvent) (conn : Connection)
    (reading : LookupReading) : Process → Prop
  | hook {flow : Ebpf.Flow} {call : Ebpf.HookCall} {task : Ebpf.Task} {name : String}
      (flow_eq : flowOf conn = some flow) (reports : Reports call flow)
      (last : LastCall events call task)
      (named : name = taskName task ∨ Named first events (Ebpf.getProcessInfo task).pid name ∨
        reading.Names (Ebpf.getProcessInfo task).pid name) :
      Attested first events conn reading ((Ebpf.getProcessInfo task).pid, name)
  | row {process : Process}
      (found : getProcessForConnection (buildProcessMap (lastScan first events)) conn =
        some process) :
      Attested first events conn reading process

/-- A call that is filed under a key of a flow whose addresses read the same in both byte orders is
about that flow, or has the unspecified source. -/
theorem Reports.flow_eq {call : Ebpf.HookCall} {flow : Ebpf.Flow} (h : Reports call flow)
    (hlegible : Ebpf.Legible flow) : call.flow = flow ∨ call.flow = flow.fromAny := by
  obtain ⟨f, hf, hkey⟩ := h
  have hkernel := Ebpf.HookCall.key_eq_some hkey
  rcases hf with rfl | ⟨-, rfl⟩
  · rw [hlegible.userKey_eq] at hkernel
    exact Or.inl (Ebpf.kernelKey_inj hkernel).symm
  · rw [hlegible.fromAny.userKey_eq] at hkernel
    exact Or.inr (Ebpf.kernelKey_inj hkernel).symm

/-- What stands behind an answer about a TCP or UDP connection depends on its key only. -/
theorem Attested.of_key_eq {first : ProcFs} {events : List LookupEvent} {conn conn' : Connection}
    {reading : LookupReading} {process : Process}
    (hkey : ConnectionKey.fromConnection conn' = .fromConnection conn)
    (hprotocol : conn.protocol = .tcp ∨ conn.protocol = .udp)
    (h : Attested first events conn' reading process) :
    Attested first events conn reading process := by
  have hsame := ConnectionKey.mk.inj hkey
  cases h with
  | hook flow_eq reports last named =>
    refine .hook ?_ reports last named
    rw [← flow_eq, flowOf, flowOf, flowAddrs, flowAddrs, hsame.1, hsame.2.1, hsame.2.2]
    rcases hprotocol with h | h <;> rw [h]
  | row found =>
    refine .row ?_
    rw [← found, getProcessForConnection, getProcessForConnection, hkey]

namespace EnhancedLinuxProcessLookup

/-- The lookup after an event. -/
def step (s : EnhancedLinuxProcessLookup) : LookupEvent → EnhancedLinuxProcessLookup
  | .record call task => s.record call task
  | .lookup conn reading => (s.getProcessForConnection reading conn).2
  | .refresh proc now => s.refresh proc now

/-- The clock does not run back behind the last refresh. -/
def InTime (s : EnhancedLinuxProcessLookup) : LookupEvent → Prop
  | .record .. => True
  | .lookup _ reading => s.unifiedCache.lastRefresh.nanos ≤ reading.checkedAt.nanos
  | .refresh _ now => s.unifiedCache.lastRefresh.nanos ≤ now.nanos

instance (s : EnhancedLinuxProcessLookup) : (event : LookupEvent) → Decidable (s.InTime event)
  | .record .. => isTrue trivial
  | .lookup _ reading =>
    inferInstanceAs (Decidable (s.unifiedCache.lastRefresh.nanos ≤ reading.checkedAt.nanos))
  | .refresh _ now => inferInstanceAs (Decidable (s.unifiedCache.lastRefresh.nanos ≤ now.nanos))

/-! ## What one event changes -/

variable {s : EnhancedLinuxProcessLookup} {event : LookupEvent}

/-- The value that the socket map has under a key. -/
def recorded (s : EnhancedLinuxProcessLookup) (key : List UInt8) : Option (List UInt8) :=
  s.ebpfTracker.bind fun map => map.entries.lookup key

/-- A cleanup only takes entries out of the socket map. -/
theorem recorded_maybeCleanupEbpfMap (reading : LookupReading) {key value : List UInt8}
    (h : (s.maybeCleanupEbpfMap reading).recorded key = some value) :
    s.recorded key = some value := by
  unfold maybeCleanupEbpfMap at h
  split at h
  · obtain ⟨map, hmap, hvalue⟩ := Option.bind_eq_some_iff.mp h
    obtain ⟨map, htracker, rfl⟩ := Option.map_eq_some_iff.mp hmap
    rw [Ebpf.lookup_cleanup, Option.filter_eq_some_iff] at hvalue
    exact Option.bind_eq_some_iff.mpr ⟨map, htracker, hvalue.1⟩
  · exact h

/-- A call leaves the socket map as its cleanup leaves it. -/
theorem getProcessForConnection_ebpfTracker (s : EnhancedLinuxProcessLookup)
    (reading : LookupReading) (conn : Connection) :
    (s.getProcessForConnection reading conn).2.ebpfTracker =
      (s.maybeCleanupEbpfMap reading).ebpfTracker :=
  getProcessForConnection_cases (P := fun call => call.2.ebpfTracker = _)
    (fun _ _ => rfl) (fun _ _ => rfl) (fun _ _ _ => rfl) rfl

/-- What is under a key after a hook call with another key was there before; what is under the key
of the call is what it recorded, if the key was there or its value is new. -/
theorem recorded_record {call : Ebpf.HookCall} {task : Ebpf.Task} {key value : List UInt8}
    (h : (s.record call task).recorded key = some value) :
    (∃ k, call.key = some k ∧ key = k.asBytes ∧ value = (Ebpf.getProcessInfo task).asBytes) ∨
      s.recorded key = some value ∧ ∀ k, call.key = some k → key ≠ k.asBytes := by
  obtain ⟨map, hmap, hvalue⟩ := Option.bind_eq_some_iff.mp h
  obtain ⟨map, htracker, rfl⟩ := Option.map_eq_some_iff.mp hmap
  have hbefore {v : List UInt8} (hv : map.entries.lookup key = some v) :
      s.recorded key = some v := Option.bind_eq_some_iff.mpr ⟨map, htracker, hv⟩
  cases hkey : call.key with
  -- a call that has no key leaves the map as it was
  | none =>
    refine Or.inr ⟨hbefore ?_, by simp⟩
    have hsame : map.update call task = map := by
      unfold Ebpf.SocketMap.update
      split
      next => rfl
      next k hk => rw [hkey] at hk; cases hk
    rwa [hsame] at hvalue
  -- the call's own key is written, if there is room, and no other
  | some k =>
    rw [Ebpf.SocketMap.lookup_update map hkey] at hvalue
    split_ifs at hvalue with hwritten
    · exact Or.inl ⟨k, rfl, hwritten.1, (Option.some.inj hvalue).symm⟩
    · refine Or.inr ⟨hbefore hvalue, ?_⟩
      rintro k' hk' rfl
      obtain rfl := Option.some.inj hk'
      exact hwritten ⟨rfl, Or.inl (AList.mem_of_lookup hvalue)⟩

/-- A value comes into the socket map by the call of a hook. -/
theorem recorded_step {key value : List UInt8} (h : (s.step event).recorded key = some value) :
    s.recorded key = some value ∨ ∃ call task k, event = .record call task ∧
      call.key = some k ∧ key = k.asBytes ∧ value = (Ebpf.getProcessInfo task).asBytes := by
  cases event with
  | record call task =>
    rcases recorded_record h with ⟨k, hkey, hbytes, hvalue⟩ | ⟨hbefore, -⟩
    · exact Or.inr ⟨call, task, k, rfl, hkey, hbytes, hvalue⟩
    · exact Or.inl hbefore
  | lookup conn reading =>
    rw [recorded, step, getProcessForConnection_ebpfTracker] at h
    exact Or.inl (recorded_maybeCleanupEbpfMap reading h)
  | refresh proc now =>
    cases proc <;> exact Or.inl h

/-- The value under a key is that of the last call filed under it. -/
theorem exists_lastCall {start : EnhancedLinuxProcessLookup} {events : List LookupEvent}
    {key value : List UInt8} (hstart : start.recorded key = none)
    (h : (events.foldl step start).recorded key = some value) :
    ∃ call task k, LastCall events call task ∧ call.key = some k ∧ key = k.asBytes ∧
      value = (Ebpf.getProcessInfo task).asBytes := by
  obtain ⟨before, event, after, rfl, hnot, hsince⟩ :=
    Run.exists_onset (P := fun s : EnhancedLinuxProcessLookup => s.recorded key = some value)
      (by simp [hstart]) h
  rcases recorded_step hsince.head with hbefore | ⟨call, task, k, rfl, hkey, rfl, rfl⟩
  · exact absurd hbefore hnot
  refine ⟨call, task, k, ⟨before, after, rfl, ?_⟩, hkey, rfl, rfl⟩
  -- a later call under the key would have replaced the value
  intro call' task' hmem hsame
  obtain ⟨front, back, rfl⟩ := List.append_of_mem hmem
  have hlater := Run.Always.of_append (front ++ [.record call' task']) back
    (by simpa using hsince)
  rw [List.foldl_append] at hlater
  rcases recorded_record hlater with ⟨-, -, -, hvalue⟩ | ⟨-, hother⟩
  · have hinfo := congrArg Ebpf.ConnInfo.ofBytes hvalue
    rw [Ebpf.ConnInfo.ofBytes_asBytes, Ebpf.ConnInfo.ofBytes_asBytes] at hinfo
    exact hinfo.symm
  · exact absurd rfl (hother k (hsame.trans hkey))

/-! ## Names and rows -/

/-- A call keeps the rows of the last scan. -/
theorem getProcessForConnection_rows (s : EnhancedLinuxProcessLookup) (reading : LookupReading)
    (conn : Connection) :
    (s.getProcessForConnection reading conn).2.procfsLookup.cache = s.procfsLookup.cache := by
  have hbegun : (s.begun reading conn).procfsLookup = s.procfsLookup :=
    s.maybeCleanupEbpfMap_procfsLookup reading
  refine getProcessForConnection_cases (P := fun call => call.2.procfsLookup.cache = _)
    (fun _ _ => ?_) (fun info _ => ?_) (fun _ _ _ => ?_) ?_
  · exact congrArg LinuxProcessLookup.cache hbegun
  · exact (getProcessNameByPid_cache _ _ _).trans (congrArg LinuxProcessLookup.cache hbegun)
  · exact congrArg LinuxProcessLookup.cache hbegun
  · exact congrArg LinuxProcessLookup.cache hbegun

/-- The rows are those of the last scan. -/
theorem foldl_rows (s : EnhancedLinuxProcessLookup) (first : ProcFs) (events : List LookupEvent)
    (h : s.procfsLookup.cache = buildProcessMap first) :
    (events.foldl step s).procfsLookup.cache = buildProcessMap (lastScan first events) := by
  induction events generalizing s first with
  | nil => exact h
  | cons event events ih =>
    cases event with
    | record call task => exact ih _ _ h
    | lookup conn reading => exact ih _ _ ((s.getProcessForConnection_rows reading conn).trans h)
    | refresh proc now =>
      cases proc with
      | none => exact ih _ _ h
      | some proc => exact ih _ _ rfl

/-- A call keeps the names it knows, and adds one that it reads. -/
theorem pidNames_getProcessForConnection {reading : LookupReading} {conn : Connection}
    {pid : UInt32} {name : String}
    (h : (s.getProcessForConnection reading conn).2.procfsLookup.pidNames.lookup pid = some name) :
    s.procfsLookup.pidNames.lookup pid = some name ∨ reading.Names pid name := by
  have hbegun : (s.begun reading conn).procfsLookup = s.procfsLookup :=
    s.maybeCleanupEbpfMap_procfsLookup reading
  revert h
  -- only an answer from the map may look a name up
  refine getProcessForConnection_cases
    (P := fun call => call.2.procfsLookup.pidNames.lookup pid = some name → _)
    (fun _ _ => ?_) (fun info _ => ?_) (fun _ _ _ => ?_) ?_
  · exact fun h => Or.inl (hbegun ▸ h)
  · intro resolved lookup h
    change ((s.begun reading conn).procfsLookup.getProcessNameByPid reading.readComm
      info.pid).2.pidNames.lookup pid = some name at h
    rw [hbegun] at h
    rcases getProcessNameByPid_cases s.procfsLookup reading.readComm info.pid with
      hnamed | ⟨comm, name', hcomm, hname, hnamed⟩
    · rw [hnamed] at h
      exact Or.inl h
    · rw [hnamed] at h
      -- the name that was looked up is cached under the number it was looked up for
      by_cases hpid : pid = info.pid
      · subst hpid
        obtain rfl := Option.some.inj ((AList.lookup_insert _).symm.trans h)
        exact Or.inr ⟨comm, hcomm, hname⟩
      · exact Or.inl ((AList.lookup_insert_ne hpid).symm.trans h)
  · exact fun h => Or.inl (hbegun ▸ h)
  · exact fun h => Or.inl (hbegun ▸ h)

end EnhancedLinuxProcessLookup

/-- The names of a scan are those of its directories. -/
theorem exists_of_lookup_buildPidNames {entries : List ProcDir} {pid : UInt32} {name : String}
    (h : (buildPidNames entries).lookup pid = some name) :
    ∃ entry ∈ entries, entry.process = some (pid, name) := by
  -- a later entry replaces an earlier one, so the last one is looked at first
  induction entries using List.reverseRecOn with
  | nil => simp [buildPidNames] at h
  | append_singleton entries entry ih =>
    rw [buildPidNames, List.foldl_append, List.foldl_cons, List.foldl_nil, insertName] at h
    have hearlier (h : (buildPidNames entries).lookup pid = some name) :
        ∃ e ∈ entries ++ [entry], e.process = some (pid, name) := by
      obtain ⟨e, he, hprocess⟩ := ih h
      exact ⟨e, List.mem_append_left _ he, hprocess⟩
    cases hprocess : entry.process with
    | none =>
      rw [hprocess] at h
      exact hearlier h
    | some process =>
      rw [hprocess] at h
      by_cases hpid : pid = process.1
      · subst hpid
        obtain rfl := Option.some.inj ((AList.lookup_insert _).symm.trans h)
        exact ⟨entry, by simp, hprocess⟩
      · exact hearlier ((AList.lookup_insert_ne hpid).symm.trans h)

theorem Named.append {first : ProcFs} {events : List LookupEvent} {pid : UInt32} {name : String}
    (h : Named first events pid name) (later : List LookupEvent) :
    Named first (events ++ later) pid name := by
  rcases h with ⟨proc, hproc, hentry⟩ | ⟨conn, reading, hmem, hname⟩
  · exact Or.inl ⟨proc, hproc.imp_right fun ⟨now, hmem⟩ =>
      ⟨now, List.mem_append_left _ hmem⟩, hentry⟩
  · exact Or.inr ⟨conn, reading, List.mem_append_left _ hmem, hname⟩

namespace EnhancedLinuxProcessLookup

variable {s : EnhancedLinuxProcessLookup} {event : LookupEvent}

/-- A name that is known after some events is on record. -/
theorem named_of_lookup {start : EnhancedLinuxProcessLookup} {first : ProcFs}
    (hstart : start.procfsLookup = .ofProc first) {events : List LookupEvent} {pid : UInt32}
    {name : String}
    (h : (events.foldl step start).procfsLookup.pidNames.lookup pid = some name) :
    Named first events pid name := by
  -- a name is from the first scan, a later one, or a lookup of its own
  induction events using List.reverseRecOn with
  | nil =>
    rw [List.foldl_nil, hstart] at h
    exact Or.inl ⟨first, Or.inl rfl, exists_of_lookup_buildPidNames h⟩
  | append_singleton events event ih =>
    rw [List.foldl_append, List.foldl_cons, List.foldl_nil] at h
    cases event with
    | record call task => exact (ih h).append _
    | lookup conn reading =>
      rcases pidNames_getProcessForConnection h with hknown | hname
      · exact (ih hknown).append _
      · exact Or.inr ⟨conn, reading, by simp, hname⟩
    | refresh proc now =>
      cases proc with
      | none => exact (ih h).append _
      | some proc =>
        exact Or.inl ⟨proc, Or.inr ⟨now, by simp⟩, exists_of_lookup_buildPidNames h⟩

/-! ## The cache -/

/-- An answer comes into the cache when it is looked up. -/
theorem cached_getProcessForConnection {reading : LookupReading} {conn : Connection}
    {key : ConnectionKey} {process : Process}
    (h : (s.getProcessForConnection reading conn).2.unifiedCache.lookup.lookup key =
      some process) :
    s.unifiedCache.lookup.lookup key = some process ∨
      key = .fromConnection conn ∧ s.fresh reading conn = some process := by
  have hbegun : (s.begun reading conn).unifiedCache = s.unifiedCache :=
    s.maybeCleanupEbpfMap_unifiedCache reading
  -- the answers from below are inserted under the key of the connection
  have hinserted {result : Process}
      (hresult : s.fresh reading conn = some result)
      (h : (s.unifiedCache.lookup.insert (.fromConnection conn) result).lookup key =
        some process) :
      s.unifiedCache.lookup.lookup key = some process ∨
        key = .fromConnection conn ∧ s.fresh reading conn = some process := by
    by_cases hkey : key = .fromConnection conn
    · subst hkey
      obtain rfl := Option.some.inj ((AList.lookup_insert _).symm.trans h)
      exact Or.inr ⟨rfl, hresult⟩
    · exact Or.inl ((AList.lookup_insert_ne hkey).symm.trans h)
  revert h
  refine getProcessForConnection_cases
    (P := fun call => call.2.unifiedCache.lookup.lookup key = some process → _)
    (fun _ _ => ?_) (fun info hinfo => ?_) (fun _ hinfo hrow => ?_) ?_
  -- a cached answer and a failure insert nothing
  · exact fun h => Or.inl (hbegun ▸ h)
  · exact hinserted (fresh_of_ebpf hinfo)
  · exact hinserted (fresh_of_procfs hinfo hrow)
  · exact fun h => Or.inl (hbegun ▸ h)

/-- A call is no refresh. -/
theorem getProcessForConnection_lastRefresh (s : EnhancedLinuxProcessLookup)
    (reading : LookupReading) (conn : Connection) :
    (s.getProcessForConnection reading conn).2.unifiedCache.lastRefresh =
      s.unifiedCache.lastRefresh := by
  have hbegun : (s.begun reading conn).unifiedCache = s.unifiedCache :=
    s.maybeCleanupEbpfMap_unifiedCache reading
  exact getProcessForConnection_cases (P := fun call => call.2.unifiedCache.lastRefresh = _)
    (fun _ _ => congrArg ProcessCache.lastRefresh hbegun) (fun _ _ => rfl)
    (fun _ _ _ => rfl) (congrArg ProcessCache.lastRefresh hbegun)

/-- No refresh that succeeded is among the events. -/
def NoRefresh (events : List LookupEvent) : Prop :=
  ∀ proc now, LookupEvent.refresh (some proc) now ∉ events

/-- Without a refresh the time of the last one stays. -/
theorem foldl_lastRefresh {events : List LookupEvent} (h : NoRefresh events) :
    (events.foldl step s).unifiedCache.lastRefresh = s.unifiedCache.lastRefresh := by
  induction events generalizing s with
  | nil => rfl
  | cons event events ih =>
    have hrest : NoRefresh events := fun proc now hmem =>
      h proc now (List.mem_cons_of_mem _ hmem)
    rw [List.foldl_cons, ih hrest]
    -- of the events only a refresh that succeeds restarts the time
    cases event with
    | record call task => rfl
    | lookup conn reading => exact s.getProcessForConnection_lastRefresh reading conn
    | refresh proc now =>
      cases proc with
      | none => rfl
      | some proc => exact absurd List.mem_cons_self (h proc now)

/-- A cached answer was looked up at some step for a connection with the same key, and there has
been no refresh since. -/
theorem exists_fresh {start : EnhancedLinuxProcessLookup} {events : List LookupEvent}
    {key : ConnectionKey} {process : Process}
    (hstart : start.unifiedCache.lookup.lookup key = none)
    (h : (events.foldl step start).unifiedCache.lookup.lookup key = some process) :
    ∃ past conn reading between, events = past ++ .lookup conn reading :: between ∧
      key = .fromConnection conn ∧ (past.foldl step start).fresh reading conn = some process ∧
      NoRefresh between := by
  obtain ⟨past, event, between, rfl, hnot, hsince⟩ :=
    Run.exists_onset
      (P := fun s : EnhancedLinuxProcessLookup => s.unifiedCache.lookup.lookup key = some process)
      (by simp [hstart]) h
  have hrefresh : NoRefresh between := by
    intro proc now hmem
    obtain ⟨front, back, rfl⟩ := List.append_of_mem hmem
    -- a refresh clears the cache
    have hcleared := Run.Always.of_append (front ++ [.refresh (some proc) now]) back
      (by simpa using hsince)
    rw [List.foldl_append] at hcleared
    exact absurd ((AList.lookup_empty key).symm.trans hcleared) (by simp)
  have hentered := hsince.head
  cases event with
  | record call task => exact absurd hentered hnot
  | lookup conn reading =>
    rcases cached_getProcessForConnection hentered with hbefore | ⟨hkey, hfresh⟩
    · exact absurd hbefore hnot
    · exact ⟨past, conn, reading, between, rfl, hkey, hfresh, hrefresh⟩
  | refresh proc now =>
    cases proc with
    | none => exact absurd hentered hnot
    | some proc => exact absurd ((AList.lookup_empty key).symm.trans hentered) (by simp)

/-! ## What stands behind an answer -/

section Start

variable (loaded : Bool) (first : ProcFs) (config : CleanupConfig) (now : Instant)

theorem recorded_newWithConfig (key : List UInt8) :
    (newWithConfig loaded first config now).recorded key = none := by
  cases loaded <;> rfl

/-- An answer that was looked up goes back to a hook call or to a row of the last scan. -/
theorem attested_of_fresh {past : List LookupEvent} {reading : LookupReading} {conn : Connection}
    {process : Process}
    (h : (past.foldl step (newWithConfig loaded first config now)).fresh reading conn =
      some process) : Attested first past conn reading process := by
  have hrows := foldl_rows (newWithConfig loaded first config now) first past rfl
  generalize hs : past.foldl step (newWithConfig loaded first config now) = s at h hrows
  -- the answer is the map's, written by the last call for its key, or a row's
  rcases fresh_eq_some h with ⟨info, hinfo, rfl⟩ | ⟨-, hrow⟩
  · rw [tryEbpf_eq] at hinfo
    obtain ⟨map, hmap, hinfo⟩ := Option.bind_eq_some_iff.mp hinfo
    obtain ⟨flow, hflow, hfound⟩ := Option.bind_eq_some_iff.mp hinfo
    obtain ⟨f, hf, value, hvalue, rfl⟩ := Ebpf.find_eq_some hfound
    have hrecorded : s.recorded (Ebpf.userKey f).asBytes = some value :=
      recorded_maybeCleanupEbpfMap reading (Option.bind_eq_some_iff.mpr ⟨map, hmap, hvalue⟩)
    rw [← hs] at hrecorded
    obtain ⟨call, task, k, hlast, hkey, hbytes, rfl⟩ :=
      exists_lastCall (recorded_newWithConfig loaded first config now _) hrecorded
    have hreports : Reports call flow := ⟨f, hf, by rw [hkey, Ebpf.ConnKey.asBytes_inj hbytes]⟩
    have hbegun : (s.begun reading conn).procfsLookup = s.procfsLookup :=
      s.maybeCleanupEbpfMap_procfsLookup reading
    rw [Ebpf.ConnInfo.ofBytes_asBytes]
    -- its name is the hook's own, one that was known, or one that was read
    rcases resolve_fst (s.begun reading conn) reading (.ofConnInfo (Ebpf.getProcessInfo task)) with
      hname | ⟨name, hname, hknown | hread⟩
    · rw [hname]
      exact .hook hflow hreports hlast (Or.inl rfl)
    · rw [hname]
      rw [hbegun, ← hs] at hknown
      exact .hook hflow hreports hlast (Or.inr (Or.inl (named_of_lookup rfl hknown)))
    · rw [hname]
      exact .hook hflow hreports hlast (Or.inr (Or.inr hread))
  · rw [hrows] at hrow
    exact .row hrow

/-- An answer was looked up, in this call or, with no refresh since, for a connection with the same
key; in the second case the last refresh is recent. -/
theorem exists_fresh_of_answer {before : List LookupEvent} {conn : Connection}
    {reading : LookupReading} {process : Process}
    (h : ((before.foldl step (newWithConfig loaded first config now)).getProcessForConnection
      reading conn).1 = some process) :
    ∃ past conn' reading' between,
      before ++ [.lookup conn reading] = past ++ .lookup conn' reading' :: between ∧
        NoRefresh between ∧
        ConnectionKey.fromConnection conn' = .fromConnection conn ∧
        (reading' = reading ∨
          elapsed reading.checkedAt
            (past.foldl step (newWithConfig loaded first config now)).unifiedCache.lastRefresh <
              Duration.fromSecs 2) ∧
        (past.foldl step (newWithConfig loaded first config now)).fresh reading' conn' =
          some process := by
  rw [getProcessForConnection_fst, Option.or_eq_some_iff] at h
  -- a cached answer was fresh at the lookup that cached it
  rcases h with hcached | ⟨-, hfresh⟩
  · unfold cached at hcached
    split at hcached
    next hgood =>
      obtain ⟨past, conn', reading', between, rfl, hkey, hfresh, hnone⟩ :=
        exists_fresh (AList.lookup_empty _) hcached
      refine ⟨past, conn', reading', between ++ [.lookup conn reading], by simp, ?_, hkey.symm,
        Or.inr ?_, hfresh⟩
      · intro proc now' hmem
        simp only [List.mem_append, List.mem_singleton, reduceCtorEq, or_false] at hmem
        exact hnone proc now' hmem
      -- no refresh in between, so that the age is measured from the same refresh
      · rw [List.foldl_append, List.foldl_cons, foldl_lastRefresh hnone, step,
          getProcessForConnection_lastRefresh] at hgood
        exact hgood
    next => cases hcached
  · exact ⟨before, conn, reading, [], rfl, fun _ _ => List.not_mem_nil, rfl, Or.inl rfl, hfresh⟩

/-- **Every answer of every run has something behind it**: it was looked up, in this call or, less
than two seconds and no refresh before it, for a connection with the same key, and there it goes
back to the last hook call for the flow or to a row of the last scan of procfs. -/
theorem exists_attested (before : List LookupEvent) (conn : Connection) (reading : LookupReading)
    {process : Process}
    (hclock : Run.Along step InTime (newWithConfig loaded first config now)
      (before ++ [.lookup conn reading]))
    (h : ((before.foldl step (newWithConfig loaded first config now)).getProcessForConnection
      reading conn).1 = some process) :
    ∃ past conn' reading' between,
      before ++ [.lookup conn reading] = past ++ .lookup conn' reading' :: between ∧
        NoRefresh between ∧
        ConnectionKey.fromConnection conn' = .fromConnection conn ∧
        reading.checkedAt.nanos < reading'.checkedAt.nanos + Duration.fromSecs 2 ∧
        Attested first past conn' reading' process := by
  obtain ⟨past, conn', reading', between, hsplit, hnone, hkey, hage, hfresh⟩ :=
    exists_fresh_of_answer loaded first config now h
  refine ⟨past, conn', reading', between, hsplit, hnone, hkey, ?_,
    attested_of_fresh loaded first config now hfresh⟩
  -- the last refresh is recent, and the clock was at or past it when the answer was looked up
  have hlast := Run.along_iff_forall_split.mp hclock past (.lookup conn' reading') between hsplit
  rw [InTime] at hlast
  rcases hage with rfl | hage
  · simp [Duration.fromSecs]
  · rw [elapsed] at hage
    omega

end Start

/-- A machine without processes, whose tables of sockets cannot be read. -/
def emptyProc : ProcFs := ⟨[], none, none, none, none⟩

/-- A connection of `10.0.0.1` to port 443 of `10.0.0.2`. -/
def sampleConnection : Connection :=
  Connection.new .tcp (.lan 1 40000) (.lan 2 443) (.tcp .established) ⟨0⟩ ⟨0⟩

/-- Process 100, which connects four seconds after the boot. -/
def sampleTask : Ebpf.Task := ⟨429496729600, 0, none, Vector.replicate 16 0x78, 4000000000⟩

/-- A reading so many nanoseconds after the start, five seconds after the epoch. -/
def sampleReading (nanos : ℤ) : LookupReading :=
  ⟨⟨nanos⟩, ⟨nanos⟩, ⟨5000000000⟩, .listed _, fun _ => none⟩

/-- A refresh, a process that connects, and a lookup of its connection. -/
def sampleEvents : List LookupEvent :=
  [.refresh (some emptyProc) ⟨10⟩, .record Ebpf.sampleCall sampleTask,
    .lookup sampleConnection (sampleReading 20)]

/-- The second lookup finds the answer of the first. -/
theorem exists_attested_sampleEvents :
    ∃ past conn' reading' between,
      sampleEvents ++ [.lookup sampleConnection (sampleReading 1000000000)] =
          past ++ .lookup conn' reading' :: between ∧
        NoRefresh between ∧
        ConnectionKey.fromConnection conn' = .fromConnection sampleConnection ∧
        (1000000000 : ℤ) < reading'.checkedAt.nanos + Duration.fromSecs 2 ∧
        Attested emptyProc past conn' reading' (100, "xxxxxxxxxxxxxxxx") :=
  exists_attested true emptyProc {} ⟨0⟩ sampleEvents sampleConnection (sampleReading 1000000000)
    (by decide +kernel) (by decide +kernel)

section Start

variable (first : ProcFs) (config : CleanupConfig) (now : Instant)

/-! ## Without the program -/

/-- The scan stays the last until a refresh succeeds. -/
theorem lastScan_of_noRefresh {events : List LookupEvent} (h : NoRefresh events) :
    lastScan first events = first := by
  induction events with
  | nil => rfl
  | cons event events ih =>
    have hrest : NoRefresh events := fun proc now hmem =>
      h proc now (List.mem_cons_of_mem _ hmem)
    cases event with
    | record call task => exact ih hrest
    | lookup conn reading => exact ih hrest
    | refresh proc now =>
      cases proc with
      | none => exact ih hrest
      | some proc => exact absurd List.mem_cons_self (h proc now)

/-- A program that could not be loaded stays away. -/
theorem foldl_ebpfTracker_eq_none {events : List LookupEvent} (h : s.ebpfTracker = none) :
    (events.foldl step s).ebpfTracker = none := by
  refine Run.foldl_of_step (I := fun s : EnhancedLinuxProcessLookup => s.ebpfTracker = none)
    (fun s event hs => ?_) h
  cases event with
  | record call task =>
    show s.ebpfTracker.map _ = none
    rw [hs, Option.map_none]
  | lookup conn reading =>
    rw [step, getProcessForConnection_ebpfTracker, maybeCleanupEbpfMap]
    split
    · show s.ebpfTracker.map _ = none
      rw [hs, Option.map_none]
    · exact hs
  | refresh proc now => cases proc <;> exact hs

/-- Without the program a new answer is that of procfs. -/
theorem fresh_of_ebpfTracker_eq_none (h : s.ebpfTracker = none) (reading : LookupReading)
    (conn : Connection) :
    s.fresh reading conn = Host.getProcessForConnection s.procfsLookup.cache conn := by
  have hprocfs : (s.begun reading conn).procfsLookup = s.procfsLookup :=
    s.maybeCleanupEbpfMap_procfsLookup reading
  have htracker : (s.begun reading conn).ebpfTracker = none := by
    show (s.maybeCleanupEbpfMap reading).ebpfTracker = none
    unfold maybeCleanupEbpfMap
    split
    · show s.ebpfTracker.map _ = none
      rw [h, Option.map_none]
    · exact h
  -- so that procfs alone is asked
  have hinfo : (s.begun reading conn).tryEbpf conn = none := by
    rw [tryEbpf_eq, htracker, Option.bind_none]
  cases hrow : Host.getProcessForConnection s.procfsLookup.cache conn with
  | some process => exact fresh_of_procfs hinfo hrow
  | none => rw [fresh, lookupProcessEnhanced_of_none _ _ _ hinfo (by rw [hprocfs, hrow])]

/-- **Without the BPF program the cache cannot be told from the lookup behind it**: in every run
every answer is that of the procfs lookup over its last scan. -/
theorem getProcessForConnection_eq_procfs (events : List LookupEvent) (conn : Connection)
    (reading : LookupReading) :
    ((events.foldl step (newWithConfig false first config now)).getProcessForConnection
        reading conn).1 =
      Host.getProcessForConnection (buildProcessMap (lastScan first events)) conn := by
  -- without the map every fresh answer is a row of the last scan
  have htracker (past : List LookupEvent) :
      (past.foldl step (newWithConfig false first config now)).ebpfTracker = none :=
    foldl_ebpfTracker_eq_none rfl
  have hfresh (past : List LookupEvent) (conn' : Connection) (reading' : LookupReading) :
      (past.foldl step (newWithConfig false first config now)).fresh reading' conn' =
        Host.getProcessForConnection (buildProcessMap (lastScan first past)) conn' := by
    rw [fresh_of_ebpfTracker_eq_none (htracker past),
      foldl_rows (newWithConfig false first config now) first past rfl]
  rw [getProcessForConnection_fst, hfresh]
  cases hcached : (events.foldl step (newWithConfig false first config now)).cached
    reading.checkedAt (.fromConnection conn) with
  | none => rw [Option.none_or]
  | some process =>
    unfold cached at hcached
    split at hcached
    next =>
      obtain ⟨past, conn', reading', between, rfl, hkey, hlooked, hnone⟩ :=
        exists_fresh (AList.lookup_empty _) hcached
      -- a cached answer was looked up since the last scan
      have hscan : lastScan first (past ++ .lookup conn' reading' :: between) =
          lastScan first past := by
        rw [lastScan, List.foldl_append, List.foldl_cons]
        exact lastScan_of_noRefresh _ hnone
      rw [hfresh, Host.getProcessForConnection, ← hkey] at hlooked
      rw [Option.some_or, hscan, ← hlooked]
      rfl
    next => cases hcached

end Start

/-! ## Statistics -/

/-- Every lookup is counted once by how it went and once by its address family. -/
structure Balanced (stats : LookupStats) : Prop where
  outcomes : stats.totalLookups =
    stats.cacheHits + stats.ebpfHits + stats.procfsHits + stats.failedLookups
  families : stats.totalLookups = stats.ipv4Lookups + stats.ipv6Lookups

/-- A lookup is counted by its family before it is known how it goes. -/
theorem count_eq (stats : LookupStats) (conn : Connection) (ebpfAvailable : Bool) :
    (stats.count conn ebpfAvailable).totalLookups = stats.totalLookups + 1 ∧
      (stats.count conn ebpfAvailable).ipv4Lookups + (stats.count conn ebpfAvailable).ipv6Lookups =
        stats.ipv4Lookups + stats.ipv6Lookups + 1 ∧
      (stats.count conn ebpfAvailable).cacheHits = stats.cacheHits ∧
      (stats.count conn ebpfAvailable).ebpfHits = stats.ebpfHits ∧
      (stats.count conn ebpfAvailable).procfsHits = stats.procfsHits ∧
      (stats.count conn ebpfAvailable).failedLookups = stats.failedLookups := by
  have hv4 : stats.ipv4Lookups + 1 + stats.ipv6Lookups =
      stats.ipv4Lookups + stats.ipv6Lookups + 1 := by grind
  have hv6 : stats.ipv4Lookups + (stats.ipv6Lookups + 1) =
      stats.ipv4Lookups + stats.ipv6Lookups + 1 := by grind
  rw [LookupStats.count]
  cases conn.localAddr.ip with
  | v4 ip => cases conn.protocol <;> exact ⟨rfl, hv4, rfl, rfl, rfl, rfl⟩
  | v6 ip => cases conn.protocol <;> exact ⟨rfl, hv6, rfl, rfl, rfl, rfl⟩

/-- A call is counted once. -/
theorem balanced_getProcessForConnection (reading : LookupReading) (conn : Connection)
    (h : Balanced s.stats) :
    Balanced (s.getProcessForConnection reading conn).2.stats ∧
      (s.getProcessForConnection reading conn).2.stats.totalLookups =
        s.stats.totalLookups + 1 := by
  -- the counts of the lookup are made at its beginning, and its outcome counted after
  have hcount : (s.begun reading conn).stats = s.stats.count conn
      (s.maybeCleanupEbpfMap reading).isEbpfAvailable :=
    congrArg (LookupStats.count · conn _) (s.maybeCleanupEbpfMap_stats reading)
  obtain ⟨htotal, hfamilies, hcache, hebpf, hprocfs, hfailed⟩ :=
    count_eq s.stats conn (s.maybeCleanupEbpfMap reading).isEbpfAvailable
  rw [← hcount] at htotal hfamilies hcache hebpf hprocfs hfailed
  have houtcomes := h.outcomes
  have hbegun : (s.begun reading conn).stats.totalLookups =
      (s.begun reading conn).stats.ipv4Lookups + (s.begun reading conn).stats.ipv6Lookups := by
    rw [htotal, hfamilies, h.families]
  refine getProcessForConnection_cases
    (P := fun call => Balanced call.2.stats ∧ call.2.stats.totalLookups = _)
    (fun _ _ => ⟨⟨?_, hbegun⟩, htotal⟩) (fun _ _ => ⟨⟨?_, hbegun⟩, htotal⟩)
    (fun _ _ _ => ⟨⟨?_, hbegun⟩, htotal⟩) ⟨⟨?_, hbegun⟩, htotal⟩ <;>
    · dsimp only
      rw [htotal, houtcomes, hcache, hebpf, hprocfs, hfailed]
      grind

/-- **Every lookup of a run is counted once**: the counts of hits and of failures add up to the
number of lookups, and so do the counts of the address families, modulo `2 ^ 64`. -/
theorem balanced_foldl (loaded : Bool) (first : ProcFs) (config : CleanupConfig) (now : Instant)
    (events : List LookupEvent) :
    Balanced (events.foldl step (newWithConfig loaded first config now)).stats ∧
      (events.foldl step (newWithConfig loaded first config now)).stats.totalLookups =
        UInt64.ofNat (events.countP LookupEvent.isLookup) := by
  induction events using List.reverseRecOn with
  | nil => exact ⟨⟨rfl, rfl⟩, rfl⟩
  | append_singleton events event ih =>
    rw [List.foldl_append, List.foldl_cons, List.foldl_nil, List.countP_append]
    cases event with
    | record call task => exact ih
    -- only a lookup counts, and it adds one to each of the three sums
    | lookup conn reading =>
      obtain ⟨hbalanced, htotal⟩ := balanced_getProcessForConnection reading conn ih.1
      refine ⟨hbalanced, htotal.trans ?_⟩
      rw [ih.2]
      exact (UInt64.ofNat_add _ 1).symm
    | refresh proc now =>
      cases proc <;> exact ih

end EnhancedLinuxProcessLookup

end RustNet.Host
