import RustNet.Host.Ebpf.Cleanup
import RustNet.Host.Ebpf.Tracker
import RustNet.Host.Procfs.Basic
import RustNet.Network.LossyText

/-!
# The lookup on Linux

`EnhancedLinuxProcessLookup`: the socket map of the BPF program is asked first, then the tables read
from procfs, and an answer is kept in a cache that is good for two seconds after a refresh. Before
anything else a call cleans the socket map if the last cleanup is long enough ago.

A call is one step, between two hooks of the program. What it reads, the clocks and the `comm` file
of a process, is a `LookupReading`.

## Main definitions

* `LinuxProcessLookup`: what a scan of procfs leaves, and names read later;
* `EnhancedLinuxProcessLookup.getProcessForConnection`, `EnhancedLinuxProcessLookup.refresh`.

## Main results

* `getProcessForConnection_cases`: all the ways a call can go;
* `getProcessForConnection_fst`, `fresh_eq_some`: where its answer comes from;
* `tryEbpf_eq`: the socket map is asked for the flow of a connection.
-/

namespace RustNet.Host

/-! ## Names of processes -/

/-- `PidNameMap`: the names that the scan of procfs found, by process. -/
abbrev PidNameMap := AList fun _ : UInt32 => String

/-- One round of the loop of `build_inode_map`, as far as it fills the names. -/
def insertName (pidNames : PidNameMap) (entry : ProcDir) : PidNameMap :=
  match entry.process with
  | none => pidNames
  | some process => pidNames.insert process.1 process.2

/-- The names that `build_inode_map` returns. -/
def buildPidNames (entries : List ProcDir) : PidNameMap := entries.foldl insertName ∅

/-- `LinuxProcessLookup`: what the last scan of procfs found. -/
structure LinuxProcessLookup where
  cache : ConnectionProcessMap
  pidNames : PidNameMap

namespace LinuxProcessLookup

/-- The lookup after a scan of procfs. -/
def ofProc (proc : ProcFs) : LinuxProcessLookup where
  cache := buildProcessMap proc
  pidNames := buildPidNames proc.entries

/-- The name in a `comm` file, unless it is blank. -/
def commName (comm : List Char) : Option String :=
  if Text.trim comm = [] then none else some (String.ofList (Text.trim comm))

/-- `get_process_name_by_pid`, where `readComm` reads `/proc/<pid>/comm`. -/
def getProcessNameByPid (lookup : LinuxProcessLookup) (readComm : UInt32 → Option (List Char))
    (pid : UInt32) : Option String × LinuxProcessLookup :=
  match lookup.pidNames.lookup pid with
  | some name => (some name, lookup)
  | none =>
    match (readComm pid).bind commName with
    | none => (none, lookup)
    | some name => (some name, { lookup with pidNames := lookup.pidNames.insert pid name })

end LinuxProcessLookup

/-! ## The state of the lookup -/

/-- `LookupStats`; the counters wrap around. -/
structure LookupStats where
  ebpfHits : UInt64 := 0
  procfsHits : UInt64 := 0
  cacheHits : UInt64 := 0
  totalLookups : UInt64 := 0
  ipv4Lookups : UInt64 := 0
  ipv6Lookups : UInt64 := 0
  tcpLookups : UInt64 := 0
  udpLookups : UInt64 := 0
  cacheEntries : UInt64 := 0
  failedLookups : UInt64 := 0
  ebpfAvailable : Bool := false

/-- The statistics of `get_process_for_connection` that do not depend on the answer. -/
def LookupStats.count (stats : LookupStats) (conn : Connection) (ebpfAvailable : Bool) :
    LookupStats :=
  let stats := { stats with totalLookups := stats.totalLookups + 1 }
  let stats := match conn.localAddr.ip with
    | .v4 _ => { stats with ipv4Lookups := stats.ipv4Lookups + 1 }
    | .v6 _ => { stats with ipv6Lookups := stats.ipv6Lookups + 1 }
  let stats := match conn.protocol with
    | .tcp => { stats with tcpLookups := stats.tcpLookups + 1 }
    | .udp => { stats with udpLookups := stats.udpLookups + 1 }
    | _ => stats
  { stats with ebpfAvailable := ebpfAvailable }

/-- `CleanupConfig`, with its defaults: how often the map is cleaned, and what is stale. -/
structure CleanupConfig where
  cleanupIntervalSecs : UInt64 := 30
  staleThresholdSecs : UInt64 := 60

/-- `ProcessCache`: the answers since the last refresh, and when that was. -/
structure ProcessCache where
  lookup : ConnectionProcessMap
  lastRefresh : Instant

/-- `EnhancedLinuxProcessLookup`, with the socket map of its tracker if the program was loaded. -/
structure EnhancedLinuxProcessLookup where
  ebpfTracker : Option Ebpf.SocketMap
  procfsLookup : LinuxProcessLookup
  unifiedCache : ProcessCache
  stats : LookupStats
  cleanupConfig : CleanupConfig
  lastCleanup : Instant

/-- What a call reads: the clocks when it decides on a cleanup and when it looks into the cache, the
order in which the socket map is iterated, and the `comm` files of the processes. -/
structure LookupReading where
  cleanupAt : Instant
  checkedAt : Instant
  wall : SystemTime
  order : IterOrder (List UInt8)
  readComm : UInt32 → Option (List Char)

/-- `saturating_duration_since`: zero where the clock has gone back. -/
def elapsed (now since : Instant) : ℕ := (now.nanos - since.nanos).toNat

/-! ## The flow of a connection -/

/-- The addresses of a connection, unless they are of different families. -/
def flowAddrs (conn : Connection) : Option Ebpf.FlowAddrs :=
  match conn.localAddr.ip, conn.remoteAddr.ip with
  | .v4 src, .v4 dst => some (.v4 src dst)
  | .v6 src, .v6 dst => some (.v6 src dst)
  | _, _ => none

/-- The flow of a TCP or UDP connection or of an ICMP echo. -/
def flowOf (conn : Connection) : Option Ebpf.Flow :=
  (flowAddrs conn).bind fun addrs =>
    match conn.protocol, conn.protocolState with
    | .tcp, _ => some ⟨addrs, .tcp conn.localAddr.port conn.remoteAddr.port⟩
    | .udp, _ => some ⟨addrs, .udp conn.localAddr.port conn.remoteAddr.port⟩
    | .icmp, .icmp _ (some icmpId) => some ⟨addrs, .icmpEcho icmpId⟩
    | _, _ => none

/-! ## The calls -/

namespace EnhancedLinuxProcessLookup

/-- `new_with_config`: `loaded` tells whether the program could be loaded, and `proc` is what the
first scan reads. -/
def newWithConfig (loaded : Bool) (proc : ProcFs) (config : CleanupConfig) (now : Instant) :
    EnhancedLinuxProcessLookup where
  ebpfTracker := if loaded then some .empty else none
  procfsLookup := .ofProc proc
  unifiedCache := ⟨∅, ⟨now.nanos - Duration.fromSecs 3600⟩⟩
  stats := {}
  cleanupConfig := config
  lastCleanup := ⟨now.nanos - Duration.fromSecs 3600⟩

/-- `is_ebpf_available`: a tracker is always healthy. -/
def isEbpfAvailable (s : EnhancedLinuxProcessLookup) : Bool := s.ebpfTracker.isSome

/-- The test of `maybe_cleanup_ebpf_map`: the interval is over, in full seconds. -/
def CleanupDue (s : EnhancedLinuxProcessLookup) (now : Instant) : Prop :=
  s.cleanupConfig.cleanupIntervalSecs.toNat ≤ elapsed now s.lastCleanup / Duration.fromSecs 1

instance (s : EnhancedLinuxProcessLookup) (now : Instant) : Decidable (s.CleanupDue now) :=
  inferInstanceAs (Decidable (_ ≤ _))

/-- `maybe_cleanup_ebpf_map`: where it is due the map is cleaned, if there is one, and the interval
starts again. -/
def maybeCleanupEbpfMap (s : EnhancedLinuxProcessLookup) (reading : LookupReading) :
    EnhancedLinuxProcessLookup :=
  if s.CleanupDue reading.cleanupAt then
    { s with
      lastCleanup := reading.cleanupAt
      ebpfTracker := s.ebpfTracker.map fun map =>
        (Ebpf.cleanupStaleEntries map reading.order reading.wall
          s.cleanupConfig.staleThresholdSecs).1 }
  else s

/-- The answer for an entry of the socket map. The program may have recorded the name of a thread,
so a name that procfs gives the process goes first. -/
def resolve (s : EnhancedLinuxProcessLookup) (reading : LookupReading) (info : Ebpf.ProcessInfo) :
    Process × EnhancedLinuxProcessLookup :=
  let named := s.procfsLookup.getProcessNameByPid reading.readComm info.pid
  ((info.pid, named.1.getD (String.ofList (fromUtf8Lossy info.comm))),
    { s with procfsLookup := named.2 })

/-- `try_ebpf_lookup`, up to the name. -/
def tryEbpfLookup (s : EnhancedLinuxProcessLookup) (conn : Connection) :
    Option Ebpf.ProcessInfo :=
  s.ebpfTracker.bind fun map =>
    Ebpf.lookup map.toBpfMap conn.localAddr.ip conn.remoteAddr.ip conn.localAddr.port
      conn.remoteAddr.port (decide (conn.protocol = .tcp))

/-- `try_ebpf_icmp_lookup`, up to the name. -/
def tryEbpfIcmpLookup (s : EnhancedLinuxProcessLookup) (conn : Connection) (icmpId : UInt16) :
    Option Ebpf.ProcessInfo :=
  s.ebpfTracker.bind fun map =>
    Ebpf.lookupIcmp map.toBpfMap conn.localAddr.ip conn.remoteAddr.ip icmpId

/-- The entry of the socket map that `lookup_process_enhanced` asks for. -/
def tryEbpf (s : EnhancedLinuxProcessLookup) (conn : Connection) : Option Ebpf.ProcessInfo :=
  match conn.protocol with
  | .tcp | .udp => s.tryEbpfLookup conn
  | .icmp =>
    match conn.protocolState with
    | .icmp _ (some icmpId) => s.tryEbpfIcmpLookup conn icmpId
    | _ => none
  | .igmp | .arp => none

/-- `lookup_process_enhanced`: the hooks are asked first, then the last scan of procfs. What was
found, or that nothing was, is counted. -/
def lookupProcessEnhanced (s : EnhancedLinuxProcessLookup) (reading : LookupReading)
    (conn : Connection) : Option Process × EnhancedLinuxProcessLookup :=
  match s.tryEbpf conn with
  | some info =>
    let resolved := s.resolve reading info
    (some resolved.1,
      { resolved.2 with stats := { s.stats with ebpfHits := s.stats.ebpfHits + 1 } })
  | none =>
    match Host.getProcessForConnection s.procfsLookup.cache conn with
    | some result =>
      (some result, { s with stats := { s.stats with procfsHits := s.stats.procfsHits + 1 } })
    | none => (none, s)

/-- `get_process_for_connection` counts the lookup, and the family of its address. -/
def countLookup (s : EnhancedLinuxProcessLookup) (conn : Connection) :
    EnhancedLinuxProcessLookup :=
  { s with stats := s.stats.count conn s.isEbpfAvailable }

/-- The cached answer, while the cache is good. -/
def cached (s : EnhancedLinuxProcessLookup) (now : Instant) (key : ConnectionKey) :
    Option Process :=
  if elapsed now s.unifiedCache.lastRefresh < Duration.fromSecs 2 then
    s.unifiedCache.lookup.lookup key
  else none

/-- `get_process_for_connection`: a cleanup if one is due, the cache, and then the lookup behind it,
whose answer goes into the cache. -/
def getProcessForConnection (s : EnhancedLinuxProcessLookup) (reading : LookupReading)
    (conn : Connection) : Option Process × EnhancedLinuxProcessLookup :=
  let s := (s.maybeCleanupEbpfMap reading).countLookup conn
  let key := ConnectionKey.fromConnection conn
  match s.cached reading.checkedAt key with
  | some process =>
    (some process, { s with stats := { s.stats with cacheHits := s.stats.cacheHits + 1 } })
  -- what is found is cached, and what is not found is asked again the next time
  | none =>
    match s.lookupProcessEnhanced reading conn with
    | (some result, s) =>
      let lookup := s.unifiedCache.lookup.insert key result
      (some result,
        { s with
          unifiedCache := { s.unifiedCache with lookup := lookup }
          stats := { s.stats with cacheEntries := UInt64.ofNat lookup.size } })
    | (none, s) =>
      (none, { s with stats := { s.stats with failedLookups := s.stats.failedLookups + 1 } })

/-- `refresh`: nothing changes when `/proc` cannot be read. -/
def refresh (s : EnhancedLinuxProcessLookup) (proc : Option ProcFs) (now : Instant) :
    EnhancedLinuxProcessLookup :=
  match proc with
  | none => s
  | some proc =>
    { s with
      procfsLookup := .ofProc proc
      unifiedCache := ⟨∅, now⟩ }

/-- A hook of the program records its call. -/
def record (s : EnhancedLinuxProcessLookup) (call : Ebpf.HookCall) (task : Ebpf.Task) :
    EnhancedLinuxProcessLookup :=
  { s with ebpfTracker := s.ebpfTracker.map fun map => map.update call task }

/-! ## What a call does -/

variable (s : EnhancedLinuxProcessLookup) (reading : LookupReading) (conn : Connection)

@[simp]
theorem maybeCleanupEbpfMap_procfsLookup :
    (s.maybeCleanupEbpfMap reading).procfsLookup = s.procfsLookup := by
  unfold maybeCleanupEbpfMap
  split <;> rfl

@[simp]
theorem maybeCleanupEbpfMap_unifiedCache :
    (s.maybeCleanupEbpfMap reading).unifiedCache = s.unifiedCache := by
  unfold maybeCleanupEbpfMap
  split <;> rfl

@[simp]
theorem maybeCleanupEbpfMap_stats : (s.maybeCleanupEbpfMap reading).stats = s.stats := by
  unfold maybeCleanupEbpfMap
  split <;> rfl

@[simp]
theorem maybeCleanupEbpfMap_cleanupConfig :
    (s.maybeCleanupEbpfMap reading).cleanupConfig = s.cleanupConfig := by
  unfold maybeCleanupEbpfMap
  split <;> rfl

/-- A name is looked up without changing anything else, or read and kept. -/
theorem getProcessNameByPid_cases (lookup : LinuxProcessLookup)
    (readComm : UInt32 → Option (List Char)) (pid : UInt32) :
    (lookup.getProcessNameByPid readComm pid = (lookup.pidNames.lookup pid, lookup)) ∨
      ∃ comm name, readComm pid = some comm ∧ LinuxProcessLookup.commName comm = some name ∧
        lookup.getProcessNameByPid readComm pid =
          (some name, { lookup with pidNames := lookup.pidNames.insert pid name }) := by
  unfold LinuxProcessLookup.getProcessNameByPid
  cases hknown : lookup.pidNames.lookup pid with
  | some name => exact Or.inl rfl
  | none =>
    cases hread : (readComm pid).bind LinuxProcessLookup.commName with
    | none => exact Or.inl rfl
    | some name =>
      obtain ⟨comm, hcomm, hname⟩ := Option.bind_eq_some_iff.mp hread
      exact Or.inr ⟨comm, name, hcomm, hname, rfl⟩

@[simp]
theorem getProcessNameByPid_cache (lookup : LinuxProcessLookup)
    (readComm : UInt32 → Option (List Char)) (pid : UInt32) :
    (lookup.getProcessNameByPid readComm pid).2.cache = lookup.cache := by
  rcases getProcessNameByPid_cases lookup readComm pid with h | ⟨comm, name, -, -, h⟩ <;> rw [h]

/-- The name in an answer is that of the entry, or one that procfs gives the process. -/
theorem resolve_fst (info : Ebpf.ProcessInfo) :
    (s.resolve reading info).1 = (info.pid, String.ofList (fromUtf8Lossy info.comm)) ∨
      ∃ name, (s.resolve reading info).1 = (info.pid, name) ∧
        (s.procfsLookup.pidNames.lookup info.pid = some name ∨
          ∃ comm, reading.readComm info.pid = some comm ∧
            LinuxProcessLookup.commName comm = some name) := by
  rcases getProcessNameByPid_cases s.procfsLookup reading.readComm info.pid with
    h | ⟨comm, name, hcomm, hname, h⟩
  · cases hknown : s.procfsLookup.pidNames.lookup info.pid with
    | none =>
      refine Or.inl ?_
      rw [resolve, h, hknown, Option.getD_none]
    | some name =>
      refine Or.inr ⟨name, ?_, Or.inl rfl⟩
      rw [resolve, h, hknown, Option.getD_some]
  · refine Or.inr ⟨name, ?_, Or.inr ⟨comm, hcomm, hname⟩⟩
    rw [resolve, h, Option.getD_some]

/-- The name of an entry of the socket map is resolved. -/
theorem lookupProcessEnhanced_of_ebpf {info : Ebpf.ProcessInfo} (h : s.tryEbpf conn = some info) :
    s.lookupProcessEnhanced reading conn = (some (s.resolve reading info).1,
      { (s.resolve reading info).2 with
        stats := { s.stats with ebpfHits := s.stats.ebpfHits + 1 } }) := by
  simp only [lookupProcessEnhanced, h]

/-- A connection that is not in the socket map is looked up in the tables of procfs. -/
theorem lookupProcessEnhanced_of_procfs {process : Process} (h : s.tryEbpf conn = none)
    (hrow : Host.getProcessForConnection s.procfsLookup.cache conn = some process) :
    s.lookupProcessEnhanced reading conn = (some process,
      { s with stats := { s.stats with procfsHits := s.stats.procfsHits + 1 } }) := by
  simp only [lookupProcessEnhanced, h, hrow]

theorem lookupProcessEnhanced_of_none (h : s.tryEbpf conn = none)
    (hrow : Host.getProcessForConnection s.procfsLookup.cache conn = none) :
    s.lookupProcessEnhanced reading conn = (none, s) := by
  simp only [lookupProcessEnhanced, h, hrow]

/-- The state in which a call looks into the cache. -/
def begun : EnhancedLinuxProcessLookup := (s.maybeCleanupEbpfMap reading).countLookup conn

/-- The answer that does not come from the cache. -/
def fresh : Option Process := ((s.begun reading conn).lookupProcessEnhanced reading conn).1

/-- A cached answer is returned. -/
theorem getProcessForConnection_of_cached {process : Process}
    (h : s.cached reading.checkedAt (.fromConnection conn) = some process) :
    s.getProcessForConnection reading conn = (some process,
      { s.begun reading conn with
        stats := { (s.begun reading conn).stats with
          cacheHits := (s.begun reading conn).stats.cacheHits + 1 } }) := by
  have hcached : (s.begun reading conn).cached reading.checkedAt (.fromConnection conn) =
      some process := by
    simpa [cached, begun, countLookup] using h
  rw [begun] at hcached
  simp only [getProcessForConnection, hcached, begun]

theorem cached_begun (now : Instant) (key : ConnectionKey) :
    (s.begun reading conn).cached now key = s.cached now key := by
  simp [cached, begun, countLookup]

variable {s reading conn}

/-- A connection in the socket map is answered by its entry, and the answer cached. -/
theorem getProcessForConnection_of_ebpf {info : Ebpf.ProcessInfo}
    (h : s.cached reading.checkedAt (.fromConnection conn) = none)
    (hinfo : (s.begun reading conn).tryEbpf conn = some info) :
    s.getProcessForConnection reading conn =
      let resolved := (s.begun reading conn).resolve reading info
      let lookup := s.unifiedCache.lookup.insert (.fromConnection conn) resolved.1
      (some resolved.1,
        { resolved.2 with
          unifiedCache := { s.unifiedCache with lookup := lookup }
          stats := { (s.begun reading conn).stats with
            ebpfHits := (s.begun reading conn).stats.ebpfHits + 1
            cacheEntries := UInt64.ofNat lookup.size } }) := by
  have hcache : (s.begun reading conn).unifiedCache = s.unifiedCache :=
    s.maybeCleanupEbpfMap_unifiedCache reading
  rw [← hcache]
  rw [← s.cached_begun reading conn] at h
  unfold getProcessForConnection
  simp only [begun] at h hinfo ⊢
  simp only [h, lookupProcessEnhanced_of_ebpf _ _ _ hinfo]
  rfl

/-- A connection in the tables of procfs only is answered by its row, and the answer cached. -/
theorem getProcessForConnection_of_procfs {process : Process}
    (h : s.cached reading.checkedAt (.fromConnection conn) = none)
    (hinfo : (s.begun reading conn).tryEbpf conn = none)
    (hrow : Host.getProcessForConnection s.procfsLookup.cache conn = some process) :
    s.getProcessForConnection reading conn =
      let lookup := s.unifiedCache.lookup.insert (.fromConnection conn) process
      (some process,
        { s.begun reading conn with
          unifiedCache := { s.unifiedCache with lookup := lookup }
          stats := { (s.begun reading conn).stats with
            procfsHits := (s.begun reading conn).stats.procfsHits + 1
            cacheEntries := UInt64.ofNat lookup.size } }) := by
  have hcache : (s.begun reading conn).unifiedCache = s.unifiedCache :=
    s.maybeCleanupEbpfMap_unifiedCache reading
  have hprocfs : (s.begun reading conn).procfsLookup = s.procfsLookup :=
    s.maybeCleanupEbpfMap_procfsLookup reading
  rw [← hcache]
  rw [← hprocfs] at hrow
  rw [← s.cached_begun reading conn] at h
  unfold getProcessForConnection
  simp only [begun] at h hinfo hrow ⊢
  simp only [h, lookupProcessEnhanced_of_procfs _ _ _ hinfo hrow]

/-- Any other connection has no answer. -/
theorem getProcessForConnection_of_none
    (h : s.cached reading.checkedAt (.fromConnection conn) = none)
    (hinfo : (s.begun reading conn).tryEbpf conn = none)
    (hrow : Host.getProcessForConnection s.procfsLookup.cache conn = none) :
    s.getProcessForConnection reading conn = (none,
      { s.begun reading conn with
        stats := { (s.begun reading conn).stats with
          failedLookups := (s.begun reading conn).stats.failedLookups + 1 } }) := by
  have hprocfs : (s.begun reading conn).procfsLookup = s.procfsLookup :=
    s.maybeCleanupEbpfMap_procfsLookup reading
  rw [← hprocfs] at hrow
  rw [← s.cached_begun reading conn] at h
  unfold getProcessForConnection
  simp only [begun] at h hinfo hrow ⊢
  simp only [h, lookupProcessEnhanced_of_none _ _ _ hinfo hrow]

/-- What holds after each way that a call can go holds after the call. -/
theorem getProcessForConnection_cases {P : Option Process × EnhancedLinuxProcessLookup → Prop}
    (hcached : ∀ process, s.cached reading.checkedAt (.fromConnection conn) = some process →
      P (some process, { s.begun reading conn with
        stats := { (s.begun reading conn).stats with
          cacheHits := (s.begun reading conn).stats.cacheHits + 1 } }))
    (hebpf : ∀ info, (s.begun reading conn).tryEbpf conn = some info →
      let resolved := (s.begun reading conn).resolve reading info
      let lookup := s.unifiedCache.lookup.insert (.fromConnection conn) resolved.1
      P (some resolved.1, { resolved.2 with
        unifiedCache := { s.unifiedCache with lookup := lookup }
        stats := { (s.begun reading conn).stats with
          ebpfHits := (s.begun reading conn).stats.ebpfHits + 1
          cacheEntries := UInt64.ofNat lookup.size } }))
    (hprocfs : ∀ process, (s.begun reading conn).tryEbpf conn = none →
      Host.getProcessForConnection s.procfsLookup.cache conn = some process →
      let lookup := s.unifiedCache.lookup.insert (.fromConnection conn) process
      P (some process, { s.begun reading conn with
        unifiedCache := { s.unifiedCache with lookup := lookup }
        stats := { (s.begun reading conn).stats with
          procfsHits := (s.begun reading conn).stats.procfsHits + 1
          cacheEntries := UInt64.ofNat lookup.size } }))
    (hnone : P (none, { s.begun reading conn with
      stats := { (s.begun reading conn).stats with
        failedLookups := (s.begun reading conn).stats.failedLookups + 1 } })) :
    P (s.getProcessForConnection reading conn) := by
  cases h : s.cached reading.checkedAt (.fromConnection conn) with
  -- the four sources in the order in which they are asked
  | some process =>
    rw [getProcessForConnection_of_cached _ _ _ h]
    exact hcached process h
  | none =>
    cases hinfo : (s.begun reading conn).tryEbpf conn with
    | some info =>
      rw [getProcessForConnection_of_ebpf h hinfo]
      exact hebpf info hinfo
    | none =>
      cases hrow : Host.getProcessForConnection s.procfsLookup.cache conn with
      | some process =>
        rw [getProcessForConnection_of_procfs h hinfo hrow]
        exact hprocfs process hinfo hrow
      | none =>
        rw [getProcessForConnection_of_none h hinfo hrow]
        exact hnone

/-- A call answers from the cache if it can. -/
theorem getProcessForConnection_fst : (s.getProcessForConnection reading conn).1 =
    (s.cached reading.checkedAt (.fromConnection conn)).or (s.fresh reading conn) := by
  cases h : s.cached reading.checkedAt (.fromConnection conn) with
  | some process => rw [getProcessForConnection_of_cached _ _ _ h, Option.some_or]
  | none =>
    rw [Option.none_or, fresh]
    -- the cleanup of the map leaves the other source alone
    have hprocfs : (s.begun reading conn).procfsLookup = s.procfsLookup :=
      s.maybeCleanupEbpfMap_procfsLookup reading
    cases hinfo : (s.begun reading conn).tryEbpf conn with
    | some info =>
      rw [getProcessForConnection_of_ebpf h hinfo, lookupProcessEnhanced_of_ebpf _ _ _ hinfo]
    | none =>
      cases hrow : Host.getProcessForConnection s.procfsLookup.cache conn with
      | some process =>
        rw [getProcessForConnection_of_procfs h hinfo hrow,
          lookupProcessEnhanced_of_procfs _ _ _ hinfo (by rw [hprocfs, hrow])]
      | none =>
        rw [getProcessForConnection_of_none h hinfo hrow,
          lookupProcessEnhanced_of_none _ _ _ hinfo (by rw [hprocfs, hrow])]

theorem fresh_of_ebpf {info : Ebpf.ProcessInfo}
    (hinfo : (s.begun reading conn).tryEbpf conn = some info) :
    s.fresh reading conn = some ((s.begun reading conn).resolve reading info).1 := by
  rw [fresh, lookupProcessEnhanced_of_ebpf _ _ _ hinfo]

theorem fresh_of_procfs {process : Process} (hinfo : (s.begun reading conn).tryEbpf conn = none)
    (hrow : Host.getProcessForConnection s.procfsLookup.cache conn = some process) :
    s.fresh reading conn = some process := by
  have hprocfs : (s.begun reading conn).procfsLookup = s.procfsLookup :=
    s.maybeCleanupEbpfMap_procfsLookup reading
  rw [fresh, lookupProcessEnhanced_of_procfs _ _ _ hinfo (by rw [hprocfs, hrow])]

/-- A new answer is that of the socket map, or that of procfs where the map has none. -/
theorem fresh_eq_some {process : Process} (h : s.fresh reading conn = some process) :
    (∃ info, (s.begun reading conn).tryEbpf conn = some info ∧
      process = ((s.begun reading conn).resolve reading info).1) ∨
      (s.begun reading conn).tryEbpf conn = none ∧
        Host.getProcessForConnection s.procfsLookup.cache conn = some process := by
  have hprocfs : (s.begun reading conn).procfsLookup = s.procfsLookup :=
    s.maybeCleanupEbpfMap_procfsLookup reading
  unfold fresh at h
  -- the map is asked first, and the tables of the kernel after it
  cases hinfo : (s.begun reading conn).tryEbpf conn with
  | some info =>
    rw [lookupProcessEnhanced_of_ebpf _ _ _ hinfo] at h
    exact Or.inl ⟨info, rfl, (Option.some.inj h).symm⟩
  | none =>
    cases hrow : Host.getProcessForConnection s.procfsLookup.cache conn with
    | some process' =>
      rw [lookupProcessEnhanced_of_procfs _ _ _ hinfo (by rw [hprocfs, hrow])] at h
      exact Or.inr ⟨rfl, h⟩
    | none =>
      rw [lookupProcessEnhanced_of_none _ _ _ hinfo (by rw [hprocfs, hrow])] at h
      cases h

/-- The socket map is asked for the flow of the connection. -/
theorem tryEbpf_eq (s : EnhancedLinuxProcessLookup) (conn : Connection) :
    s.tryEbpf conn = s.ebpfTracker.bind fun map =>
      (flowOf conn).bind fun flow => Ebpf.find map.toBpfMap flow := by
  obtain ⟨tracker, _, _, _, _, _⟩ := s
  cases tracker with
  -- without a map no branch finds anything
  | none =>
    unfold tryEbpf
    split
    · rfl
    · rfl
    · split <;> rfl
    · rfl
    · rfl
  -- one lookup for each protocol and version, where both ends are of the same version
  | some map =>
    unfold tryEbpf tryEbpfLookup tryEbpfIcmpLookup flowOf flowAddrs
    cases hlocal : conn.localAddr.ip <;> cases hremote : conn.remoteAddr.ip <;>
      cases hprotocol : conn.protocol <;> cases hstate : conn.protocolState <;>
      first
      | rfl
      | (rename_i icmpId; cases icmpId <;> rfl)

end EnhancedLinuxProcessLookup

end RustNet.Host
