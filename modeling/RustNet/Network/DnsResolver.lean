import RustNet.Foundations.Table
import RustNet.Foundations.Threads
import RustNet.Network.Types.Octets

/-!
# Reverse DNS

`DnsResolver` resolves addresses to host names in the background. A caller that finds no usable
entry for an address in the cache queues a request; a resolver thread takes it, checks the cache
again, marks the address as pending, looks it up and stores the answer. A third thread removes old
entries from the cache.

The threads take turns in any order, and each access to the cache or the queue is a step of its
own. What a lookup answers and what the clock reads is part of the event.

## Main definitions

* `DnsResolver`, `DnsResolver.step`: the cache, the queue and the threads, and their steps;
* `DnsResolver.AtMostOne`: no address has two requests that are queued or being resolved;
* `DnsResolver.Unrivalled`: the requests that find no other on its way.

## Main results

* `exclusive_step`: an unrivalled step leaves an address one request at most;
* `always_atMostOne_of_along`: so does a run of such steps;
* `outstanding_ticks`: every tick before a resolver has moved queues the address once more.
-/

namespace RustNet

/-- `ResolutionState`: what an entry of the cache stands for. -/
inductive ResolutionState
  | pending | resolved | failed
deriving DecidableEq

/-- `CachedHostname`: an entry of the cache, with the time at which it was stored. -/
structure CachedHostname where
  hostname : Option String
  resolvedAt : Instant
  state : ResolutionState

/-- `DnsResolverConfig`; the durations are in nanoseconds. -/
structure DnsResolverConfig where
  cacheTtl : ℕ
  negativeCacheTtl : ℕ
  maxCacheSize : ℕ

/-- `DnsResolverConfig::default`, with its times in nanoseconds. -/
def DnsResolverConfig.default : DnsResolverConfig where
  cacheTtl := Duration.fromSecs 300
  negativeCacheTtl := Duration.fromSecs 60
  maxCacheSize := 10000

namespace CachedHostname

/-- `pending`: the mark of a request that has been queued. -/
def pending (now : Instant) : CachedHostname := ⟨none, now, .pending⟩

/-- `resolved`: the name that was found. -/
def resolved (hostname : String) (now : Instant) : CachedHostname := ⟨some hostname, now, .resolved⟩

/-- `failed`: no name was found, which is remembered as well. -/
def failed (now : Instant) : CachedHostname := ⟨none, now, .failed⟩

/-- `resolved_at.elapsed()`: zero where the clock has gone back. -/
def age (entry : CachedHostname) (now : Instant) : ℕ := (now.nanos - entry.resolvedAt.nanos).toNat

/-- The entry makes another lookup unnecessary: it is pending, or not expired. -/
def usable (config : DnsResolverConfig) (entry : CachedHostname) (now : Instant) : Bool :=
  match entry.state with
  | .pending => true
  | .resolved => decide (entry.age now < config.cacheTtl)
  | .failed => decide (entry.age now < config.negativeCacheTtl)

/-- The cleanup leaves the entry in the cache. -/
def retained (config : DnsResolverConfig) (entry : CachedHostname) (now : Instant) : Bool :=
  match entry.state with
  | .resolved => decide (entry.age now < config.cacheTtl)
  | .failed => decide (entry.age now < config.negativeCacheTtl)
  | .pending => decide (entry.age now < Duration.fromSecs 30)

end CachedHostname

/-- Where a caller of `request_resolution` is. -/
inductive RequesterPoint
  | idle
  /-- Past the check of the cache, before the address is queued. -/
  | sending (ip : IpAddr)
deriving DecidableEq

/-- Where a resolver thread is. -/
inductive ResolverPoint
  | waiting
  /-- With an address from the queue, before the check of the cache. -/
  | received (ip : IpAddr)
  /-- Past the check, before the address is marked as pending. -/
  | marking (ip : IpAddr)
  /-- Before the answer of the lookup is stored. -/
  | resolving (ip : IpAddr)
deriving DecidableEq

/-- The requests for `ip` that a caller is about to queue. -/
def RequesterPoint.sends (ip : IpAddr) : RequesterPoint → ℕ
  | .idle => 0
  | .sending a => if a = ip then 1 else 0

/-- The requests for `ip` that a resolver thread has. -/
def ResolverPoint.holds (ip : IpAddr) : ResolverPoint → ℕ
  | .waiting => 0
  | .received a | .marking a | .resolving a => if a = ip then 1 else 0

/-- The requests for `ip` that a resolver thread has and has not marked. -/
def ResolverPoint.holdsUnmarked (ip : IpAddr) : ResolverPoint → ℕ
  | .waiting | .resolving _ => 0
  | .received a | .marking a => if a = ip then 1 else 0

@[simp]
theorem RequesterPoint.sends_idle (ip : IpAddr) : RequesterPoint.idle.sends ip = 0 := rfl

@[simp]
theorem RequesterPoint.sends_sending (ip a : IpAddr) :
    (RequesterPoint.sending a).sends ip = if a = ip then 1 else 0 := rfl

@[simp]
theorem ResolverPoint.holds_waiting (ip : IpAddr) : ResolverPoint.waiting.holds ip = 0 := rfl

@[simp]
theorem ResolverPoint.holds_received (ip a : IpAddr) :
    (ResolverPoint.received a).holds ip = if a = ip then 1 else 0 := rfl

@[simp]
theorem ResolverPoint.holds_marking (ip a : IpAddr) :
    (ResolverPoint.marking a).holds ip = if a = ip then 1 else 0 := rfl

@[simp]
theorem ResolverPoint.holds_resolving (ip a : IpAddr) :
    (ResolverPoint.resolving a).holds ip = if a = ip then 1 else 0 := rfl

/-- Where the cleanup thread is. -/
inductive CacheCleanupPoint
  | sleeping
  /-- Past the removal of expired entries. -/
  | measuring
  /-- With the oldest entries still to remove. -/
  | evicting (ips : List IpAddr)

/-- The resolver threads `ι`, the callers `κ`, and what they share. -/
structure DnsResolver (ι κ : Type*) where
  config : DnsResolverConfig
  cache : AList fun _ : IpAddr => CachedHostname
  /-- The channel from `request_tx`, the next address first. -/
  queue : List IpAddr
  requesters : κ → RequesterPoint
  resolvers : ι → ResolverPoint
  cleanup : CacheCleanupPoint

/-- A step of a thread, with what the environment decides for it. -/
inductive ResolverEvent (ι κ : Type*)
  /-- A caller requests a resolution. -/
  | request (c : κ) (ip : IpAddr) (now : Instant)
  /-- A caller goes on. -/
  | send (c : κ)
  /-- A resolver thread goes on, to the answer `hostname` if it ends a lookup. -/
  | resolve (i : ι) (hostname : Option String) (now : Instant)
  /-- The cleanup thread goes on. -/
  | cleanup (now : Instant) (order : IterOrder IpAddr)

namespace DnsResolver

variable {ι κ : Type*}

/-- Before the first request: the cache and the queue are empty, and every thread waits. -/
def new (ι κ : Type*) (config : DnsResolverConfig) : DnsResolver ι κ where
  config := config
  cache := ∅
  queue := []
  requesters := fun _ => .idle
  resolvers := fun _ => .waiting
  cleanup := .sleeping

section Steps

variable (s : DnsResolver ι κ)

/-- The cache has a usable entry for the address. -/
def cached (ip : IpAddr) (now : Instant) : Bool :=
  (s.cache.lookup ip).any fun entry => entry.usable s.config now

/-- `request_resolution` goes on to queue the address. -/
def needsResolution (ip : IpAddr) (now : Instant) : Bool :=
  !(ip.isLoopback || ip.isLinkLocal) && !s.cached ip now

/-- The addresses of the `count` oldest entries; the sort is stable. -/
def oldestResolved (order : IterOrder IpAddr) (count : ℕ) : List IpAddr :=
  let entries := (s.cache.entriesIn order).map fun e => (e.1, e.2.resolvedAt)
  ((entries.insertionSort fun a b => a.2.nanos ≤ b.2.nanos).take count).map Prod.fst

variable [DecidableEq ι] [DecidableEq κ]

/-- The check of `request_resolution`: a caller whose address needs a resolution goes on to the
queue. -/
def request (c : κ) (ip : IpAddr) (now : Instant) : DnsResolver ι κ :=
  match s.requesters c with
  | .idle =>
    if s.needsResolution ip now then
      { s with requesters := Function.update s.requesters c (.sending ip) }
    else s
  | .sending _ => s

/-- The end of `request_resolution`: the address goes to the end of the queue. -/
def send (c : κ) : DnsResolver ι κ :=
  match s.requesters c with
  | .idle => s
  | .sending ip =>
    { s with queue := s.queue ++ [ip], requesters := Function.update s.requesters c .idle }

/-- The loop of a resolver thread, from one access to the queue or the cache to the next. -/
def resolve (i : ι) (hostname : Option String) (now : Instant) : DnsResolver ι κ :=
  match s.resolvers i with
  | .waiting =>
    match s.queue with
    | [] => s
    | ip :: queue =>
      { s with queue := queue, resolvers := Function.update s.resolvers i (.received ip) }
  | .received ip =>
    -- skip if already resolved or pending
    if s.cached ip now then { s with resolvers := Function.update s.resolvers i .waiting }
    else { s with resolvers := Function.update s.resolvers i (.marking ip) }
  | .marking ip =>
    -- whatever the cache holds by now is replaced
    { s with
      cache := s.cache.insert ip (.pending now)
      resolvers := Function.update s.resolvers i (.resolving ip) }
  | .resolving ip =>
    let entry := match hostname with
      | some hostname => CachedHostname.resolved hostname now
      | none => CachedHostname.failed now
    { s with
      cache := s.cache.insert ip entry
      resolvers := Function.update s.resolvers i .waiting }

omit [DecidableEq ι] [DecidableEq κ] in
/-- The loop of the cleanup thread. -/
def cleanUp (now : Instant) (order : IterOrder IpAddr) : DnsResolver ι κ :=
  match s.cleanup with
  | .sleeping =>
    -- a pending entry goes after thirty seconds, even if its lookup is still running
    { s with
      cache := s.cache.retain fun _ entry => entry.retained s.config now
      cleanup := .measuring }
  | .measuring =>
    { s with cleanup :=
        if s.config.maxCacheSize < s.cache.size then
          .evicting (s.oldestResolved order (s.cache.size - s.config.maxCacheSize))
        else .sleeping }
  | .evicting (ip :: ips) => { s with cache := s.cache.erase ip, cleanup := .evicting ips }
  | .evicting [] => { s with cleanup := .sleeping }

/-- One step of a caller, of a resolver thread or of the cleanup thread. -/
def step (s : DnsResolver ι κ) : ResolverEvent ι κ → DnsResolver ι κ
  | .request c ip now => s.request c ip now
  | .send c => s.send c
  | .resolve i hostname now => s.resolve i hostname now
  | .cleanup now order => s.cleanUp now order

end Steps

/-! ## Requests -/

section Requests

variable [Fintype ι] [Fintype κ]

/-- The requests for `ip` that are queued or being resolved. -/
def outstanding (s : DnsResolver ι κ) (ip : IpAddr) : ℕ :=
  s.queue.count ip + ∑ i, (s.resolvers i).holds ip

/-- No address has two requests that are queued or being resolved. -/
def AtMostOne (s : DnsResolver ι κ) : Prop := ∀ ip, s.outstanding ip ≤ 1

/-- The requests for `ip` that have passed the check of the cache and have not marked the address
as pending. -/
def onTheWay (s : DnsResolver ι κ) (ip : IpAddr) : ℕ :=
  (∑ c, (s.requesters c).sends ip) + s.queue.count ip + ∑ i, (s.resolvers i).holdsUnmarked ip

/-- A request that passes the check finds no other for the address on the way to its mark, and no
lookup of the address whose mark is gone. -/
def Unrivalled (s : DnsResolver ι κ) : ResolverEvent ι κ → Prop
  | .request c ip now => s.requesters c = .idle → s.needsResolution ip now = true →
      -- the first is what `request_resolution` does not check
      s.onTheWay ip = 0 ∧ ∀ i, s.resolvers i = .resolving ip →
        (s.cache.lookup ip).map CachedHostname.state = some .pending
  | _ => True

instance [DecidableEq κ] (s : DnsResolver ι κ) (e : ResolverEvent ι κ) :
    Decidable (s.Unrivalled e) := by
  unfold Unrivalled
  split <;> infer_instance

/-- The requests for `ip` that are outstanding, or about to be. -/
def claims (s : DnsResolver ι κ) (ip : IpAddr) : ℕ :=
  (∑ c, (s.requesters c).sends ip) + s.outstanding ip

/-- An address has one request at most, which is outstanding or about to be. -/
def Exclusive (s : DnsResolver ι κ) : Prop := ∀ ip, s.claims ip ≤ 1

theorem Exclusive.atMostOne {s : DnsResolver ι κ} (h : s.Exclusive) : s.AtMostOne :=
  fun ip => (Nat.le_add_left _ _).trans (h ip)

theorem exclusive_new (config : DnsResolverConfig) : (new ι κ config).Exclusive := by
  intro ip
  simp [new, claims, outstanding]

/-- A lookup marks its address, so a request that passes the check finds the address unclaimed. -/
theorem claims_eq_zero {s : DnsResolver ι κ} {c : κ} {ip : IpAddr} {now : Instant}
    (hunrivalled : s.Unrivalled (.request c ip now)) (hidle : s.requesters c = .idle)
    (hneeds : s.needsResolution ip now = true) : s.claims ip = 0 := by
  obtain ⟨hway, hmarked⟩ := hunrivalled hidle hneeds
  -- whoever resolves the address has marked it, and a mark needs no resolution
  have hunmarked : ∀ i, (s.resolvers i).holds ip = (s.resolvers i).holdsUnmarked ip := by
    intro i
    cases hpoint : s.resolvers i with
    | waiting | received a | marking a => rfl
    | resolving a =>
      by_cases ha : a = ip
      · -- the mark would have stopped the request
        subst ha
        have hpending := hmarked i hpoint
        obtain ⟨entry, hentry, hstate⟩ := Option.map_eq_some_iff.mp hpending
        have hcached : s.cached a now = true := by
          simp [cached, hentry, CachedHostname.usable, hstate]
        simp [needsResolution, hcached] at hneeds
      · simp [ResolverPoint.holds, ResolverPoint.holdsUnmarked, ha]
  unfold onTheWay at hway
  rw [claims, outstanding, Finset.sum_congr rfl fun i _ => hunmarked i]
  omega

variable [DecidableEq ι] [DecidableEq κ]

omit [Fintype ι] [DecidableEq ι] in
theorem sum_sends_update (s : DnsResolver ι κ) (c : κ) (point : RequesterPoint) (a : IpAddr) :
    (∑ j, (Function.update s.requesters c point j).sends a) + (s.requesters c).sends a =
      (∑ j, (s.requesters j).sends a) + point.sends a :=
  Threads.sum_update_add (RequesterPoint.sends a) s.requesters c point

omit [Fintype κ] [DecidableEq κ] in
theorem sum_holds_update (s : DnsResolver ι κ) (i : ι) (point : ResolverPoint) (a : IpAddr) :
    (∑ j, (Function.update s.resolvers i point j).holds a) + (s.resolvers i).holds a =
      (∑ j, (s.resolvers j).holds a) + point.holds a :=
  Threads.sum_update_add (ResolverPoint.holds a) s.resolvers i point

omit [DecidableEq ι] in
/-- Only a request that passes the check claims its address once more. -/
theorem claims_request_le (s : DnsResolver ι κ) (c : κ) (ip : IpAddr) (now : Instant)
    (a : IpAddr) :
    (s.request c ip now).claims a ≤ s.claims a ∨
      s.requesters c = .idle ∧ s.needsResolution ip now = true ∧ ip = a ∧
        (s.request c ip now).claims a ≤ s.claims a + 1 := by
  unfold request
  split
  · rename_i hidle
    split_ifs with hneeds
    -- the caller is about to queue its address, and no other
    · have hsum := s.sum_sends_update c (.sending ip) a
      rw [hidle, RequesterPoint.sends_idle, RequesterPoint.sends_sending] at hsum
      by_cases ha : ip = a
      · refine Or.inr ⟨hidle, hneeds, ha, ?_⟩
        rw [if_pos ha] at hsum
        simp only [claims, outstanding]
        omega
      · left
        rw [if_neg ha] at hsum
        simp only [claims, outstanding]
        omega
    · exact Or.inl le_rfl
  · exact Or.inl le_rfl

omit [DecidableEq ι] in
/-- Queueing a request moves it from the caller to the queue. -/
theorem claims_send (s : DnsResolver ι κ) (c : κ) (a : IpAddr) :
    (s.send c).claims a = s.claims a := by
  unfold send
  split
  · rfl
  · rename_i ip hpoint
    have hsum := s.sum_sends_update c .idle a
    rw [hpoint, RequesterPoint.sends_idle, RequesterPoint.sends_sending] at hsum
    simp only [claims, outstanding, List.count_append, List.count_singleton, beq_iff_eq]
    omega

omit [DecidableEq κ] in
/-- A resolver takes a request from the queue, and gives it up in the end. -/
theorem claims_resolve_le (s : DnsResolver ι κ) (i : ι) (hostname : Option String) (now : Instant)
    (a : IpAddr) : (s.resolve i hostname now).claims a ≤ s.claims a := by
  have hsum := s.sum_holds_update i
  unfold resolve
  split
  all_goals rename_i hpoint; rw [hpoint] at hsum
  -- the head of the queue goes to the thread
  · split
    · exact le_rfl
    · rename_i ip queue hqueue
      have hsum := hsum (.received ip) a
      rw [ResolverPoint.holds_waiting, ResolverPoint.holds_received] at hsum
      simp only [claims, outstanding, hqueue, List.count_cons, beq_iff_eq]
      omega
  -- a request that is skipped is given up
  · rename_i ip
    split_ifs
    · have hsum := hsum .waiting a
      rw [ResolverPoint.holds_waiting, ResolverPoint.holds_received] at hsum
      simp only [claims, outstanding]
      omega
    · have hsum := hsum (.marking ip) a
      rw [ResolverPoint.holds_received, ResolverPoint.holds_marking] at hsum
      simp only [claims, outstanding]
      omega
  · rename_i ip
    have hsum := hsum (.resolving ip) a
    rw [ResolverPoint.holds_marking, ResolverPoint.holds_resolving] at hsum
    simp only [claims, outstanding]
    omega
  -- the answer ends the request
  · have hsum := hsum .waiting a
    rw [ResolverPoint.holds_waiting, ResolverPoint.holds_resolving] at hsum
    simp only [claims, outstanding]
    omega

theorem exclusive_step {s : DnsResolver ι κ} {e : ResolverEvent ι κ} (hs : s.Exclusive)
    (he : s.Unrivalled e) : (s.step e).Exclusive := by
  intro a
  cases e with
  | request c ip now =>
    -- a caller that takes up an address finds no claim on it
    rcases s.claims_request_le c ip now a with hle | ⟨hidle, hneeds, rfl, hle⟩
    · exact hle.trans (hs a)
    · rwa [s.claims_eq_zero he hidle hneeds] at hle
  | send c => exact (s.claims_send c a).le.trans (hs a)
  | resolve i hostname now => exact (s.claims_resolve_le i hostname now a).trans (hs a)
  | cleanup now order =>
    refine le_trans (le_of_eq ?_) (hs a)
    show (s.cleanUp now order).claims a = s.claims a
    unfold cleanUp
    split <;> rfl

/-- In a run of unrivalled steps no address ever has two requests that are queued or being resolved.
The callers `ι` and the resolver threads `κ` are any number, and the cleanup comes at any time.
`Unrivalled` is a condition on the state before a request: that no other request for the address is
between its check and its mark, and that no lookup of the address has lost its mark. -/
theorem always_atMostOne_of_along (config : DnsResolverConfig)
    {events : List (ResolverEvent ι κ)} (h : Run.Along step Unrivalled (new ι κ config) events) :
    Run.Always step AtMostOne (new ι κ config) events :=
  (Run.always_of_along (fun _ _ hs he => exclusive_step hs he) (exclusive_new config) h).mono
    fun _ hs => hs.atMostOne

omit [Fintype ι] [Fintype κ] in
/-- A caller that finds no usable entry queues the address and is idle again. -/
theorem tick {s : DnsResolver ι κ} {c : κ} {ip : IpAddr} {now : Instant}
    (hidle : s.requesters c = .idle) (hneeds : s.needsResolution ip now = true) :
    (s.step (.request c ip now)).step (.send c) = { s with queue := s.queue ++ [ip] } := by
  have hback : Function.update s.requesters c .idle = s.requesters := by
    rw [← hidle, Function.update_eq_self]
  simp [step, request, send, hidle, hneeds, hback]

omit [Fintype κ] in
/-- Every tick before a resolver has moved queues the address once more. -/
theorem outstanding_ticks {s : DnsResolver ι κ} {c : κ} {ip : IpAddr} {now : Instant}
    (hidle : s.requesters c = .idle) (hneeds : s.needsResolution ip now = true) (n : ℕ) :
    ((List.replicate n [.request c ip now, .send c]).flatten.foldl step s).outstanding ip =
      s.outstanding ip + n := by
  induction n generalizing s with
  | zero => rfl
  | succ n ih =>
    -- the first tick leaves the caller idle and the cache as it was
    have hrest := @ih { s with queue := s.queue ++ [ip] } hidle hneeds
    simp only [outstanding, List.count_append, List.count_singleton_self] at hrest
    rw [List.replicate_succ, List.flatten_cons, List.foldl_append, List.foldl_cons,
      List.foldl_cons, List.foldl_nil, tick hidle hneeds]
    simp only [outstanding]
    omega

end Requests

/-! ## Two runs -/

/-- The address 192.0.2.1, which the samples ask for. -/
def sampleHost : IpAddr := .v4 (.new 192 0 2 1)

/-- Two ticks of the user interface before a resolver takes a step. -/
def tickedTwice : List (ResolverEvent Unit Unit) :=
  [.request () sampleHost ⟨0⟩, .send (), .request () sampleHost ⟨1⟩, .send ()]

/-- The address is queued twice. -/
theorem tickedTwice_not_atMostOne :
    ¬ AtMostOne (tickedTwice.foldl step (new Unit Unit .default)) := by
  intro h
  exact absurd (h sampleHost) (by decide +kernel)

/-- The second tick comes when the address has been marked, and a third when it is resolved. -/
def tickedLater : List (ResolverEvent Unit Unit) :=
  [.request () sampleHost ⟨0⟩, .send (), .resolve () none ⟨1⟩, .resolve () none ⟨2⟩,
    .resolve () none ⟨3⟩, .request () sampleHost ⟨4⟩, .resolve () (some "host.example") ⟨5⟩,
    .request () sampleHost ⟨6⟩]

/-- The address is never requested twice. -/
theorem tickedLater_atMostOne :
    Run.Always step AtMostOne (new Unit Unit .default) tickedLater := by
  have hguard : Run.Along step Unrivalled (new Unit Unit .default) tickedLater := by
    decide +kernel
  exact always_atMostOne_of_along .default hguard

end DnsResolver

end RustNet
