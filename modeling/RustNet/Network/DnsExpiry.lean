import RustNet.Foundations.Run
import RustNet.Network.DnsResolver

/-!
# The age of host names

`get_hostname` requests a resolution and then reads the cache. The request takes note of the age of
a cached name, and so do the resolver threads and the cleanup, but the read does not: a name that
has expired is returned until the cleanup takes it out or a resolver marks the address as pending.

A run of the threads is logged: the answers of all lookups, with the time. A read is timely if what
it returns was answered no longer ago than the time to live. Whether it is follows from the steps of
the run: an answer stands until a thread displaces it, and a read after its time is timely only if
no answer stands that has expired.

## Main definitions

* `DnsResolver.getHostname`: the read;
* `DnsResolver.Displaces`: the steps that take an answer out of the cache, or replace it;
* `LoggedResolver.step`: the threads with their log, and reads at any time;
* `LoggedResolver.Timely`: what a read is to return;
* `LoggedResolver.Standing`: an answer that no step of the run has displaced;
* `LoggedResolver.ReadsInTime`: no read comes after the time of an answer that stands.

## Main results

* `DnsResolver.resolved_of_step`: a name is in the cache because a lookup answered it;
* `LoggedResolver.resolved_iff_standing`: the names in the cache are those of the answers that
  stand;
* `LoggedResolver.timely_reads`: the reads of a run are timely exactly if none comes after the time
  of an answer that stands;
* `LoggedResolver.exists_answer_of_swept`: no name outlives its time by more than the time between
  two cleanups.
-/

namespace RustNet

/-- The answer of a lookup. -/
structure NameAnswer where
  ip : IpAddr
  hostname : String
  answeredAt : Instant

namespace DnsResolver

variable {ι κ : Type*}

/-- `get_hostname`, after its call of `request_resolution`. -/
def getHostname (s : DnsResolver ι κ) (ip : IpAddr) : Option String :=
  (s.cache.lookup ip).bind fun entry => if entry.state = .resolved then entry.hostname else none

/-- The answer that a step stores. -/
def answeredBy (s : DnsResolver ι κ) : ResolverEvent ι κ → List NameAnswer
  | .resolve i (some hostname) now =>
    match s.resolvers i with
    | .resolving ip => [⟨ip, hostname, now⟩]
    | _ => []
  | _ => []

/-- The step takes an answer out of the cache, if it is there, or puts another entry in its place: a
resolver thread marks the address as pending or stores what its lookup found, a pass of the cleanup
begins when the answer is as old as the time to live, or evicts the address. -/
def Displaces (s : DnsResolver ι κ) (answer : NameAnswer) : ResolverEvent ι κ → Prop
  | .request .. | .send _ => False
  | .resolve i _ _ => s.resolvers i = .marking answer.ip ∨ s.resolvers i = .resolving answer.ip
  | .cleanup now _ =>
    match s.cleanup with
    | .sleeping =>
      s.config.cacheTtl ≤ (CachedHostname.resolved answer.hostname answer.answeredAt).age now
    | .evicting (ip :: _) => ip = answer.ip
    | .measuring | .evicting [] => False

section Steps

variable {s : DnsResolver ι κ} {e : ResolverEvent ι κ}

/-- The cleanup adds nothing. -/
theorem lookup_of_lookup_cleanUp {now : Instant} {order : IterOrder IpAddr} {ip : IpAddr}
    {entry : CachedHostname} (h : (s.cleanUp now order).cache.lookup ip = some entry) :
    s.cache.lookup ip = some entry := by
  unfold cleanUp at h
  split at h
  -- first the expired entries go, then the oldest ones, one at a time
  · rw [AList.lookup_retain, Option.filter_eq_some_iff] at h
    exact h.1
  · exact h
  · exact AList.lookup_of_lookup_erase h
  · exact h

@[simp]
theorem cache_request [DecidableEq κ] (s : DnsResolver ι κ) (c : κ) (ip : IpAddr)
    (now : Instant) : (s.request c ip now).cache = s.cache := by
  unfold request
  split
  · split <;> rfl
  · rfl

@[simp]
theorem cache_send [DecidableEq κ] (s : DnsResolver ι κ) (c : κ) :
    (s.send c).cache = s.cache := by
  unfold send
  split <;> rfl

/-- A resolver thread stores a name only at the end of its lookup. -/
theorem resolved_of_resolve [DecidableEq ι] {i : ι} {answer : Option String} {now : Instant}
    {ip : IpAddr} {entry : CachedHostname}
    (h : (s.resolve i answer now).cache.lookup ip = some entry)
    (hresolved : entry.state = .resolved) :
    s.cache.lookup ip = some entry ∨
      ∃ hostname, answer = some hostname ∧ s.resolvers i = .resolving ip ∧
        entry = .resolved hostname now := by
  unfold resolve at h
  split at h
  -- up to the check the thread only reads the cache
  · split at h <;> exact Or.inl h
  · split_ifs at h <;> exact Or.inl h
  -- the mark of a lookup under way is no name
  · rcases AList.lookup_insert_cases h with ⟨-, rfl⟩ | hold
    · exact nomatch hresolved
    · exact Or.inl hold
  -- the lookup ends, with a name or without
  · rename_i a hpoint
    rcases AList.lookup_insert_cases h with ⟨rfl, rfl⟩ | hold
    · rcases answer with _ | hostname
      · exact nomatch hresolved
      · exact Or.inr ⟨hostname, rfl, hpoint, rfl⟩
    · exact Or.inl hold

variable [DecidableEq ι] [DecidableEq κ]

/-- A name is in the cache because it was there, or because the step is the answer of its lookup. -/
theorem resolved_of_step {ip : IpAddr} {entry : CachedHostname}
    (h : (s.step e).cache.lookup ip = some entry) (hresolved : entry.state = .resolved) :
    s.cache.lookup ip = some entry ∨
      ∃ hostname now, entry = .resolved hostname now ∧ ⟨ip, hostname, now⟩ ∈ s.answeredBy e := by
  rcases e with ⟨c, a, now⟩ | c | ⟨i, answer, now⟩ | ⟨now, order⟩
  · left
    rwa [step, cache_request] at h
  · left
    rwa [step, cache_send] at h
  · rcases resolved_of_resolve h hresolved with hold | ⟨hostname, rfl, hpoint, hentry⟩
    · exact Or.inl hold
    · refine Or.inr ⟨hostname, now, hentry, ?_⟩
      simp [answeredBy, hpoint]
  · exact Or.inl (lookup_of_lookup_cleanUp h)

omit [DecidableEq ι] [DecidableEq κ] in
/-- Only the step that ends a lookup answers, and what was looked up. -/
theorem eq_resolve_of_mem_answeredBy {answer : NameAnswer} (h : answer ∈ s.answeredBy e) :
    ∃ i, e = .resolve i (some answer.hostname) answer.answeredAt ∧
      s.resolvers i = .resolving answer.ip := by
  rcases e with ⟨c, a, now⟩ | c | ⟨i, _ | hostname, now⟩ | ⟨now, order⟩
  · exact nomatch h
  · exact nomatch h
  · exact nomatch h
  · -- a thread before the lookup goes on without an answer
    rcases hpoint : s.resolvers i with _ | ip | ip | ip
    all_goals rw [answeredBy, hpoint] at h
    · exact nomatch h
    · exact nomatch h
    · exact nomatch h
    · rw [List.mem_singleton.mp h]
      exact ⟨i, rfl, hpoint⟩
  · exact nomatch h

/-- An answer is in the cache when the step is done. -/
theorem lookup_of_mem_answeredBy {answer : NameAnswer} (h : answer ∈ s.answeredBy e) :
    (s.step e).cache.lookup answer.ip = some (.resolved answer.hostname answer.answeredAt) := by
  obtain ⟨i, rfl, hpoint⟩ := eq_resolve_of_mem_answeredBy h
  simp only [step, resolve, hpoint]
  exact AList.lookup_insert _

/-- An answer that is not displaced stays in the cache. -/
theorem lookup_of_not_displaces {answer : NameAnswer} (hdisplaces : ¬ s.Displaces answer e)
    (h : s.cache.lookup answer.ip = some (.resolved answer.hostname answer.answeredAt)) :
    (s.step e).cache.lookup answer.ip = some (.resolved answer.hostname answer.answeredAt) := by
  rcases e with ⟨c, a, now⟩ | c | ⟨i, found, now⟩ | ⟨now, order⟩
  · rwa [step, cache_request]
  · rwa [step, cache_send]
  · simp only [Displaces, not_or] at hdisplaces
    rw [step]
    unfold resolve
    split
    · split <;> exact h
    · split_ifs <;> exact h
    -- what a thread stores is for another address
    · rename_i a hpoint
      rw [hpoint, ResolverPoint.marking.injEq] at hdisplaces
      rwa [AList.lookup_insert_ne (Ne.symm hdisplaces.1)]
    · rename_i a hpoint
      rw [hpoint, ResolverPoint.resolving.injEq] at hdisplaces
      rwa [AList.lookup_insert_ne (Ne.symm hdisplaces.2)]
  · rw [step, cleanUp]
    split
    · rename_i hpoint
      simp only [Displaces, hpoint, not_le] at hdisplaces
      rw [AList.lookup_retain, h]
      exact Option.filter_some_pos (decide_eq_true hdisplaces)
    · exact h
    · rename_i ip ips hpoint
      simp only [Displaces, hpoint] at hdisplaces
      rwa [AList.lookup_erase_ne (Ne.symm hdisplaces)]
    · exact h

/-- A name that is in the cache after a step that displaces it was answered by the step. -/
theorem mem_answeredBy_of_displaces {answer : NameAnswer} (hdisplaces : s.Displaces answer e)
    (h : (s.step e).cache.lookup answer.ip =
      some (.resolved answer.hostname answer.answeredAt)) : answer ∈ s.answeredBy e := by
  rcases e with ⟨c, a, now⟩ | c | ⟨i, found, now⟩ | ⟨now, order⟩
  · exact hdisplaces.elim
  · exact hdisplaces.elim
  · rcases hdisplaces with hpoint | hpoint
    -- a mark is no name
    · simp only [step, resolve, hpoint, AList.lookup_insert] at h
      cases h
    · simp only [step, resolve, hpoint, AList.lookup_insert] at h
      cases found with
      | none => cases h
      | some hostname =>
        cases h
        simp [answeredBy, hpoint]
  · exfalso
    rw [step, cleanUp] at h
    rcases hpoint : s.cleanup with _ | _ | _ | ⟨ip, ips⟩
    all_goals simp only [Displaces, hpoint] at hdisplaces h
    · rw [AList.lookup_retain, Option.filter_eq_some_iff] at h
      exact absurd (of_decide_eq_true h.2) (not_lt.mpr hdisplaces)
    · rw [hdisplaces, AList.lookup_erase] at h
      cases h

/-- A name that is in the cache after a step was answered by the step, or was there before and has
not been displaced. -/
theorem answered_or_kept {ip : IpAddr} {hostname : String} {answeredAt : Instant}
    (h : (s.step e).cache.lookup ip = some (.resolved hostname answeredAt)) :
    ⟨ip, hostname, answeredAt⟩ ∈ s.answeredBy e ∨
      s.cache.lookup ip = some (.resolved hostname answeredAt) ∧
        ¬ s.Displaces ⟨ip, hostname, answeredAt⟩ e := by
  by_cases hdisplaces : s.Displaces ⟨ip, hostname, answeredAt⟩ e
  · exact Or.inl (mem_answeredBy_of_displaces hdisplaces h)
  · rcases resolved_of_step h rfl with hold | ⟨hostname', now, heq, hanswer⟩
    · exact Or.inr ⟨hold, hdisplaces⟩
    · cases heq
      exact Or.inl hanswer

@[simp]
theorem config_step (s : DnsResolver ι κ) (e : ResolverEvent ι κ) :
    (s.step e).config = s.config := by
  -- no event writes the configuration, whatever branch it takes
  rcases e with ⟨c, a, now⟩ | c | ⟨i, answer, now⟩ | ⟨now, order⟩
  · rw [step, request]
    split
    · split <;> rfl
    · rfl
  · rw [step, send]
    split <;> rfl
  · rw [step]
    unfold resolve
    split
    · split <;> rfl
    · split <;> rfl
    · rfl
    · rfl
  · rw [step, cleanUp]
    split <;> rfl

end Steps

end DnsResolver

/-! ## Reads -/

/-- A step of a thread, or the read at the end of `get_hostname`. -/
inductive NameEvent (ι κ : Type*)
  | act (e : ResolverEvent ι κ)
  | read (ip : IpAddr) (now : Instant)

/-- The resolver with the answers that it has had, oldest first. -/
structure LoggedResolver (ι κ : Type*) where
  resolver : DnsResolver ι κ
  answers : List NameAnswer

namespace LoggedResolver

variable {ι κ : Type*}

/-- Before the first request: nothing is cached, and nothing has been answered. -/
def new (ι κ : Type*) (config : DnsResolverConfig) : LoggedResolver ι κ := ⟨.new ι κ config, []⟩

section Properties

variable (s : LoggedResolver ι κ)

/-- What a read returns was answered for the address, no longer ago than the time to live. -/
def Timely : NameEvent ι κ → Prop
  | .act _ => True
  | .read ip now => ∀ hostname ∈ s.resolver.getHostname ip, ∃ answer ∈ s.answers,
      answer.ip = ip ∧ answer.hostname = hostname ∧
        now.nanos ≤ answer.answeredAt.nanos + s.resolver.config.cacheTtl

/-- A name that a read finds in the cache is no older than the time to live. -/
def Unexpired : NameEvent ι κ → Prop
  | .act _ => True
  | .read ip now => ∀ entry ∈ s.resolver.cache.lookup ip, entry.state = .resolved →
      entry.age now ≤ s.resolver.config.cacheTtl

/-- No answer comes before an earlier one. -/
def InOrder : NameEvent ι κ → Prop
  | .act (.resolve _ _ now) => ∀ answer ∈ s.answers, answer.answeredAt.nanos ≤ now.nanos
  | _ => True

instance : (e : NameEvent ι κ) → Decidable (s.Timely e)
  | .act _ => inferInstanceAs (Decidable True)
  | .read _ _ => inferInstanceAs (Decidable (∀ _ ∈ _, _))

instance : (e : NameEvent ι κ) → Decidable (s.Unexpired e)
  | .act _ => inferInstanceAs (Decidable True)
  | .read _ _ => inferInstanceAs (Decidable (∀ _ ∈ _, _))

instance : (e : NameEvent ι κ) → Decidable (s.InOrder e)
  | .act (.resolve _ _ _) => inferInstanceAs (Decidable (∀ _ ∈ _, _))
  | .act (.request _ _ _) | .act (.send _) | .act (.cleanup _ _) | .read _ _ =>
    inferInstanceAs (Decidable True)

end Properties

variable [DecidableEq ι] [DecidableEq κ]

/-- A step of a thread adds its answer to the log. A read changes nothing. -/
def step (s : LoggedResolver ι κ) : NameEvent ι κ → LoggedResolver ι κ
  | .act e => ⟨s.resolver.step e, s.answers ++ s.resolver.answeredBy e⟩
  | .read _ _ => s

/-! ## Names and answers -/

/-- Every name in the cache was answered when its entry says. -/
def Backed (s : LoggedResolver ι κ) : Prop :=
  ∀ ip entry, s.resolver.cache.lookup ip = some entry → entry.state = .resolved →
    ∃ hostname, entry.hostname = some hostname ∧ ⟨ip, hostname, entry.resolvedAt⟩ ∈ s.answers

/-- No answer for the address of a name in the cache is later than the name. -/
def Latest (s : LoggedResolver ι κ) : Prop :=
  ∀ answer ∈ s.answers, ∀ entry ∈ s.resolver.cache.lookup answer.ip, entry.state = .resolved →
    answer.answeredAt.nanos ≤ entry.resolvedAt.nanos

section Invariants

variable {s : LoggedResolver ι κ} {e : NameEvent ι κ} {config : DnsResolverConfig}

omit [DecidableEq ι] [DecidableEq κ] in
theorem backed_new (config : DnsResolverConfig) : (new ι κ config).Backed :=
  fun _ _ h => nomatch h

omit [DecidableEq ι] [DecidableEq κ] in
theorem latest_new (config : DnsResolverConfig) : (new ι κ config).Latest :=
  fun _ h => nomatch h

theorem Backed.step (h : s.Backed) (e : NameEvent ι κ) : (s.step e).Backed := by
  rcases e with e | ⟨a, now⟩
  · intro ip entry hentry hresolved
    rcases DnsResolver.resolved_of_step hentry hresolved with hold | ⟨hostname, now, rfl, hanswer⟩
    · obtain ⟨hostname, hhostname, hmem⟩ := h ip entry hold hresolved
      exact ⟨hostname, hhostname, List.mem_append_left _ hmem⟩
    · exact ⟨hostname, rfl, List.mem_append_right _ hanswer⟩
  · exact h

omit [DecidableEq ι] [DecidableEq κ] in
/-- In order, the answer that a step stores is the latest. -/
theorem InOrder.answeredAt_le {e : ResolverEvent ι κ} (h : s.InOrder (.act e))
    {old new : NameAnswer} (hold : old ∈ s.answers) (hnew : new ∈ s.resolver.answeredBy e) :
    old.answeredAt.nanos ≤ new.answeredAt.nanos := by
  obtain ⟨i, rfl, -⟩ := DnsResolver.eq_resolve_of_mem_answeredBy hnew
  exact h old hold

theorem Latest.step (h : s.Latest) (horder : s.InOrder e) : (s.step e).Latest := by
  rcases e with e | ⟨a, now⟩
  · intro answer hanswer entry hentry hresolved
    rcases List.mem_append.mp hanswer with hold | hnew
    · rcases DnsResolver.resolved_of_step hentry hresolved with hkept | ⟨hostname, now, rfl, hmem⟩
      · exact h answer hold entry hkept hresolved
      · exact horder.answeredAt_le hold hmem
    · -- the entry is that of the answer
      have hlookup := (DnsResolver.lookup_of_mem_answeredBy hnew).symm.trans hentry
      rw [← Option.some.inj hlookup]
      exact le_rfl
  · exact h

/-! ## Timely reads -/

omit [DecidableEq ι] [DecidableEq κ] in
/-- What is read is the name of a resolved entry. -/
theorem getHostname_eq_some_iff {t : DnsResolver ι κ} {ip : IpAddr} {hostname : String} :
    t.getHostname ip = some hostname ↔ ∃ entry, t.cache.lookup ip = some entry ∧
      entry.state = .resolved ∧ entry.hostname = some hostname := by
  rw [DnsResolver.getHostname, Option.bind_eq_some_iff]
  simp only [Option.ite_none_right_eq_some]

omit [DecidableEq ι] [DecidableEq κ] in
/-- A read that finds no expired name is timely. -/
theorem Backed.timely (h : s.Backed) (he : s.Unexpired e) : s.Timely e := by
  rcases e with e | ⟨ip, now⟩
  · trivial
  · intro hostname hread
    obtain ⟨entry, hentry, hresolved, hname⟩ := getHostname_eq_some_iff.mp hread
    -- the answer is that of the entry, which has not expired
    obtain ⟨hostname', hname', hanswer⟩ := h ip entry hentry hresolved
    obtain rfl := Option.some.inj (hname.symm.trans hname')
    have hage := he entry hentry hresolved
    refine ⟨_, hanswer, rfl, rfl, ?_⟩
    unfold CachedHostname.age at hage
    dsimp only
    omega

omit [DecidableEq ι] [DecidableEq κ] in
/-- A timely read has found a name that was no older than its answer. -/
theorem Backed.unexpired (h : s.Backed) (hlatest : s.Latest) (he : s.Timely e) :
    s.Unexpired e := by
  rcases e with e | ⟨ip, now⟩
  · trivial
  · intro entry hentry hresolved
    obtain ⟨hostname, hname, -⟩ := h ip entry hentry hresolved
    have hread : s.resolver.getHostname ip = some hostname :=
      getHostname_eq_some_iff.mpr ⟨entry, hentry, hresolved, hname⟩
    -- the answer that makes the read timely is no later than the entry
    obtain ⟨answer, hanswer, rfl, -, hnow⟩ := he hostname hread
    have hle := hlatest answer hanswer entry hentry hresolved
    unfold CachedHostname.age
    omega

theorem backed_run (config : DnsResolverConfig) (events : List (NameEvent ι κ)) :
    (events.foldl LoggedResolver.step (new ι κ config)).Backed :=
  Run.foldl_of_step (fun _ e h => h.step e) (backed_new config)

/-- In order, the reads of a run are timely exactly if they find no expired name. -/
theorem along_timely_iff (config : DnsResolverConfig) {events : List (NameEvent ι κ)}
    (horder : Run.Along LoggedResolver.step InOrder (new ι κ config) events) :
    Run.Along LoggedResolver.step Timely (new ι κ config) events ↔
      Run.Along LoggedResolver.step Unexpired (new ι κ config) events := by
  have hlatest := Run.always_of_along (fun _ _ h he => Latest.step h he) (latest_new config) horder
  rw [Run.along_iff_forall_split, Run.along_iff_forall_split]
  constructor
  · intro h before e after hevents
    refine (backed_run config before).unexpired ?_ (h before e after hevents)
    exact Run.always_iff_forall_prefix.mp hlatest before (e :: after) hevents
  · intro h before e after hevents
    exact (backed_run config before).timely (h before e after hevents)

theorem config_run (config : DnsResolverConfig) (events : List (NameEvent ι κ)) :
    (events.foldl LoggedResolver.step (new ι κ config)).resolver.config = config := by
  refine Run.foldl_of_step (I := fun t : LoggedResolver ι κ => t.resolver.config = config)
    (fun t e ht => ?_) rfl
  rcases e with e | ⟨a, now⟩
  · exact (DnsResolver.config_step t.resolver e).trans ht
  · exact ht

/-! ## Answers that stand -/

/-- The step displaces an answer; a read does not. -/
def Displaces (s : LoggedResolver ι κ) (answer : NameAnswer) : NameEvent ι κ → Prop
  | .act e => s.resolver.Displaces answer e
  | .read _ _ => False

/-- An answer of the run that no step behind it has displaced. -/
def Standing (config : DnsResolverConfig) (events : List (NameEvent ι κ)) (answer : NameAnswer) :
    Prop :=
  ∃ before e after, events = before ++ .act e :: after ∧
    answer ∈ (before.foldl step (new ι κ config)).resolver.answeredBy e ∧
      Run.Along step (fun s event => ¬ s.Displaces answer event)
        ((before ++ [NameEvent.act e]).foldl step (new ι κ config)) after

/-- No read comes when an answer for its address stands that is older than the time to live. -/
def ReadsInTime (config : DnsResolverConfig) (events : List (NameEvent ι κ)) : Prop :=
  ∀ before ip now after, events = before ++ .read ip now :: after →
    ∀ answer, Standing config before answer → answer.ip = ip →
      now.nanos ≤ answer.answeredAt.nanos + config.cacheTtl

/-- An answer stands behind its step until a step displaces it. -/
theorem Standing.append {events : List (NameEvent ι κ)} {answer : NameAnswer}
    (h : Standing config events answer) {event : NameEvent ι κ}
    (hevent : ¬ (events.foldl step (new ι κ config)).Displaces answer event) :
    Standing config (events ++ [event]) answer := by
  obtain ⟨before, e, after, rfl, hanswer, hafter⟩ := h
  refine ⟨before, e, after ++ [event], by simp, hanswer, ?_⟩
  rw [Run.along_append, ← List.foldl_append]
  refine ⟨hafter, ?_, trivial⟩
  rwa [List.append_assoc, List.singleton_append]

/-- **The names in the cache are those of the answers that stand.** -/
theorem resolved_iff_standing (config : DnsResolverConfig) (events : List (NameEvent ι κ))
    (answer : NameAnswer) :
    (events.foldl step (new ι κ config)).resolver.cache.lookup answer.ip =
        some (.resolved answer.hostname answer.answeredAt) ↔ Standing config events answer := by
  constructor
  · intro h
    induction events using List.reverseRecOn with
    | nil => cases h
    | append_singleton events event ih =>
      rw [List.foldl_append, List.foldl_cons, List.foldl_nil] at h
      cases event with
      | read ip now => exact (ih h).append id
      | act e =>
        -- the answer is new, or it stood before and still does
        rcases DnsResolver.answered_or_kept h with hanswer | ⟨hkept, hdisplaces⟩
        · exact ⟨events, e, [], rfl, hanswer, trivial⟩
        · exact (ih hkept).append hdisplaces
  · rintro ⟨before, e, after, rfl, hanswer, hafter⟩
    have hstart : ((before ++ [NameEvent.act e]).foldl step
        (new ι κ config)).resolver.cache.lookup answer.ip =
          some (.resolved answer.hostname answer.answeredAt) := by
      rw [List.foldl_append]
      exact DnsResolver.lookup_of_mem_answeredBy hanswer
    have hkept := (Run.always_of_along (I := fun s : LoggedResolver ι κ =>
      s.resolver.cache.lookup answer.ip = some (.resolved answer.hostname answer.answeredAt))
      (fun s event hs hevent => ?_) hstart hafter).last
    · rwa [← List.foldl_append, List.append_assoc, List.singleton_append] at hkept
    · cases event with
      | read ip now => exact hs
      | act e' => exact DnsResolver.lookup_of_not_displaces hevent hs

/-- Reads come in time exactly if they find no expired name. -/
theorem readsInTime_iff (config : DnsResolverConfig) (events : List (NameEvent ι κ)) :
    ReadsInTime config events ↔ Run.Along step Unexpired (new ι κ config) events := by
  rw [Run.along_iff_forall_split]
  constructor
  · rintro h before event after hevents
    cases event with
    | act e => trivial
    | read ip now =>
      intro entry hentry hresolved
      obtain ⟨hostname, hname, -⟩ := backed_run config before ip entry hentry hresolved
      obtain ⟨name, resolvedAt, state⟩ := entry
      obtain rfl : state = .resolved := hresolved
      obtain rfl : name = some hostname := hname
      -- the entry is that of an answer that stands
      have hstanding := (resolved_iff_standing config before ⟨ip, hostname, resolvedAt⟩).mp hentry
      have hbound := h before ip now after hevents _ hstanding rfl
      rw [config_run]
      unfold CachedHostname.age
      dsimp only at hbound ⊢
      omega
  · rintro h before ip now after hevents answer hstanding rfl
    have hentry := (resolved_iff_standing config before answer).mpr hstanding
    have hage := h before _ after hevents _ hentry rfl
    rw [config_run] at hage
    unfold CachedHostname.age CachedHostname.resolved at hage
    dsimp only at hage
    omega

/-- **A run whose reads come in time has only timely reads, and where the clock is in order, only
such a run has.** A read comes in time if it comes within the time to live of every answer for its
address that stands: one behind which no resolver thread has marked the address as pending or stored
what it found, no cleanup has begun when the answer had expired, and no eviction of the address. The
second part assumes that no lookup is answered at an earlier time than one before it. -/
theorem timely_reads (config : DnsResolverConfig) (events : List (NameEvent ι κ)) :
    (ReadsInTime config events → Run.Along step Timely (new ι κ config) events) ∧
      (Run.Along step InOrder (new ι κ config) events →
        Run.Along step Timely (new ι κ config) events → ReadsInTime config events) := by
  rw [readsInTime_iff]
  refine ⟨fun h => ?_, fun horder => (along_timely_iff config horder).mp⟩
  -- this direction does not depend on the order of the answers
  rw [Run.along_iff_forall_split] at h ⊢
  intro before e after hevents
  exact (backed_run config before).timely (h before e after hevents)

/-! ## What the cleanup leaves -/

/-- No name in the cache had expired at `c`. -/
def SweptAt (c : Instant) (s : LoggedResolver ι κ) : Prop :=
  ∀ ip entry, s.resolver.cache.lookup ip = some entry → entry.state = .resolved →
    c.nanos ≤ entry.resolvedAt.nanos + s.resolver.config.cacheTtl

/-- The event is no answer from before `c`. -/
def NotBefore (c : Instant) : NameEvent ι κ → Prop
  | .act (.resolve _ _ now) => c.nanos ≤ now.nanos
  | _ => True

/-- A cleanup takes the expired names out. -/
theorem sweptAt_cleanup {c : Instant} {order : IterOrder IpAddr}
    (h : s.resolver.cleanup = .sleeping) :
    (s.step (.act (.cleanup c order))).SweptAt c := by
  intro ip entry hentry hresolved
  simp only [LoggedResolver.step, DnsResolver.step, DnsResolver.cleanUp, h] at hentry ⊢
  rw [AList.lookup_retain, Option.filter_eq_some_iff] at hentry
  obtain ⟨-, hretained⟩ := hentry
  rw [CachedHostname.retained, hresolved] at hretained
  have hage := of_decide_eq_true hretained
  unfold CachedHostname.age at hage
  omega

theorem SweptAt.step {c : Instant} (h : s.SweptAt c) (he : NotBefore c e) :
    (s.step e).SweptAt c := by
  rcases e with e | ⟨a, now⟩
  · intro ip entry hentry hresolved
    have hconfig : (s.step (.act e)).resolver.config = s.resolver.config :=
      DnsResolver.config_step s.resolver e
    rw [hconfig]
    rcases DnsResolver.resolved_of_step hentry hresolved with hold | ⟨hostname, now, rfl, hanswer⟩
    · exact h ip entry hold hresolved
    · -- a name that is answered later has not expired either
      obtain ⟨i, rfl, -⟩ := DnsResolver.eq_resolve_of_mem_answeredBy hanswer
      exact le_add_of_le_of_nonneg he (Int.natCast_nonneg _)
  · exact h

/-- No read returns a name that had expired when the last cleanup began, so that a name outlives its
time by no more than the time between two cleanups. -/
theorem exists_answer_of_swept (config : DnsResolverConfig)
    {before after : List (NameEvent ι κ)} {c : Instant} {order : IterOrder IpAddr}
    (hsleeping : (before.foldl LoggedResolver.step (new ι κ config)).resolver.cleanup = .sleeping)
    (hafter : ∀ e ∈ after, NotBefore c e) {ip : IpAddr} {hostname : String}
    (hread : ((before ++ .act (.cleanup c order) :: after).foldl LoggedResolver.step
      (new ι κ config)).resolver.getHostname ip = some hostname) :
    ∃ answer ∈ ((before ++ .act (.cleanup c order) :: after).foldl LoggedResolver.step
        (new ι κ config)).answers,
      answer.ip = ip ∧ answer.hostname = hostname ∧
        c.nanos ≤ answer.answeredAt.nanos + config.cacheTtl := by
  have hbacked := backed_run config (before ++ .act (.cleanup c order) :: after)
  have hconfig := config_run config (before ++ .act (.cleanup c order) :: after)
  -- the cleanup takes the expired names out, and the steps after it add no older ones
  have hswept : ((before ++ .act (.cleanup c order) :: after).foldl LoggedResolver.step
      (new ι κ config)).SweptAt c := by
    rw [List.foldl_append, List.foldl_cons]
    exact (Run.always_of_along (fun _ _ h he => SweptAt.step h he) (sweptAt_cleanup hsleeping)
      (Run.along_of_forall_mem hafter)).last
  obtain ⟨entry, hentry, hresolved, hname⟩ := getHostname_eq_some_iff.mp hread
  obtain ⟨hostname', hname', hanswer⟩ := hbacked ip entry hentry hresolved
  obtain rfl := Option.some.inj (hname.symm.trans hname')
  have hbound := hswept ip entry hentry hresolved
  rw [hconfig] at hbound
  exact ⟨_, hanswer, rfl, rfl, hbound⟩

end Invariants

/-! ## Two runs -/

/-- A time in seconds, for the samples. -/
def atSecs (secs : ℕ) : Instant := ⟨(Duration.fromSecs secs : ℕ)⟩

/-- A call of `get_hostname` that finds no usable entry. -/
def lookUp (secs : ℕ) : List (NameEvent Unit Unit) :=
  [.act (.request () DnsResolver.sampleHost (atSecs secs)), .act (.send ()),
    .read DnsResolver.sampleHost (atSecs secs)]

/-- An address is resolved at ten seconds, and the cleanup runs every thirty seconds. -/
def resolvedAndKept : List (NameEvent Unit Unit) :=
  lookUp 9 ++ List.replicate 3 (.act (.resolve () none (atSecs 9))) ++
    [.act (.resolve () (some "host.example") (atSecs 10))] ++
    (List.range 10).flatMap fun k =>
      List.replicate 2 (.act (.cleanup (atSecs (30 * (k + 1))) (.listed IpAddr)))

/-- The name is read at 311 seconds, a second after it expired. -/
theorem resolvedAndKept_not_timely :
    Run.Along step InOrder (new Unit Unit .default) (resolvedAndKept ++ lookUp 311) ∧
      ¬ Run.Along step Timely (new Unit Unit .default) (resolvedAndKept ++ lookUp 311) := by
  decide +kernel

/-- At 305 seconds it is still valid. -/
theorem resolvedAndKept_timely :
    (resolvedAndKept.foldl step (new Unit Unit .default)).resolver.getHostname
        DnsResolver.sampleHost = some "host.example" ∧
      Run.Along step Timely (new Unit Unit .default) (resolvedAndKept ++ lookUp 305) := by
  have hinTime : ReadsInTime .default (resolvedAndKept ++ lookUp 305) :=
    (readsInTime_iff _ _).mpr (by decide +kernel)
  exact ⟨by decide +kernel, (timely_reads .default _).1 hinTime⟩

end LoggedResolver

end RustNet
