import RustNet.Foundations.Eviction
import RustNet.Foundations.Run
import RustNet.Network.Types.Octets

/-!
# Locations of addresses

`GeoIpResolver` looks addresses up in up to three databases: countries, autonomous systems and
cities. What it finds it keeps in a cache for an hour. A lookup that makes the cache too large takes
out the oldest entries, down to three quarters of the limit.

The databases are parameters: the record that a reader decodes for an address, if there is one.
`select_nth_unstable_by_key` moves the oldest entries to the front in no particular order, which is
a stable sort after an iteration in some order (`exists_order_of_selection`).

## Main definitions

* `isPrivateOrLocal`: the addresses that are not looked up;
* `GeoIpResolver.doLookup`: the databases without the cache;
* `GeoIpResolver.lookup`, `GeoIpResolver.evictOldestEntries`.

## Main results

* `GeoIpResolver.lookup_cases`: what a lookup does;
* `GeoIpResolver.Kept`: the entries of the cache after a run, and `GeoIpResolver.kept_run`;
* `GeoIpResolver.size_evictOldestEntries`: an eviction goes down to three quarters of the limit.
-/

namespace RustNet

/-! ## Addresses that are not looked up -/

/-- `Ipv4Addr::is_private`: the three ranges of RFC 1918. -/
def Ipv4Addr.isPrivate (addr : Ipv4Addr) : Bool :=
  let a := addr.octet 0
  let b := addr.octet 1
  decide (a = 10 ∨ (a = 172 ∧ 16 ≤ b ∧ b ≤ 31) ∨ (a = 192 ∧ b = 168))

/-- `Ipv4Addr::is_broadcast`: the limited broadcast alone. -/
def Ipv4Addr.isBroadcast (addr : Ipv4Addr) : Bool := decide (addr = .new 255 255 255 255)

/-- `Ipv4Addr::is_documentation`: the three ranges of RFC 5737. -/
def Ipv4Addr.isDocumentation (addr : Ipv4Addr) : Bool :=
  let a := addr.octet 0
  let b := addr.octet 1
  let c := addr.octet 2
  decide ((a = 192 ∧ b = 0 ∧ c = 2) ∨ (a = 198 ∧ b = 51 ∧ c = 100) ∨
    (a = 203 ∧ b = 0 ∧ c = 113))

/-- `Ipv4Addr::is_unspecified`: the address of zeros. -/
def Ipv4Addr.isUnspecified (addr : Ipv4Addr) : Bool := decide (addr = .new 0 0 0 0)

/-- Segment `i` of the eight, zero beyond them. -/
def Ipv6Addr.segment (addr : Ipv6Addr) (i : ℕ) : UInt16 := addr.segments.toList.getD i 0

/-- `Ipv6Addr::is_unspecified`: the address of zeros. -/
def Ipv6Addr.isUnspecified (addr : Ipv6Addr) : Bool := decide (addr = .new 0 0 0 0 0 0 0 0)

namespace GeoIp

/-- `is_private_or_local`: the addresses that no database knows, which are not looked up. -/
def isPrivateOrLocal (ip : IpAddr) : Bool :=
  match ip with
  | .v4 v4 =>
    v4.isPrivate || ip.isLoopback || ip.isLinkLocal || v4.isBroadcast || v4.isDocumentation ||
      v4.isUnspecified ||
      -- 100.64.0.0/10
      decide (v4.octet 0 = 100 ∧ v4.octet 1 &&& 0xc0 = 64)
  | .v6 v6 =>
    ip.isLoopback || v6.isUnspecified || ip.isLinkLocal ||
      -- fc00::/7
      decide (v6.segment 0 &&& 0xfe00 = 0xfc00)

/-! ## The databases -/

/-- `GeoIpInfo`: what the databases say of an address, as far as they do. -/
structure GeoIpInfo where
  countryCode : Option String
  countryName : Option String
  asn : Option UInt32
  asOrg : Option String
  postalCode : Option String
  city : Option String
deriving DecidableEq

/-- `GeoIpInfo::default`: nothing is known. -/
def GeoIpInfo.default : GeoIpInfo := ⟨none, none, none, none, none, none⟩

/-- What is read of a `geoip2::Country`, and of the country of a `geoip2::City`. -/
structure CountryRecord where
  isoCode : Option String
  englishName : Option String

/-- What is read of a `geoip2::Asn`. -/
structure AsnRecord where
  autonomousSystemNumber : Option UInt32
  autonomousSystemOrganization : Option String

/-- What is read of a `geoip2::City`. -/
structure CityRecord where
  postalCode : Option String
  englishName : Option String
  country : CountryRecord

/-- A database: the record that is found and decoded for an address. -/
abbrev Reader (ρ : Type) := IpAddr → Option ρ

/-- `CachedGeoIp`: a result, and when it was stored. -/
structure CachedGeoIp where
  info : GeoIpInfo
  cachedAt : Instant

/-- `GeoIpConfig`, without the paths of the databases; the duration is in nanoseconds. -/
structure GeoIpConfig where
  cacheTtl : ℕ
  maxCacheSize : ℕ

/-- `GeoIpConfig::default`: an hour, and fifty thousand entries. -/
def GeoIpConfig.default : GeoIpConfig where
  cacheTtl := Duration.fromSecs 3600
  maxCacheSize := 50000

/-- `GeoIpResolver`: the databases that were found, and the cache in front of them. -/
structure GeoIpResolver where
  countryReader : Option (Reader CountryRecord)
  asnReader : Option (Reader AsnRecord)
  cityReader : Option (Reader CityRecord)
  cache : AList fun _ : IpAddr => CachedGeoIp
  config : GeoIpConfig

/-- A lookup: the address, the clock when the age of an entry is taken and when an entry is made,
and the order of the iteration of an eviction. -/
structure GeoIpLookup where
  ip : IpAddr
  checkedAt : Instant
  storedAt : Instant
  order : IterOrder IpAddr

namespace GeoIpResolver

/-- `GeoIpResolver::new`, when the databases have been opened. -/
def new (countryReader : Option (Reader CountryRecord)) (asnReader : Option (Reader AsnRecord))
    (cityReader : Option (Reader CityRecord)) (config : GeoIpConfig) : GeoIpResolver where
  countryReader := countryReader
  asnReader := asnReader
  cityReader := cityReader
  cache := ∅
  config := config

section Lookup

variable (s : GeoIpResolver)

/-- The country lookup of `do_lookup`. -/
def addCountry (ip : IpAddr) (info : GeoIpInfo) : GeoIpInfo :=
  match s.countryReader.bind fun reader => reader ip with
  | some c => { info with countryCode := c.isoCode, countryName := c.englishName }
  | none => info

/-- The lookup of the autonomous system in `do_lookup`. -/
def addAsn (ip : IpAddr) (info : GeoIpInfo) : GeoIpInfo :=
  match s.asnReader.bind fun reader => reader ip with
  | some asn =>
    { info with asn := asn.autonomousSystemNumber, asOrg := asn.autonomousSystemOrganization }
  | none => info

/-- The city lookup of `do_lookup`, which also has the country if none was found. -/
def addCity (ip : IpAddr) (info : GeoIpInfo) : GeoIpInfo :=
  match s.cityReader.bind fun reader => reader ip with
  | some city =>
    let info := { info with postalCode := city.postalCode, city := city.englishName }
    if info.countryCode.isNone then
      { info with countryCode := city.country.isoCode, countryName := city.country.englishName }
    else info
  | none => info

/-- `do_lookup`: the databases one after the other, without the cache. That of the cities gives a
country only where the database of countries has found no code. -/
def doLookup (ip : IpAddr) : GeoIpInfo :=
  s.addCity ip (s.addAsn ip (s.addCountry ip .default))

/-- The entry of the address, unless it has expired. -/
def cached (ip : IpAddr) (now : Instant) : Option CachedGeoIp :=
  (s.cache.lookup ip).filter fun entry =>
    decide ((now.nanos - entry.cachedAt.nanos).toNat < s.config.cacheTtl)

/-- The size that an eviction leaves; the product wraps, as it does in a release build. -/
def targetSize : ℕ := s.config.maxCacheSize * 3 % 2 ^ 64 / 4

/-- The cache without the `count` entries that were stored first. -/
def withoutOldest (order : IterOrder IpAddr) (count : ℕ) : AList fun _ : IpAddr => CachedGeoIp :=
  s.cache.evictLeast CachedGeoIp.cachedAt (fun a b => a.nanos ≤ b.nanos) order count

/-- `evict_oldest_entries`: the oldest entries go, down to the target size. -/
def evictOldestEntries (order : IterOrder IpAddr) : GeoIpResolver :=
  let toRemove := s.cache.size - s.targetSize
  if toRemove = 0 then s
  else { s with cache := s.withoutOldest order toRemove }

/-- The result of a database lookup is put into the cache. -/
def store (ip : IpAddr) (info : GeoIpInfo) (now : Instant) : GeoIpResolver :=
  { s with cache := s.cache.insert ip ⟨info, now⟩ }

/-- The end of `lookup`: entries go only where the cache is above its limit. -/
def shrink (order : IterOrder IpAddr) : GeoIpResolver :=
  if s.config.maxCacheSize < s.cache.size then s.evictOldestEntries order else s

/-- `lookup`: the cache, and the databases where it has nothing, or nothing fresh. A private address
is not looked up. -/
def lookup (e : GeoIpLookup) : GeoIpInfo × GeoIpResolver :=
  if isPrivateOrLocal e.ip then (.default, s)
  else
    match s.cached e.ip e.checkedAt with
    | some entry => (entry.info, s)
    | none =>
      let info := s.doLookup e.ip
      (info, (s.store e.ip info e.storedAt).shrink e.order)

/-- What a lookup leaves of the resolver: the databases as they are, and the cache. -/
def step (e : GeoIpLookup) : GeoIpResolver := (s.lookup e).2

/-- The entry that a lookup puts into the cache. -/
def storedBy (e : GeoIpLookup) : List (IpAddr × CachedGeoIp) :=
  if isPrivateOrLocal e.ip ∨ (s.cached e.ip e.checkedAt).isSome then []
  else [(e.ip, ⟨s.doLookup e.ip, e.storedAt⟩)]

/-- The cache of a lookup before it evicts. -/
def filled (e : GeoIpLookup) : AList fun _ : IpAddr => CachedGeoIp :=
  s.cache.insertAll (s.storedBy e)

end Lookup

/-! ## One lookup -/

section Step

variable {s : GeoIpResolver} {order : IterOrder IpAddr}

@[simp]
theorem cache_store (ip : IpAddr) (info : GeoIpInfo) (now : Instant) :
    (s.store ip info now).cache = s.cache.insert ip ⟨info, now⟩ := rfl

@[simp]
theorem config_store (ip : IpAddr) (info : GeoIpInfo) (now : Instant) :
    (s.store ip info now).config = s.config := rfl

/-- The product wraps only to something smaller. -/
theorem targetSize_le (s : GeoIpResolver) : s.targetSize ≤ s.config.maxCacheSize := by
  have hwrap := Nat.mod_le (s.config.maxCacheSize * 3) (2 ^ 64)
  unfold targetSize
  omega

/-- An eviction takes the least recent entries out, and leaves the rest as it is. -/
theorem evictOldestEntries_eq (s : GeoIpResolver) (order : IterOrder IpAddr) :
    s.evictOldestEntries order =
      { s with cache := s.withoutOldest order (s.cache.size - s.targetSize) } := by
  unfold evictOldestEntries
  dsimp only
  split_ifs with hnone
  · -- nothing is taken out
    rw [hnone]
    rfl
  · rfl

/-- An eviction goes down to the target. -/
theorem size_evictOldestEntries (h : s.targetSize ≤ s.cache.size) :
    (s.evictOldestEntries order).cache.size = s.targetSize := by
  have hsize : (s.withoutOldest order (s.cache.size - s.targetSize)).size +
      (s.cache.size - s.targetSize) = s.cache.size :=
    AList.size_evictLeast _ _ order (Nat.sub_le _ _)
  rw [evictOldestEntries_eq]
  dsimp only
  omega

theorem size_shrink_le (s : GeoIpResolver) (order : IterOrder IpAddr) :
    (s.shrink order).cache.size ≤ s.config.maxCacheSize := by
  have htarget := s.targetSize_le
  unfold shrink
  split_ifs with hlarge
  -- an eviction goes below the limit, and without one the cache is within it
  · rw [size_evictOldestEntries (by omega)]
    exact htarget
  · exact not_lt.mp hlarge

theorem lookup_of_lookup_shrink {ip : IpAddr} {entry : CachedGeoIp}
    (h : (s.shrink order).cache.lookup ip = some entry) : s.cache.lookup ip = some entry := by
  unfold shrink at h
  split_ifs at h
  · rw [evictOldestEntries_eq] at h
    exact AList.lookup_of_lookup_evictLeast h
  · exact h

/-- What goes was stored no later than what stays. -/
theorem cachedAt_le_of_shrink {ip ip' : IpAddr} {gone left : CachedGeoIp}
    (hgone : s.cache.lookup ip = some gone) (hnone : (s.shrink order).cache.lookup ip = none)
    (hleft : (s.shrink order).cache.lookup ip' = some left) :
    gone.cachedAt.nanos ≤ left.cachedAt.nanos := by
  unfold shrink at hnone hleft
  split_ifs at hnone hleft
  · rw [evictOldestEntries_eq] at hnone hleft
    exact AList.rank_of_evicted CachedGeoIp.cachedAt _ hgone hnone hleft
  · -- nothing goes
    rw [hgone] at hnone
    exact nomatch hnone

/-- The resolver keeps its databases and its configuration. -/
theorem shrink_eq (s : GeoIpResolver) (order : IterOrder IpAddr) :
    s.shrink order = { s with cache := (s.shrink order).cache } := by
  unfold shrink
  split_ifs
  · rw [evictOldestEntries_eq]
  · rfl

/-- A lookup gives nothing for a private address, an entry of the cache that has not expired, or
what the databases have, which it stores. -/
theorem lookup_cases (s : GeoIpResolver) (e : GeoIpLookup) :
    (isPrivateOrLocal e.ip = true ∧ s.storedBy e = [] ∧ s.lookup e = (.default, s)) ∨
      isPrivateOrLocal e.ip = false ∧
        ((∃ entry, s.cached e.ip e.checkedAt = some entry ∧ s.storedBy e = [] ∧
            s.lookup e = (entry.info, s)) ∨
          s.storedBy e = [(e.ip, ⟨s.doLookup e.ip, e.storedAt⟩)] ∧
            s.lookup e = (s.doLookup e.ip,
              (s.store e.ip (s.doLookup e.ip) e.storedAt).shrink e.order)) := by
  unfold lookup storedBy
  rcases hprivate : isPrivateOrLocal e.ip with _ | _
  · refine Or.inr ⟨rfl, ?_⟩
    rcases hcached : s.cached e.ip e.checkedAt with _ | entry
    · exact Or.inr ⟨by simp, by simp⟩
    · exact Or.inl ⟨entry, rfl, by simp, by simp⟩
  · exact Or.inl ⟨rfl, by simp, by simp⟩

/-- A lookup that stores nothing leaves the resolver as it is. Another one may evict. -/
theorem step_cases (s : GeoIpResolver) (e : GeoIpLookup) :
    (s.storedBy e = [] ∧ s.step e = s) ∨
      s.step e = ({ s with cache := s.filled e } : GeoIpResolver).shrink e.order := by
  rcases s.lookup_cases e with ⟨-, hstored, hlookup⟩ | ⟨-, ⟨_, -, hstored, hlookup⟩ |
    ⟨hstored, hlookup⟩⟩
  · exact Or.inl ⟨hstored, by rw [step, hlookup]⟩
  · exact Or.inl ⟨hstored, by rw [step, hlookup]⟩
  · right
    rw [step, hlookup, filled, hstored]
    rfl

@[simp]
theorem config_step (s : GeoIpResolver) (e : GeoIpLookup) : (s.step e).config = s.config := by
  rcases s.step_cases e with ⟨-, hstep⟩ | hstep
  · rw [hstep]
  · rw [hstep, shrink_eq]

@[simp]
theorem doLookup_step (s : GeoIpResolver) (e : GeoIpLookup) :
    (s.step e).doLookup = s.doLookup := by
  rcases s.step_cases e with ⟨-, hstep⟩ | hstep
  · rw [hstep]
  · rw [hstep, shrink_eq]
    rfl

/-- What a lookup fills the cache with was there, or is what it stores. -/
theorem mem_of_lookup_filled {e : GeoIpLookup} {ip : IpAddr} {entry : CachedGeoIp}
    (h : (s.filled e).lookup ip = some entry) :
    s.cache.lookup ip = some entry ∨ (ip, entry) ∈ s.storedBy e := by
  rw [filled, AList.lookup_insertAll, Option.or_eq_some_iff] at h
  rcases h with hrow | ⟨-, hold⟩
  · exact Or.inr (AList.mem_of_find?_reverse hrow)
  · exact Or.inl hold

theorem lookup_filled_of_step {e : GeoIpLookup} {ip : IpAddr} {entry : CachedGeoIp}
    (h : (s.step e).cache.lookup ip = some entry) : (s.filled e).lookup ip = some entry := by
  rcases s.step_cases e with ⟨hstored, hstep⟩ | hstep
  · rw [hstep] at h
    rw [filled, hstored]
    exact h
  · rw [hstep] at h
    exact lookup_of_lookup_shrink h

end Step

/-! ## Runs -/

/-- The entries that the lookups of a run store, in order. -/
def stored (s : GeoIpResolver) (lookups : List GeoIpLookup) : List (IpAddr × CachedGeoIp) :=
  (Run.outputs step storedBy s lookups).flatten

/-- What holds of a resolver that has stored some entries. -/
structure Kept (s : GeoIpResolver) (stored : List (IpAddr × CachedGeoIp)) : Prop where
  size_le : s.cache.size ≤ s.config.maxCacheSize
  /-- The cache has nothing that was not stored. -/
  mem : ∀ ip entry, s.cache.lookup ip = some entry → (ip, entry) ∈ stored
  /-- What was stored is what the databases have. -/
  info_eq : ∀ row ∈ stored, row.2.info = s.doLookup row.1

section Runs

variable {s : GeoIpResolver} {prior : List (IpAddr × CachedGeoIp)} {lookups : List GeoIpLookup}

theorem stored_concat (s : GeoIpResolver) (before : List GeoIpLookup) (e : GeoIpLookup) :
    s.stored (before ++ [e]) = s.stored before ++ (before.foldl step s).storedBy e := by
  rw [stored, Run.outputs_append, List.flatten_append, Run.outputs, Run.outputs, List.flatten_cons,
    List.flatten_nil, List.append_nil]
  rfl

theorem kept_new (countryReader : Option (Reader CountryRecord))
    (asnReader : Option (Reader AsnRecord)) (cityReader : Option (Reader CityRecord))
    (config : GeoIpConfig) : (new countryReader asnReader cityReader config).Kept [] where
  size_le := Nat.zero_le _
  mem := fun _ _ h => nomatch h
  info_eq := fun _ h => nomatch h

/-- A lookup stores what the databases have. -/
theorem info_eq_of_mem_storedBy {e : GeoIpLookup} {row : IpAddr × CachedGeoIp}
    (h : row ∈ s.storedBy e) : row.2.info = s.doLookup row.1 := by
  unfold storedBy at h
  split_ifs at h
  · exact nomatch h
  · rw [List.mem_singleton.mp h]

/-- One lookup keeps the cache in order. -/
theorem Kept.step (h : s.Kept prior) (e : GeoIpLookup) :
    (s.step e).Kept (prior ++ s.storedBy e) where
  size_le := by
    rw [config_step]
    -- either nothing is stored or the cache is cut down to its limit
    rcases s.step_cases e with ⟨-, hstep⟩ | hstep
    · rw [hstep]
      exact h.size_le
    · rw [hstep]
      exact size_shrink_le _ e.order
  mem := by
    intro ip entry hentry
    -- what is left was there before or is the lookup's own entry
    rcases mem_of_lookup_filled (lookup_filled_of_step hentry) with hold | hnew
    · exact List.mem_append_left _ (h.mem ip entry hold)
    · exact List.mem_append_right _ hnew
  info_eq := by
    intro row hrow
    rw [doLookup_step]
    rcases List.mem_append.mp hrow with hold | hnew
    · exact h.info_eq row hold
    · exact info_eq_of_mem_storedBy hnew

theorem Kept.run (h : s.Kept prior) (lookups : List GeoIpLookup) :
    (lookups.foldl GeoIpResolver.step s).Kept (prior ++ s.stored lookups) := by
  induction lookups generalizing s prior with
  | nil =>
    rw [stored, Run.outputs, List.flatten_nil, List.append_nil]
    exact h
  | cons e lookups ih =>
    have hrest := ih (h.step e)
    rw [List.append_assoc] at hrest
    exact hrest

theorem config_run (s : GeoIpResolver) (lookups : List GeoIpLookup) :
    (lookups.foldl step s).config = s.config :=
  Run.foldl_of_step (I := fun t : GeoIpResolver => t.config = s.config)
    (fun t e ht => (config_step t e).trans ht) rfl

theorem doLookup_run (s : GeoIpResolver) (lookups : List GeoIpLookup) :
    (lookups.foldl step s).doLookup = s.doLookup :=
  Run.foldl_of_step (I := fun t : GeoIpResolver => t.doLookup = s.doLookup)
    (fun t e ht => (doLookup_step t e).trans ht) rfl

/-- What a lookup of a public address gives is what an entry of the address was stored with, this
time or less than the time to live ago. -/
theorem Kept.exists_entry (h : s.Kept prior) {e : GeoIpLookup}
    (hpublic : isPrivateOrLocal e.ip = false) :
    ∃ entry, (e.ip, entry) ∈ prior ++ s.storedBy e ∧ (s.lookup e).1 = entry.info ∧
      ((e.ip, entry) ∈ s.storedBy e ∨
        (e.checkedAt.nanos - entry.cachedAt.nanos).toNat < s.config.cacheTtl) := by
  rcases s.lookup_cases e with ⟨hprivate, -, -⟩ | ⟨-, ⟨entry, hcached, -, hlookup⟩ |
    ⟨hstored, hlookup⟩⟩
  · rw [hpublic] at hprivate
    exact nomatch hprivate
  · -- an entry of the cache was stored before
    obtain ⟨hentry, hage⟩ := Option.filter_eq_some_iff.mp hcached
    refine ⟨entry, List.mem_append_left _ (h.mem _ _ hentry), by rw [hlookup], Or.inr ?_⟩
    exact of_decide_eq_true hage
  · have hnew : (e.ip, ⟨s.doLookup e.ip, e.storedAt⟩) ∈ s.storedBy e := by
      rw [hstored]
      exact List.mem_singleton_self _
    exact ⟨_, List.mem_append_right _ hnew, by rw [hlookup], Or.inl hnew⟩

/-- A lookup that leaves the cache within its limit takes nothing out. -/
theorem lookup_step_of_room {e : GeoIpLookup} (hroom : (s.filled e).size ≤ s.config.maxCacheSize)
    (ip : IpAddr) : (s.step e).cache.lookup ip = (s.filled e).lookup ip := by
  rcases s.step_cases e with ⟨hstored, hstep⟩ | hstep
  · rw [hstep, filled, hstored]
    rfl
  · rw [hstep, shrink, if_neg (Nat.not_lt.mpr hroom)]

/-- What goes in a lookup was stored no later than what stays. -/
theorem cachedAt_le_of_step {e : GeoIpLookup} {ip ip' : IpAddr} {gone left : CachedGeoIp}
    (hgone : (s.filled e).lookup ip = some gone) (hnone : (s.step e).cache.lookup ip = none)
    (hleft : (s.step e).cache.lookup ip' = some left) :
    gone.cachedAt.nanos ≤ left.cachedAt.nanos := by
  rcases s.step_cases e with ⟨hstored, hstep⟩ | hstep
  · -- nothing goes
    rw [filled, hstored] at hgone
    rw [hstep] at hnone
    exact nomatch hnone.symm.trans hgone
  · rw [hstep] at hnone hleft
    exact cachedAt_le_of_shrink hgone hnone hleft

end Runs

/-- What is to hold of a lookup after others, with a resolver that was `s` before them. -/
structure Serves (s : GeoIpResolver) (before : List GeoIpLookup) (e : GeoIpLookup) : Prop where
  size_le : ((before ++ [e]).foldl step s).cache.size ≤ s.config.maxCacheSize
  /-- Whatever is in the cache was stored by a lookup. -/
  mem_stored : ∀ ip entry, ((before ++ [e]).foldl step s).cache.lookup ip = some entry →
    (ip, entry) ∈ s.stored (before ++ [e])
  /-- The result is what the databases had when the entry was stored: by this lookup, or by an
  earlier one less than the time to live ago. -/
  result : isPrivateOrLocal e.ip = false → ∃ entry, (e.ip, entry) ∈ s.stored (before ++ [e]) ∧
    entry.info = s.doLookup e.ip ∧ ((before.foldl step s).lookup e).1 = entry.info ∧
    ((e.ip, entry) ∈ (before.foldl step s).storedBy e ∨
      (e.checkedAt.nanos - entry.cachedAt.nanos).toNat < s.config.cacheTtl)
  /-- Nothing goes while there is room: the entry of the lookup and all others are kept. -/
  kept : ((before.foldl step s).filled e).size ≤ s.config.maxCacheSize → ∀ ip,
    ((before ++ [e]).foldl step s).cache.lookup ip = ((before.foldl step s).filled e).lookup ip
  /-- What an eviction takes out was stored no later than what it leaves. -/
  evicted : ∀ ip gone ip' left, ((before.foldl step s).filled e).lookup ip = some gone →
    ((before ++ [e]).foldl step s).cache.lookup ip = none →
      ((before ++ [e]).foldl step s).cache.lookup ip' = some left →
        gone.cachedAt.nanos ≤ left.cachedAt.nanos

theorem Kept.serves {s : GeoIpResolver} (h : s.Kept []) (before : List GeoIpLookup)
    (e : GeoIpLookup) : s.Serves before e := by
  have hbefore := h.run before
  have hafter := h.run (before ++ [e])
  rw [List.nil_append] at hbefore hafter
  -- the eviction is part of the last lookup, the rest holds after any run
  refine ⟨?_, hafter.mem, fun hpublic => ?_, fun hroom ip => ?_,
    fun ip gone ip' left hgone hnone hleft => ?_⟩
  · have hsize := hafter.size_le
    rwa [config_run] at hsize
  · obtain ⟨entry, hmem, hresult, hfresh⟩ := hbefore.exists_entry hpublic
    rw [← stored_concat] at hmem
    rw [config_run] at hfresh
    refine ⟨entry, hmem, ?_, hresult, hfresh⟩
    rw [hafter.info_eq _ hmem, doLookup_run]
  · rw [List.foldl_append]
    apply lookup_step_of_room
    rwa [config_run]
  · rw [List.foldl_append] at hnone hleft
    exact cachedAt_le_of_step hgone hnone hleft

/-- **Every lookup in every run of a new resolver is served in order**: the cache is within its
limit, the result is that of the databases and no older than the time to live, nothing goes while
there is room, and the oldest entries go first. The readers are any functions of an address, present
or missing, and the clock may go back between two lookups. -/
theorem serves_new (countryReader : Option (Reader CountryRecord))
    (asnReader : Option (Reader AsnRecord)) (cityReader : Option (Reader CityRecord))
    (config : GeoIpConfig) (before : List GeoIpLookup) (e : GeoIpLookup) :
    (new countryReader asnReader cityReader config).Serves before e :=
  (kept_new countryReader asnReader cityReader config).serves before e

/-! ## Unstable selections -/

/-- Whatever `select_nth_unstable_by_key` moves to the front, there is an order of iteration with
which the same entries are evicted. -/
theorem exists_order_of_selection {s : GeoIpResolver} {front back : List (IpAddr × CachedGeoIp)}
    (hperm : (front ++ back).Perm (s.cache.entries.map fun e => (e.1, e.2)))
    (hselect : ∀ a ∈ front, ∀ b ∈ back, a.2.cachedAt.nanos ≤ b.2.cachedAt.nanos)
    (hlength : front.length = s.cache.size - s.targetSize) :
    ∃ order, ∀ ip, (s.evictOldestEntries order).cache.lookup ip =
      (s.cache.eraseAll (front.map Prod.fst)).lookup ip := by
  obtain ⟨order, hkeys⟩ := AList.exists_leastKeys_perm CachedGeoIp.cachedAt
    (fun a b => a.nanos ≤ b.nanos) hperm hselect
  refine ⟨order, fun ip => ?_⟩
  rw [evictOldestEntries_eq, ← hlength]
  dsimp only
  rw [withoutOldest, AList.lookup_evictLeast, AList.lookup_eraseAll]
  simp only [hkeys.mem_iff]

end GeoIpResolver

end GeoIp

end RustNet
