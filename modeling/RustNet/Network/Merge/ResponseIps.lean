import RustNet.Foundations.Run
import RustNet.Network.Dns.Records
import RustNet.Network.Merge.Results

/-!
# The response addresses of a DNS connection

A response is merged one address at a time: an address that is already recorded is left out, and so
are all behind the sixty-fourth. The addresses of the first response are recorded as the analysis
collected them, at most sixteen, but with the repetitions that the message has.

## Main definitions

* `DnsArrival`: a packet whose DNS information, if it has any, comes from `analyze_dns`;
* `UniqueIps`: at most sixty-four addresses, none of them twice.

## Main results

* `uniqueIps_iff`: the recorded addresses are unique all along exactly if those of the first
  response are.
-/

namespace RustNet

open Checked Dns

/-- A packet whose DNS information comes from the analysis of its payload. -/
structure DnsArrival extends Arrival where
  analyzed : ∀ info, parsed.dpiResult = some ⟨.dns info⟩ →
    ∃ payload, payload.length < 2 ^ 63 ∧ analyzeDns payload = pure (some info)

/-- The DNS record of a connection. -/
def Connection.dnsInfo (conn : Connection) : Option DnsInfo :=
  conn.dpiInfo.bind fun info => info.application.dns?

/-- At most sixty-four addresses, and none twice. -/
structure UniqueIps (ips : List IpAddr) : Prop where
  length_le : ips.length ≤ 64
  nodup : ips.Nodup

/-- The packets' first result, where it is DNS information. -/
def firstDnsInfo (arrivals : List Arrival) : Option DnsInfo :=
  (dpiResults arrivals).head?.bind fun result => result.application.dns?

/-! ## One merge -/

section Merge

variable {old new : DnsInfo} {ips : List IpAddr}

/-- The step of the loop over the addresses of a response. -/
def pushIp (ips : List IpAddr) (ip : IpAddr) : List IpAddr :=
  if maxMergedResponseIps ≤ ips.length then ips else if ip ∈ ips then ips else ips ++ [ip]

theorem prefix_pushIp (ips : List IpAddr) (ip : IpAddr) : ips <+: pushIp ips ip := by
  rw [pushIp]
  split_ifs
  · exact List.prefix_rfl
  · exact List.prefix_rfl
  · exact List.prefix_append ips [ip]

theorem UniqueIps.pushIp (h : UniqueIps ips) (ip : IpAddr) : UniqueIps (pushIp ips ip) := by
  rw [RustNet.pushIp]
  split_ifs with hfull hmem
  · exact h
  · exact h
  · refine ⟨?_, List.nodup_append.mpr ⟨h.nodup, List.nodup_singleton ip, ?_⟩⟩
    · rw [List.length_append]
      exact Nat.not_le.mp hfull
    · rintro a ha b hb rfl
      exact hmem (List.mem_singleton.mp hb ▸ ha)

theorem mergeDnsInfo_responseIps (old new : DnsInfo) :
    (mergeDnsInfo old new).responseIps = new.responseIps.foldl pushIp old.responseIps := rfl

/-- A merge only adds to the recorded addresses. -/
theorem prefix_foldl_pushIp (ips new : List IpAddr) : ips <+: new.foldl pushIp ips := by
  induction new generalizing ips with
  | nil => exact List.prefix_rfl
  | cons ip new ih => exact (prefix_pushIp ips ip).trans (ih (pushIp ips ip))

theorem prefix_foldl_mergeDnsInfo (old : DnsInfo) (news : List DnsInfo) :
    old.responseIps <+: (news.foldl mergeDnsInfo old).responseIps := by
  induction news generalizing old with
  | nil => exact List.prefix_rfl
  | cons new news ih => exact (prefix_foldl_pushIp _ _).trans (ih (mergeDnsInfo old new))

/-- Unique addresses stay unique. -/
theorem UniqueIps.foldl_mergeDnsInfo (h : UniqueIps old.responseIps) (news : List DnsInfo) :
    UniqueIps (news.foldl mergeDnsInfo old).responseIps := by
  refine Run.foldl_of_step (I := fun info : DnsInfo => UniqueIps info.responseIps) ?_ h
  intro old new hold
  rw [mergeDnsInfo_responseIps]
  exact Run.foldl_of_step (fun ips ip hips => hips.pushIp ip) hold

end Merge

/-! ## The first result -/

/-- The first result of the first packets is the first of all. -/
theorem firstDnsInfo_append {l₁ : List Arrival} {info : DnsInfo} (h : firstDnsInfo l₁ = some info)
    (l₂ : List Arrival) : firstDnsInfo (l₁ ++ l₂) = some info :=
  head?_bind_dpiResults_append h l₂

/-- The analysis collects no more than sixteen addresses. -/
theorem DnsArrival.length_firstDnsInfo_le {arrivals : List DnsArrival} {info : DnsInfo}
    (h : firstDnsInfo (arrivals.map DnsArrival.toArrival) = some info) :
    info.responseIps.length ≤ 16 := by
  obtain ⟨result, hresult, hdns⟩ := Option.bind_eq_some_iff.mp h
  -- the first result is that of some packet
  have hmem := List.mem_of_mem_head? hresult
  obtain ⟨arrival, harrival, hfound⟩ := List.mem_filterMap.mp hmem
  obtain ⟨a, -, rfl⟩ := List.mem_map.mp harrival
  obtain ⟨application⟩ := result
  have happlication : application = .dns info := by
    cases application with
    | dns i => exact congrArg _ (Option.some.inj hdns)
    | _ => cases hdns
  rw [happlication] at hfound
  obtain ⟨payload, hlen, hpayload⟩ := a.analyzed info hfound
  exact (analyzeDns_ensures hlen).of_eq_pure hpayload info rfl

/-! ## All merges -/

section Track

variable [DeepPacketInspection]

/-- The recorded addresses are unique after every packet. -/
def KeepsIpsUnique (first : DnsArrival) (rest : List DnsArrival) : Prop :=
  ∀ l₁ l₂, rest = l₁ ++ l₂ → ∀ info,
    (track first.toArrival (l₁.map DnsArrival.toArrival)).dnsInfo = some info →
      UniqueIps info.responseIps

variable {first : DnsArrival} {rest : List DnsArrival}

/-- The recorded information is merged into that of the first result. -/
theorem track_dnsInfo (first : Arrival) (rest : List Arrival) :
    (track first rest).dnsInfo = (firstDnsInfo (first :: rest)).map fun info =>
      ((dpiResults (first :: rest)).tail.filterMap fun result =>
        result.application.dns?).foldl mergeDnsInfo info :=
  track_of_proj dns?_mergeApplication first rest

/-- **The recorded addresses are unique all along exactly if those of the first response are.** The
merge adds an address only if it is not there, but the first response is stored as it comes, with
its repetitions. The packets are any, the first one included. -/
theorem keepsIpsUnique_iff (first : DnsArrival) (rest : List DnsArrival) :
    KeepsIpsUnique first rest ↔ ∀ info,
      firstDnsInfo ((first :: rest).map DnsArrival.toArrival) = some info →
        info.responseIps.Nodup := by
  constructor
  · intro h info hinfo
    have htracked := track_dnsInfo first.toArrival (rest.map DnsArrival.toArrival)
    rw [← List.map_cons, hinfo, Option.map_some] at htracked
    -- merges keep the first addresses in front
    have hunique := h rest [] (List.append_nil rest).symm _ htracked
    exact hunique.nodup.sublist (prefix_foldl_mergeDnsInfo info _).sublist
  · rintro h l₁ l₂ rfl info htracked
    rw [track_dnsInfo, ← List.map_cons] at htracked
    obtain ⟨firstInfo, hfirst, rfl⟩ := Option.map_eq_some_iff.mp htracked
    refine UniqueIps.foldl_mergeDnsInfo ⟨?_, h firstInfo ?_⟩ _
    · exact (DnsArrival.length_firstDnsInfo_le hfirst).trans (by decide)
    · rw [← List.cons_append, List.map_append]
      exact firstDnsInfo_append hfirst _

end Track

/-! ## A response that repeats an address -/

/-- An A record of the root, with the address 192.0.2.1. -/
def sampleRecord : List UInt8 := [0, 0, 1, 0, 1, 0, 0, 0, 60, 0, 4, 192, 0, 2, 1]

/-- A response without questions, with the record twice. -/
def repeatedResponse : List UInt8 :=
  [0, 1, 0x80, 0, 0, 0, 0, 2, 0, 0, 0, 0] ++ sampleRecord ++ sampleRecord

/-- What is found in it. -/
def repeatedInfo : DnsInfo := ⟨none, none, [.v4 (.new 192 0 2 1), .v4 (.new 192 0 2 1)], true⟩

theorem analyzeDns_repeatedResponse : analyzeDns repeatedResponse = pure (some repeatedInfo) := by
  rfl

/-- A packet with that response. -/
def repeatedArrival : DnsArrival where
  parsed := .ofUdp (.lan 1 5000) (.lan 2 53) (some ⟨.dns repeatedInfo⟩) false 84
  now := ⟨0⟩
  clock := .constant 0
  analyzed info h := by
    obtain rfl : repeatedInfo = info := by
      injection h with h
      injection h with h
      injection h with h
    exact ⟨repeatedResponse, by decide, analyzeDns_repeatedResponse⟩

/-- As the first packet of a connection, it leaves the address recorded twice. -/
theorem not_keepsIpsUnique_repeatedArrival :
    letI : DeepPacketInspection := .silent
    (track repeatedArrival.toArrival []).dnsInfo = some repeatedInfo ∧
      ¬ KeepsIpsUnique repeatedArrival [] := by
  let _ : DeepPacketInspection := .silent
  have htracked : (track repeatedArrival.toArrival []).dnsInfo = some repeatedInfo := rfl
  refine ⟨htracked, fun h => ?_⟩
  exact absurd (h [] [] rfl repeatedInfo htracked).nodup (by decide)

end RustNet
