import Mathlib.Tactic.IntervalCases
import RustNet.Host.Ebpf.Programs

/-!
# Looking flows up

The lookups of `LibbpfSocketTracker`, and the flows for which they find what the hooks recorded.
The tracker reads an IPv4 address as the little-endian number the kernel reads in it, but the words
of an IPv6 address as big-endian numbers, while the program copies them as they lie in memory. The
two sides agree on an IPv6 address only when each of its words reads the same backwards. For IPv6
TCP and UDP the tracker does not try the unspecified source, either.

## Main results

* `find_eq_some`: the tracker returns what is stored under one of its keys;
* `agrees_iff`: for which flows it finds what was recorded, and nothing else.
-/

namespace RustNet.Host.Ebpf

/-! ## Keys -/

namespace ConnKey

/-- The words of `fill_v4`: the address in the first, as a little-endian number. -/
def fillV4 (ip : Ipv4Addr) : Vector UInt32 4 :=
  #v[UInt32.ofNat (LittleEndian.value ip.bytes), 0, 0, 0]

/-- The words of `fill_v6`, each read as a big-endian number. -/
def fillV6 (ip : Ipv6Addr) : Vector UInt32 4 :=
  Vector.ofFn fun i => UInt32.ofNat (BigEndian.value (ip.word i))

/-- `ConnKey::new_v4`: the key that an IPv4 flow is looked up under. -/
def newV4 (srcIp dstIp : Ipv4Addr) (srcPort dstPort : UInt16) (isTcp : Bool) : ConnKey where
  saddr := fillV4 srcIp
  daddr := fillV4 dstIp
  sport := srcPort
  dport := dstPort
  proto := if isTcp then ipprotoTcp else ipprotoUdp
  family := afInet

/-- `ConnKey::new_v6`: the key that an IPv6 flow is looked up under. -/
def newV6 (srcIp dstIp : Ipv6Addr) (srcPort dstPort : UInt16) (isTcp : Bool) : ConnKey where
  saddr := fillV6 srcIp
  daddr := fillV6 dstIp
  sport := srcPort
  dport := dstPort
  proto := if isTcp then ipprotoTcp else ipprotoUdp
  family := afInet6

/-- `ConnKey::new_icmp_v4`: the identifier of the echo stands for the source port. -/
def newIcmpV4 (srcIp dstIp : Ipv4Addr) (icmpId : UInt16) : ConnKey where
  saddr := fillV4 srcIp
  daddr := fillV4 dstIp
  sport := icmpId
  dport := 0
  proto := ipprotoIcmp
  family := afInet

/-- `ConnKey::new_icmp_v6`: the same over IPv6. -/
def newIcmpV6 (srcIp dstIp : Ipv6Addr) (icmpId : UInt16) : ConnKey where
  saddr := fillV6 srcIp
  daddr := fillV6 dstIp
  sport := icmpId
  dport := 0
  proto := ipprotoIcmpv6
  family := afInet6

end ConnKey

/-! ## Lookups -/

/-- The lookup of a key, an error counting as a miss. -/
def hit (map : BpfMap) (key : ConnKey) : Option ProcessInfo :=
  match lookupConnection map key with
  | .ok (some result) => some result
  | .ok none => none
  | .error _ => none

/-- `lookup_v4`: the exact key, then that with the unspecified source. -/
def lookupV4 (map : BpfMap) (srcIp dstIp : Ipv4Addr) (srcPort dstPort : UInt16) (isTcp : Bool) :
    Option ProcessInfo :=
  match hit map (.newV4 srcIp dstIp srcPort dstPort isTcp) with
  | some result => some result
  | none => hit map (.newV4 unspecifiedV4 dstIp srcPort dstPort isTcp)

/-- `lookup_v6`: the exact key only. -/
def lookupV6 (map : BpfMap) (srcIp dstIp : Ipv6Addr) (srcPort dstPort : UInt16) (isTcp : Bool) :
    Option ProcessInfo :=
  hit map (.newV6 srcIp dstIp srcPort dstPort isTcp)

/-- `lookup_icmp_v4`: the flow as it is, and then with an unspecified source. -/
def lookupIcmpV4 (map : BpfMap) (srcIp dstIp : Ipv4Addr) (icmpId : UInt16) :
    Option ProcessInfo :=
  match hit map (.newIcmpV4 srcIp dstIp icmpId) with
  | some result => some result
  | none => hit map (.newIcmpV4 unspecifiedV4 dstIp icmpId)

/-- `lookup_icmp_v6`: the flow as it is, and then with an unspecified source. -/
def lookupIcmpV6 (map : BpfMap) (srcIp dstIp : Ipv6Addr) (icmpId : UInt16) :
    Option ProcessInfo :=
  match hit map (.newIcmpV6 srcIp dstIp icmpId) with
  | some result => some result
  | none => hit map (.newIcmpV6 unspecifiedV6 dstIp icmpId)

/-- `lookup` for TCP and UDP: by the family of the addresses, which has to be one. -/
def lookup (map : BpfMap) (srcIp dstIp : IpAddr) (srcPort dstPort : UInt16) (isTcp : Bool) :
    Option ProcessInfo :=
  match srcIp, dstIp with
  | .v4 src, .v4 dst => lookupV4 map src dst srcPort dstPort isTcp
  | .v6 src, .v6 dst => lookupV6 map src dst srcPort dstPort isTcp
  | _, _ => none

/-- `lookup_icmp`: by the family of the addresses, which has to be one. -/
def lookupIcmp (map : BpfMap) (srcIp dstIp : IpAddr) (icmpId : UInt16) : Option ProcessInfo :=
  match srcIp, dstIp with
  | .v4 src, .v4 dst => lookupIcmpV4 map src dst icmpId
  | .v6 src, .v6 dst => lookupIcmpV6 map src dst icmpId
  | _, _ => none

/-- The lookup of a flow by its addresses and ports. -/
def find (map : BpfMap) (flow : Flow) : Option ProcessInfo :=
  match flow.session with
  | .tcp sport dport => lookup map flow.src flow.dst sport dport true
  | .udp sport dport => lookup map flow.src flow.dst sport dport false
  | .icmpEcho icmpId => lookupIcmp map flow.src flow.dst icmpId

/-- The key of a flow with the words of an IPv6 address read as big-endian numbers. -/
def userKey (flow : Flow) : ConnKey :=
  match flow.addrs with
  | .v4 .. => kernelKey flow
  | .v6 src dst =>
    { kernelKey flow with saddr := ConnKey.fillV6 src, daddr := ConnKey.fillV6 dst }

/-- The flow with the unspecified source. -/
def Flow.fromAny (flow : Flow) : Flow :=
  match flow.addrs with
  | .v4 _ dst => { flow with addrs := .v4 unspecifiedV4 dst }
  | .v6 _ dst => { flow with addrs := .v6 unspecifiedV6 dst }

/-- The tracker tries the unspecified source for the flow. -/
def TriesAny (flow : Flow) : Prop :=
  match flow.addrs, flow.session with
  | .v6 .., .tcp .. => False
  | .v6 .., .udp .. => False
  | _, _ => True

theorem hit_eq (map : BpfMap) (key : ConnKey) :
    hit map key = (map.entries.lookup key.asBytes).map fun valueBytes =>
      .ofConnInfo (.ofBytes valueBytes) := by
  rw [hit, lookupConnection_eq]
  cases map.entries.lookup key.asBytes <;> rfl

/-- Two lookups in a row. -/
theorem orElse_eq (map : BpfMap) (key key' : ConnKey) :
    (match hit map key with
      | some result => some result
      | none => hit map key') = (hit map key).or (hit map key') := by
  cases hit map key <;> rfl

/-- The keys that the tracker tries for a flow. -/
theorem find_eq (map : BpfMap) (flow : Flow) (_ : TriesAny flow) :
    find map flow = (hit map (userKey flow)).or (hit map (userKey flow.fromAny)) := by
  obtain ⟨addrs, session⟩ := flow
  cases addrs <;> cases session <;> first | contradiction | exact orElse_eq map _ _

theorem find_eq_of_not_triesAny (map : BpfMap) (flow : Flow) (h : ¬ TriesAny flow) :
    find map flow = hit map (userKey flow) := by
  obtain ⟨addrs, session⟩ := flow
  cases addrs <;> cases session <;> first | exact absurd trivial h | rfl

/-- The tracker returns what is stored under one of the keys it tries. -/
theorem find_eq_some {map : BpfMap} {flow : Flow} {info : ProcessInfo}
    (h : find map flow = some info) : ∃ f, (f = flow ∨ TriesAny flow ∧ f = flow.fromAny) ∧
      ∃ value, map.entries.lookup (userKey f).asBytes = some value ∧
        info = .ofConnInfo (.ofBytes value) := by
  have hstored : ∀ f, hit map (userKey f) = some info →
      ∃ value, map.entries.lookup (userKey f).asBytes = some value ∧
        info = .ofConnInfo (.ofBytes value) := by
    intro f hf
    rw [hit_eq, Option.map_eq_some_iff] at hf
    obtain ⟨value, hvalue, rfl⟩ := hf
    exact ⟨value, hvalue, rfl⟩
  -- a second key is tried, that of the flow from any address
  by_cases htries : TriesAny flow
  · rw [find_eq map flow htries, Option.or_eq_some_iff] at h
    rcases h with h | ⟨-, h⟩
    · exact ⟨flow, Or.inl rfl, hstored _ h⟩
    · exact ⟨flow.fromAny, Or.inr ⟨htries, rfl⟩, hstored _ h⟩
  · rw [find_eq_of_not_triesAny map flow htries] at h
    exact ⟨flow, Or.inl rfl, hstored _ h⟩

/-- A key that is tried and present is found. -/
theorem isSome_find {map : BpfMap} {flow f : Flow}
    (hf : f = flow ∨ TriesAny flow ∧ f = flow.fromAny)
    (hmem : (map.entries.lookup (userKey f).asBytes).isSome) : (find map flow).isSome := by
  have hhit : (hit map (userKey f)).isSome := by
    rw [hit_eq, Option.isSome_map]
    exact hmem
  by_cases htries : TriesAny flow
  · rw [find_eq map flow htries, Option.isSome_or, Bool.or_eq_true]
    rcases hf with rfl | ⟨-, rfl⟩
    · exact Or.inl hhit
    · exact Or.inr hhit
  · rw [find_eq_of_not_triesAny map flow htries]
    rcases hf with rfl | ⟨h, -⟩
    · exact hhit
    · exact absurd h htries

/-! ## Agreement -/

/-- The entry of a call with the real destination, ports and protocol of the flow and with its real
source or the unspecified one is in the map. -/
def HasRecorded (map : SocketMap) (flow : Flow) : Prop :=
  ∃ call k, HookCall.key call = some k ∧ k.asBytes ∈ map.entries ∧
    (call.flow = flow ∨ call.flow = flow.fromAny)

/-- What was recorded for the flow is found, and nothing that was recorded for another family,
destination, port pair or protocol. -/
def Agrees (map : SocketMap) (flow : Flow) : Prop :=
  (HasRecorded map flow → ∃ info, find map.toBpfMap flow = some info) ∧
    ∀ info, find map.toBpfMap flow = some info → ∃ key value,
      map.entries.lookup key = some value ∧ info = .ofConnInfo (.ofBytes value) ∧
        ∀ call k, HookCall.key call = some k → k.asBytes = key → call.flow.SameTarget flow

/-- Every word of the address reads the same backwards. -/
def Palindromic (ip : Ipv6Addr) : Prop := ∀ i < 4, (ip.word i).reverse = ip.word i

/-- The two byte orders agree on the flow and no lookup of the unspecified source is missing. -/
def Readable (flow : Flow) : Prop :=
  match flow.addrs with
  | .v4 .. => True
  | .v6 src dst => Palindromic dst ∧ Palindromic src ∧ (TriesAny flow ∨ src = unspecifiedV6)

theorem fillV6_eq_copyAddr {ip ip' : Ipv6Addr} (h : ConnKey.fillV6 ip = copyAddr ip') {i : ℕ}
    (hi : i < 4) : (ip.word i).reverse = ip'.word i := by
  have hword : UInt32.ofNat (LittleEndian.value (ip.word i).reverse) =
      UInt32.ofNat (LittleEndian.value (ip'.word i)) := by
    have hget := congrArg (fun words => words[i]) h
    simp only [getElem_copyAddr, ConnKey.fillV6, Vector.getElem_ofFn] at hget
    rw [← hget, LittleEndian.value, List.reverse_reverse]
  refine ofNat_value_inj ?_ (ip'.length_word hi) hword
  rw [List.length_reverse, ip.length_word hi]

/-- The words of an address are the same in both byte orders when they are palindromes. -/
theorem fillV6_eq_copyAddr_iff {ip : Ipv6Addr} :
    ConnKey.fillV6 ip = copyAddr ip ↔ Palindromic ip := by
  constructor
  · exact fun h i hi => fillV6_eq_copyAddr h hi
  · intro h
    apply Vector.ext
    intro i hi
    rw [getElem_copyAddr, ConnKey.fillV6, Vector.getElem_ofFn,
      (LittleEndian.value_eq_bigEndian_iff (ip.word i)).mpr (h i hi)]

theorem word_unspecifiedV6 (i : ℕ) (hi : i < 4) : unspecifiedV6.word i = [0, 0, 0, 0] := by
  interval_cases i <;> decide

theorem palindromic_unspecifiedV6 : Palindromic unspecifiedV6 := by
  intro i hi
  rw [word_unspecifiedV6 i hi]
  rfl

/-- Words that are zero in one byte order are zero in the other. -/
theorem fillV6_eq_unspecified {ip : Ipv6Addr} (h : ConnKey.fillV6 ip = copyAddr unspecifiedV6) :
    ip = unspecifiedV6 := by
  apply Ipv6Addr.octets_inj
  rw [← ip.flatMap_word, ← unspecifiedV6.flatMap_word]
  apply List.flatMap_congr
  intro i hi
  have hi : i < 4 := List.mem_range.mp hi
  have hword := fillV6_eq_copyAddr h hi
  rw [word_unspecifiedV6 i hi] at hword ⊢
  rw [← List.reverse_reverse (ip.word i), hword]
  rfl

theorem copyAddr_eq_unspecified {ip : Ipv6Addr} (h : ConnKey.fillV6 unspecifiedV6 = copyAddr ip) :
    ip = unspecifiedV6 := by
  rw [fillV6_eq_copyAddr_iff.mpr palindromic_unspecifiedV6] at h
  exact (copyAddr_inj h).symm

/-- The words of the flow's addresses are the same in both byte orders. -/
def Legible (flow : Flow) : Prop :=
  match flow.addrs with
  | .v4 .. => True
  | .v6 src dst => Palindromic src ∧ Palindromic dst

theorem Legible.userKey_eq {flow : Flow} (h : Legible flow) : userKey flow = kernelKey flow := by
  obtain ⟨addrs, session⟩ := flow
  cases addrs with
  | v4 src dst => rfl
  | v6 src dst =>
    have hsrc := fillV6_eq_copyAddr_iff.mpr h.1
    have hdst := fillV6_eq_copyAddr_iff.mpr h.2
    simp only [userKey, kernelKey, hsrc, hdst]

theorem Legible.fromAny {flow : Flow} (h : Legible flow) : Legible flow.fromAny := by
  obtain ⟨addrs, session⟩ := flow
  cases addrs with
  | v4 src dst => trivial
  | v6 src dst => exact ⟨palindromic_unspecifiedV6, h.2⟩

theorem Readable.legible {flow : Flow} (h : Readable flow) : Legible flow := by
  obtain ⟨addrs, session⟩ := flow
  cases addrs with
  | v4 src dst => trivial
  | v6 src dst => exact ⟨h.2.1, h.1⟩

/-- A readable flow that is not looked up under the unspecified source has it. -/
theorem Readable.fromAny_eq {flow : Flow} (h : Readable flow) (htries : ¬ TriesAny flow) :
    flow.fromAny = flow := by
  obtain ⟨addrs, session⟩ := flow
  cases addrs with
  | v4 src dst => exact absurd trivial htries
  | v6 src dst =>
    rcases h.2.2 with h | rfl
    · exact absurd h htries
    · rfl

theorem sameTarget_fromAny (flow : Flow) : flow.fromAny.SameTarget flow := by
  obtain ⟨addrs, session⟩ := flow
  cases addrs <;> exact ⟨rfl, rfl⟩

/-- A readable flow is looked up under the keys the hooks use. -/
theorem Readable.agrees {flow : Flow} (h : Readable flow) (map : SocketMap) :
    Agrees map flow := by
  have hlegible : ∀ f, (f = flow ∨ TriesAny flow ∧ f = flow.fromAny) → Legible f := by
    rintro f (rfl | ⟨-, rfl⟩)
    · exact h.legible
    · exact h.legible.fromAny
  constructor
  · rintro ⟨call, k, hkey, hmem, hflow⟩
    rw [HookCall.key_eq_some hkey] at hmem
    -- whichever source was recorded, its key is tried
    have htried : call.flow = flow ∨ TriesAny flow ∧ call.flow = flow.fromAny := by
      by_cases htries : TriesAny flow
      · exact hflow.imp_right fun hflow => ⟨htries, hflow⟩
      · rw [h.fromAny_eq htries, or_self] at hflow
        exact Or.inl hflow
    rw [← Option.isSome_iff_exists]
    apply isSome_find htried
    rw [(hlegible _ htried).userKey_eq, AList.lookup_isSome]
    exact hmem
  · intro info hinfo
    obtain ⟨f, hf, value, hvalue, rfl⟩ := find_eq_some hinfo
    refine ⟨_, value, hvalue, rfl, fun call k hkey hk => ?_⟩
    have hflow : call.flow = f := by
      apply kernelKey_inj
      rw [← HookCall.key_eq_some hkey, ConnKey.asBytes_inj hk, (hlegible f hf).userKey_eq]
    rw [hflow]
    rcases hf with rfl | ⟨-, rfl⟩
    · exact ⟨rfl, rfl⟩
    · exact sameTarget_fromAny flow

/-! ## Flows that are lost -/

/-- The hook call that records an IPv6 flow. -/
def recordingCall (src dst : Ipv6Addr) : Session → HookCall
  | .tcp sport dport => .tcpV6Connect ⟨unspecifiedV4, unspecifiedV4, src, dst, sport, dport⟩
  | .udp sport dport => .udpv6Sendmsg ⟨unspecifiedV4, unspecifiedV4, src, dst, sport, dport⟩
  | .icmpEcho icmpId => .pingV6Sendmsg ⟨unspecifiedV4, unspecifiedV4, src, dst, icmpId, 0⟩ none

theorem flow_recordingCall (src dst : Ipv6Addr) (session : Session) :
    (recordingCall src dst session).flow = ⟨.v6 src dst, session⟩ := by
  cases session <;> rfl

theorem key_recordingCall (src dst : Ipv6Addr) (session : Session) :
    (recordingCall src dst session).key = some (kernelKey ⟨.v6 src dst, session⟩) := by
  obtain ⟨k, hk⟩ : ∃ k, (recordingCall src dst session).key = some k := by
    cases session <;> exact ⟨_, rfl⟩
  rw [hk, HookCall.key_eq_some hk, flow_recordingCall]

/-- A task about which nothing is known. -/
def someTask : Task := ⟨0, 0, none, Vector.replicate 16 0, 0⟩

/-- When the one entry of a map is found, it is under a key that is tried. -/
theorem Agrees.userKey_eq {src dst src' : Ipv6Addr} {session : Session}
    (h : Agrees (SocketMap.empty.update (recordingCall src' dst session) someTask)
      ⟨.v6 src dst, session⟩) (hsrc : src' = src ∨ src' = unspecifiedV6) :
    ∃ f : Flow, (f = ⟨.v6 src dst, session⟩ ∨ TriesAny ⟨.v6 src dst, session⟩ ∧
      f = ⟨.v6 unspecifiedV6 dst, session⟩) ∧ userKey f = kernelKey ⟨.v6 src' dst, session⟩ := by
  have hlookup := SocketMap.lookup_update_empty (key_recordingCall src' dst session) someTask
  -- with a single entry in the map, what is found is that entry
  have hrecorded : HasRecorded (SocketMap.empty.update (recordingCall src' dst session) someTask)
      ⟨.v6 src dst, session⟩ := by
    refine ⟨_, _, key_recordingCall src' dst session, ?_, ?_⟩
    · rw [← AList.lookup_isSome, hlookup, if_pos rfl]
      rfl
    · rw [flow_recordingCall]
      rcases hsrc with rfl | rfl
      · exact Or.inl rfl
      · exact Or.inr rfl
  obtain ⟨info, hinfo⟩ := h.1 hrecorded
  obtain ⟨f, hf, value, hvalue, -⟩ := find_eq_some hinfo
  rw [hlookup, Option.ite_none_right_eq_some] at hvalue
  exact ⟨f, hf, ConnKey.asBytes_inj hvalue.1⟩

/-- What was recorded for a flow is found in every map, and nothing recorded for another target,
exactly when the flow is an IPv4 one, or an IPv6 one whose addresses read the same in both byte
orders and that either is an ICMP echo or has the unspecified source. The hooks copy an IPv6 address
as it lies in memory, and the lookup reads its words as big-endian numbers. -/
theorem agrees_iff (flow : Flow) : (∀ map, Agrees map flow) ↔ Readable flow := by
  refine ⟨fun h => ?_, fun h map => h.agrees map⟩
  obtain ⟨addrs, session⟩ := flow
  cases addrs with
  | v4 src dst => trivial
  | v6 src dst =>
    -- the entry with the real source gives the byte orders
    have horders : Palindromic dst ∧ Palindromic src := by
      obtain ⟨f, hf, hkey⟩ := (h _).userKey_eq (Or.inl rfl)
      have hsaddr := congrArg ConnKey.saddr hkey
      have hdaddr := congrArg ConnKey.daddr hkey
      rcases hf with rfl | ⟨-, rfl⟩
      · exact ⟨fillV6_eq_copyAddr_iff.mp hdaddr, fillV6_eq_copyAddr_iff.mp hsaddr⟩
      · refine ⟨fillV6_eq_copyAddr_iff.mp hdaddr, ?_⟩
        rw [copyAddr_eq_unspecified hsaddr]
        exact palindromic_unspecifiedV6
    refine ⟨horders.1, horders.2, ?_⟩
    by_cases htries : TriesAny ⟨.v6 src dst, session⟩
    · exact Or.inl htries
    -- that with the unspecified source is found under the real one
    · obtain ⟨f, hf, hkey⟩ := (h _).userKey_eq (Or.inr rfl)
      rcases hf with rfl | ⟨htries', -⟩
      · exact Or.inr (fillV6_eq_unspecified (congrArg ConnKey.saddr hkey))
      · exact absurd htries' htries

/-- `2001:db8::host`, an address whose words do not read the same in both byte orders. -/
def documentationAddr (host : UInt16) : Ipv6Addr := .new 0x2001 0xdb8 0 0 0 0 0 host

/-- A TCP connection from `2001:db8::1` to port 443 of `2001:db8::2`. -/
def documentationFlow : Flow where
  addrs := .v6 (documentationAddr 1) (documentationAddr 2)
  session := .tcp 40000 443

/-- The call that records it. -/
def documentationCall : HookCall :=
  recordingCall (documentationAddr 1) (documentationAddr 2) (.tcp 40000 443)

/-- The connection is recorded with its real addresses, and not found. -/
theorem documentationFlow_not_agrees : ¬ ∀ map, Agrees map documentationFlow := by
  intro h
  have hrecorded : HasRecorded (SocketMap.empty.update documentationCall someTask)
      documentationFlow :=
    ⟨documentationCall, kernelKey documentationFlow, rfl, by decide +kernel, Or.inl rfl⟩
  obtain ⟨info, hinfo⟩ := (h _).1 hrecorded
  have hnone : find (SocketMap.empty.update documentationCall someTask).toBpfMap
      documentationFlow = none := by
    rfl
  rw [hnone] at hinfo
  cases hinfo

end RustNet.Host.Ebpf
