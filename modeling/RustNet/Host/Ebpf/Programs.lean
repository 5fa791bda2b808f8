import RustNet.Host.Ebpf.Maps

/-!
# The socket-tracking program

The hooks of the BPF program, each as the key it makes of the kernel structures it is called with,
and the map that holds what they recorded. The address and port fields of the kernel structures
hold their bytes in network order; a little-endian machine reads them as it reads any number. A
pointer that a hook checks for null points to its structure here.

What a call is about is a `Flow`: the addresses and ports as the packets carry them.

## Main results

* `HookCall.key_eq_some`: a hook files its call under the words a little-endian machine reads;
* `kernelKey_inj`: flows filed under one key are the same.
-/

namespace RustNet.Host.Ebpf

/-! ## Flows -/

/-- The addresses of a flow. -/
inductive FlowAddrs
  | v4 (src dst : Ipv4Addr)
  | v6 (src dst : Ipv6Addr)
deriving DecidableEq

/-- What a flow is besides its addresses. -/
inductive Session
  | tcp (sport dport : UInt16)
  | udp (sport dport : UInt16)
  | icmpEcho (icmpId : UInt16)
deriving DecidableEq

/-- A TCP, UDP or ICMP echo flow. -/
structure Flow where
  addrs : FlowAddrs
  session : Session
deriving DecidableEq

namespace Flow

/-- The source address of a flow, of either family. -/
def src (flow : Flow) : IpAddr :=
  match flow.addrs with
  | .v4 src _ => .v4 src
  | .v6 src _ => .v6 src

/-- The destination address of a flow, of either family. -/
def dst (flow : Flow) : IpAddr :=
  match flow.addrs with
  | .v4 _ dst => .v4 dst
  | .v6 _ dst => .v6 dst

/-- The flows agree on the family, the destination, the ports and the protocol. -/
def SameTarget (flow other : Flow) : Prop :=
  flow.dst = other.dst ∧ flow.session = other.session

end Flow

/-- `0.0.0.0`: a socket that is not bound to an address, or has no remote end. -/
def unspecifiedV4 : Ipv4Addr := ⟨Vector.replicate 4 0⟩

/-- `::`: an IPv6 socket that is not bound to an address. -/
def unspecifiedV6 : Ipv6Addr := ⟨Vector.replicate 8 0⟩

/-! ## Kernel structures -/

/-- The fields of `struct sock` the hooks read, with `skc_num` in host order as the kernel has it. -/
structure Sock where
  skcRcvSaddr : Ipv4Addr
  skcDaddr : Ipv4Addr
  skcV6RcvSaddr : Ipv6Addr
  skcV6Daddr : Ipv6Addr
  skcNum : UInt16
  skcDport : UInt16

/-- The fields of `struct sockaddr_in` the hooks read. -/
structure SockaddrIn where
  sinAddr : Ipv4Addr
  sinPort : UInt16

/-- The fields of `struct sockaddr_in6` the hooks read. -/
structure SockaddrIn6 where
  sin6Addr : Ipv6Addr

/-- The number read in an address field. -/
def readAddr (addr : Ipv4Addr) : UInt32 := UInt32.ofNat (LittleEndian.value addr.bytes)

/-- `memcpy` of an address to four words. -/
def copyAddr (addr : Ipv6Addr) : Vector UInt32 4 :=
  Vector.ofFn fun i => UInt32.ofNat (LittleEndian.value (addr.word i))

/-- The number read in a port field. -/
def readPort (port : UInt16) : UInt16 :=
  UInt16.ofNat (LittleEndian.value (BigEndian.bytes 2 port.toNat))

/-- `bpf_ntohs`: the bytes change places. -/
def bpfNtohs (x : UInt16) : UInt16 := UInt16.ofNat (BigEndian.value (bytes16 x))

/-- The port is brought to host order. -/
@[simp]
theorem bpfNtohs_readPort (port : UInt16) : bpfNtohs (readPort port) = port := by
  have hbytes : bytes16 (readPort port) = BigEndian.bytes 2 port.toNat := by
    have hlt : LittleEndian.value (BigEndian.bytes 2 port.toNat) < 2 ^ 16 := by
      have := LittleEndian.value_lt (BigEndian.bytes 2 port.toNat)
      rw [BigEndian.length_bytes] at this
      exact this
    have hwrite := LittleEndian.bytes_value (BigEndian.bytes 2 port.toNat)
    rw [BigEndian.length_bytes] at hwrite
    rw [bytes16, readPort, UInt16.toNat_ofNat_of_lt' hlt, hwrite]
  have hport : port.toNat < 256 ^ 2 := port.toNat_lt
  rw [bpfNtohs, hbytes, BigEndian.value_bytes, Nat.mod_eq_of_lt hport, UInt16.ofNat_toNat]

theorem ofNat_value_inj {bs cs : List UInt8} (hbs : bs.length = 4) (hcs : cs.length = 4)
    (h : UInt32.ofNat (LittleEndian.value bs) = UInt32.ofNat (LittleEndian.value cs)) :
    bs = cs := by
  have hlt : ∀ ds : List UInt8, ds.length = 4 → LittleEndian.value ds < 2 ^ 32 := by
    intro ds hds
    have := LittleEndian.value_lt ds
    rw [hds] at this
    exact this
  have hvalue := congrArg UInt32.toNat h
  rw [UInt32.toNat_ofNat_of_lt' (hlt bs hbs), UInt32.toNat_ofNat_of_lt' (hlt cs hcs)] at hvalue
  exact (LittleEndian.value_inj (hbs.trans hcs.symm)).mp hvalue

theorem readAddr_inj {addr addr' : Ipv4Addr} (h : readAddr addr = readAddr addr') :
    addr = addr' :=
  Ipv4Addr.bytes_inj (ofNat_value_inj addr.length_bytes addr'.length_bytes h)

@[simp]
theorem getElem_copyAddr (addr : Ipv6Addr) (i : ℕ) (hi : i < 4) :
    (copyAddr addr)[i] = UInt32.ofNat (LittleEndian.value (addr.word i)) := by
  simp [copyAddr]

theorem copyAddr_inj {addr addr' : Ipv6Addr} (h : copyAddr addr = copyAddr addr') :
    addr = addr' := by
  apply Ipv6Addr.octets_inj
  rw [← addr.flatMap_word, ← addr'.flatMap_word]
  apply List.flatMap_congr
  intro i hi
  have hi : i < 4 := List.mem_range.mp hi
  apply ofNat_value_inj (addr.length_word hi) (addr'.length_word hi)
  rw [← getElem_copyAddr addr i hi, ← getElem_copyAddr addr' i hi, h]

/-! ## Hooks -/

/-- The IPv4 key of a socket. -/
def v4Key (sk : Sock) (daddr : UInt32) (dport : UInt16) (proto : UInt8) : ConnKey where
  saddr := #v[readAddr sk.skcRcvSaddr, 0, 0, 0]
  daddr := #v[daddr, 0, 0, 0]
  sport := sk.skcNum
  dport := dport
  proto := proto
  family := afInet

/-- The IPv6 key of a socket. -/
def v6Key (sk : Sock) (daddr : Ipv6Addr) (dport : UInt16) (proto : UInt8) : ConnKey where
  saddr := copyAddr sk.skcV6RcvSaddr
  daddr := copyAddr daddr
  sport := sk.skcNum
  dport := dport
  proto := proto
  family := afInet6

/-- `trace_tcp_connect`: the key that the hook records under, from the fields of its socket. -/
def traceTcpConnect (sk : Sock) : Option ConnKey :=
  some (v4Key sk (readAddr sk.skcDaddr) (bpfNtohs (readPort sk.skcDport)) ipprotoTcp)

/-- `trace_tcp_accept`: as on connecting, but the socket is the listening one. -/
def traceTcpAccept (sk : Sock) : Option ConnKey :=
  some (v4Key sk (readAddr sk.skcDaddr) (bpfNtohs (readPort sk.skcDport)) ipprotoTcp)

/-- `trace_udp_sendmsg`: the destination is that of the message, if it names one. -/
def traceUdpSendmsg (sk : Sock) (msgName : Option SockaddrIn) : Option ConnKey :=
  let (daddr, dport) := match msgName with
    | some dest => (readAddr dest.sinAddr, readPort dest.sinPort)
    | none => (readAddr sk.skcDaddr, readPort sk.skcDport)
  -- only skip if the destination is zero
  if daddr = 0 then none else some (v4Key sk daddr (bpfNtohs dport) ipprotoUdp)

/-- `trace_tcp_v6_connect`: the same with the IPv6 addresses of the socket. -/
def traceTcpV6Connect (sk : Sock) : Option ConnKey :=
  some (v6Key sk sk.skcV6Daddr (bpfNtohs (readPort sk.skcDport)) ipprotoTcp)

/-- `trace_udp_v6_sendmsg`: the destination is always the socket's. -/
def traceUdpV6Sendmsg (sk : Sock) : Option ConnKey :=
  some (v6Key sk sk.skcV6Daddr (bpfNtohs (readPort sk.skcDport)) ipprotoUdp)

/-- `trace_ping_v4_sendmsg`: the destination is the one of the call, or that of the socket; without
one nothing is recorded. The source port is the identifier of the echo. -/
def tracePingV4Sendmsg (sk : Sock) (msgName : Option SockaddrIn) : Option ConnKey :=
  let daddr := match msgName with
    | some dest => readAddr dest.sinAddr
    | none => readAddr sk.skcDaddr
  if daddr = 0 then none else some (v4Key sk daddr 0 ipprotoIcmp)

/-- `trace_ping_v6_sendmsg`: the same over IPv6, where a destination of zeros is recorded as
well. -/
def tracePingV6Sendmsg (sk : Sock) (msgName : Option SockaddrIn6) : Option ConnKey :=
  let daddr := match msgName with
    | some dest => dest.sin6Addr
    | none => sk.skcV6Daddr
  some (v6Key sk daddr 0 ipprotoIcmpv6)

/-- A call of one of the hooks. -/
inductive HookCall
  | tcpConnect (sk : Sock)
  | inetCskAccept (sk : Sock)
  | udpSendmsg (sk : Sock) (msgName : Option SockaddrIn)
  | tcpV6Connect (sk : Sock)
  | udpv6Sendmsg (sk : Sock)
  | pingV4Sendmsg (sk : Sock) (msgName : Option SockaddrIn)
  | pingV6Sendmsg (sk : Sock) (msgName : Option SockaddrIn6)

namespace HookCall

/-- The key a call is filed under, if it is. -/
def key : HookCall → Option ConnKey
  | tcpConnect sk => traceTcpConnect sk
  | inetCskAccept sk => traceTcpAccept sk
  | udpSendmsg sk msgName => traceUdpSendmsg sk msgName
  | tcpV6Connect sk => traceTcpV6Connect sk
  | udpv6Sendmsg sk => traceUdpV6Sendmsg sk
  | pingV4Sendmsg sk msgName => tracePingV4Sendmsg sk msgName
  | pingV6Sendmsg sk msgName => tracePingV6Sendmsg sk msgName

/-- The flow a call is about, with the source the socket has at the time. -/
def flow : HookCall → Flow
  | tcpConnect sk => ⟨.v4 sk.skcRcvSaddr sk.skcDaddr, .tcp sk.skcNum sk.skcDport⟩
  | inetCskAccept sk => ⟨.v4 sk.skcRcvSaddr sk.skcDaddr, .tcp sk.skcNum sk.skcDport⟩
  | udpSendmsg sk (some dest) => ⟨.v4 sk.skcRcvSaddr dest.sinAddr, .udp sk.skcNum dest.sinPort⟩
  | udpSendmsg sk none => ⟨.v4 sk.skcRcvSaddr sk.skcDaddr, .udp sk.skcNum sk.skcDport⟩
  | tcpV6Connect sk => ⟨.v6 sk.skcV6RcvSaddr sk.skcV6Daddr, .tcp sk.skcNum sk.skcDport⟩
  | udpv6Sendmsg sk => ⟨.v6 sk.skcV6RcvSaddr sk.skcV6Daddr, .udp sk.skcNum sk.skcDport⟩
  | pingV4Sendmsg sk (some dest) => ⟨.v4 sk.skcRcvSaddr dest.sinAddr, .icmpEcho sk.skcNum⟩
  | pingV4Sendmsg sk none => ⟨.v4 sk.skcRcvSaddr sk.skcDaddr, .icmpEcho sk.skcNum⟩
  | pingV6Sendmsg sk (some dest) => ⟨.v6 sk.skcV6RcvSaddr dest.sin6Addr, .icmpEcho sk.skcNum⟩
  | pingV6Sendmsg sk none => ⟨.v6 sk.skcV6RcvSaddr sk.skcV6Daddr, .icmpEcho sk.skcNum⟩

end HookCall

/-! ## Keys of flows -/

/-- The source port of the key, which is the identifier of an ICMP echo. -/
def Session.sport : Session → UInt16
  | .tcp sport _ => sport
  | .udp sport _ => sport
  | .icmpEcho icmpId => icmpId

/-- The destination port of the key. -/
def Session.dport : Session → UInt16
  | .tcp _ dport => dport
  | .udp _ dport => dport
  | .icmpEcho _ => 0

/-- The protocol number of an IPv4 key. -/
def Session.protoV4 : Session → UInt8
  | .tcp .. => ipprotoTcp
  | .udp .. => ipprotoUdp
  | .icmpEcho _ => ipprotoIcmp

/-- The protocol number of an IPv6 key. -/
def Session.protoV6 : Session → UInt8
  | .tcp .. => ipprotoTcp
  | .udp .. => ipprotoUdp
  | .icmpEcho _ => ipprotoIcmpv6

/-- The key that the program files a flow under. -/
def kernelKey (flow : Flow) : ConnKey :=
  match flow.addrs with
  | .v4 src dst =>
    { saddr := #v[readAddr src, 0, 0, 0], daddr := #v[readAddr dst, 0, 0, 0]
      sport := flow.session.sport, dport := flow.session.dport
      proto := flow.session.protoV4, family := afInet }
  | .v6 src dst =>
    { saddr := copyAddr src, daddr := copyAddr dst
      sport := flow.session.sport, dport := flow.session.dport
      proto := flow.session.protoV6, family := afInet6 }

/-- Every hook that records its call at all files it under the key of its flow. -/
theorem HookCall.key_eq_some {call : HookCall} {k : ConnKey} (h : call.key = some k) :
    k = kernelKey call.flow := by
  cases call with
  -- the destination is that of the message or that of the socket
  | udpSendmsg sk msgName =>
    cases msgName <;>
      simp only [key, traceUdpSendmsg, bpfNtohs_readPort, Option.ite_none_left_eq_some,
        Option.some.injEq] at h <;>
      exact h.2.symm
  | pingV4Sendmsg sk msgName =>
    cases msgName <;>
      simp only [key, tracePingV4Sendmsg, Option.ite_none_left_eq_some, Option.some.injEq] at h <;>
      exact h.2.symm
  | pingV6Sendmsg sk msgName =>
    cases msgName <;> exact (Option.some.inj h).symm
  | tcpConnect sk | inetCskAccept sk | tcpV6Connect sk | udpv6Sendmsg sk =>
    simp only [key, traceTcpConnect, traceTcpAccept, traceTcpV6Connect, traceUdpV6Sendmsg,
      bpfNtohs_readPort, Option.some.injEq] at h
    exact h.symm

theorem Session.ext_of_v4 {s s' : Session} (hsport : s.sport = s'.sport)
    (hdport : s.dport = s'.dport) (hproto : s.protoV4 = s'.protoV4) : s = s' := by
  cases s <;> cases s' <;> simp_all [Session.sport, Session.dport, Session.protoV4, ipprotoTcp,
    ipprotoUdp, ipprotoIcmp]

theorem Session.ext_of_v6 {s s' : Session} (hsport : s.sport = s'.sport)
    (hdport : s.dport = s'.dport) (hproto : s.protoV6 = s'.protoV6) : s = s' := by
  cases s <;> cases s' <;> simp_all [Session.sport, Session.dport, Session.protoV6, ipprotoTcp,
    ipprotoUdp, ipprotoIcmpv6]

/-- Flows filed under one key are the same. -/
theorem kernelKey_inj {flow other : Flow} (h : kernelKey flow = kernelKey other) : flow = other := by
  obtain ⟨addrs, session⟩ := flow
  obtain ⟨addrs', session'⟩ := other
  cases addrs with
  | v4 src dst =>
    cases addrs' with
    | v4 src' dst' =>
      simp only [kernelKey, ConnKey.mk.injEq, and_true] at h
      obtain ⟨hsrc, hdst, hsport, hdport, hproto⟩ := h
      -- the address is the first word
      have hsrc : readAddr src = readAddr src' := congrArg (fun words => words[0]) hsrc
      have hdst : readAddr dst = readAddr dst' := congrArg (fun words => words[0]) hdst
      rw [readAddr_inj hsrc, readAddr_inj hdst, Session.ext_of_v4 hsport hdport hproto]
    -- the families differ
    | v6 src' dst' => simp [kernelKey, afInet, afInet6] at h
  | v6 src dst =>
    cases addrs' with
    | v4 src' dst' => simp [kernelKey, afInet, afInet6] at h
    | v6 src' dst' =>
      simp only [kernelKey, ConnKey.mk.injEq, and_true] at h
      obtain ⟨hsrc, hdst, hsport, hdport, hproto⟩ := h
      rw [copyAddr_inj hsrc, copyAddr_inj hdst, Session.ext_of_v6 hsport hdport hproto]

/-! ## The map the hooks write -/

/-- The current task, as far as `get_process_info` reads it. -/
structure Task where
  pidTgid : UInt64
  uidGid : UInt64
  /-- The name of the thread-group leader, if it could be read. -/
  leaderComm : Option (Vector UInt8 16)
  comm : Vector UInt8 16
  /-- `bpf_ktime_get_ns`. -/
  ktimeNs : UInt64

/-- `get_process_info`: the process of the current task, with the time since the boot. -/
def getProcessInfo (task : Task) : ConnInfo where
  pid := (task.pidTgid >>> 32).toUInt32
  uid := (task.uidGid >>> 32).toUInt32
  comm :=
    -- the name of the process rather than that of the thread
    match task.leaderComm with
    | some comm => if comm[0] = 0 then task.comm else comm
    | none => task.comm
  timestamp := task.ktimeNs

/-- `MAX_ENTRIES`: the room of the map, beyond which the kernel inserts nothing. -/
def maxEntries : ℕ := 32768

/-- A socket map: a BPF map all of whose entries a hook wrote. -/
structure SocketMap extends BpfMap where
  written : ∀ key value, entries.lookup key = some value → ∃ call task k,
    HookCall.key call = some k ∧ key = k.asBytes ∧ value = (getProcessInfo task).asBytes
  size_le : entries.size ≤ maxEntries

namespace SocketMap

/-- The map before the first call. -/
def empty : SocketMap where
  entries := ∅
  length_value := by simp
  written := by simp
  size_le := Nat.zero_le _

/-- `bpf_map_update_elem` of a hook: a full map takes no new key. -/
def update (map : SocketMap) (call : HookCall) (task : Task) : SocketMap :=
  match hkey : call.key with
  | none => map
  | some k =>
    if hfull : k.asBytes ∉ map.entries ∧ maxEntries ≤ map.entries.size then map
    else
      { entries := map.entries.insert k.asBytes (getProcessInfo task).asBytes
        length_value := by
          intro key value h
          by_cases hk : key = k.asBytes
          · rw [hk, AList.lookup_insert, Option.some.injEq] at h
            simp [← h]
          · rw [AList.lookup_insert_ne hk] at h
            exact map.length_value key value h
        written := by
          intro key value h
          by_cases hk : key = k.asBytes
          · rw [hk, AList.lookup_insert, Option.some.injEq] at h
            exact ⟨call, task, k, hkey, hk, h.symm⟩
          · rw [AList.lookup_insert_ne hk] at h
            exact map.written key value h
        size_le := by
          by_cases hmem : k.asBytes ∈ map.entries
          · rw [AList.size_insert_of_mem hmem]
            exact map.size_le
          · rw [AList.size_insert_of_notMem hmem]
            exact Nat.lt_of_not_le fun h => hfull ⟨hmem, h⟩ }

/-- A call is recorded where its key is there already or the map has room, and changes nothing
else. -/
theorem lookup_update (map : SocketMap) {call : HookCall} {k : ConnKey} (h : call.key = some k)
    (task : Task) (key : List UInt8) : (map.update call task).entries.lookup key =
      if key = k.asBytes ∧ (k.asBytes ∈ map.entries ∨ map.entries.size < maxEntries) then
        some (getProcessInfo task).asBytes
      else map.entries.lookup key := by
  unfold update
  split
  next hnone => rw [h] at hnone; cases hnone
  next k' hk' =>
    rw [h, Option.some.injEq] at hk'
    subst hk'
    -- a full map takes no new key
    by_cases hfull : k.asBytes ∉ map.entries ∧ maxEntries ≤ map.entries.size
    · rw [dif_pos hfull, if_neg fun hroom => hroom.2.elim hfull.1 hfull.2.not_gt]
    · have hroom : k.asBytes ∈ map.entries ∨ map.entries.size < maxEntries := by
        rwa [not_and_or, not_not, not_le] at hfull
      rw [dif_neg hfull]
      split_ifs with hkey
      · rw [hkey.1, AList.lookup_insert]
      · exact AList.lookup_insert_ne fun heq => hkey ⟨heq, hroom⟩

/-- The first call is recorded. -/
theorem lookup_update_empty {call : HookCall} {k : ConnKey} (h : call.key = some k) (task : Task)
    (key : List UInt8) : (empty.update call task).entries.lookup key =
      if key = k.asBytes then some (getProcessInfo task).asBytes else none := by
  have hroom : (empty.entries).size < maxEntries := by decide
  rw [lookup_update empty h]
  simp only [hroom, or_true, and_true]
  rfl

end SocketMap

end RustNet.Host.Ebpf
