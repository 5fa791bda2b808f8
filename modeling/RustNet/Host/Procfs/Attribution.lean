import RustNet.Host.Procfs.Tables

/-!
# Attribution by procfs

Which sockets' connections the procfs lookup attributes to their processes. The packets of an IPv4
connection carry IPv4 addresses, whoever holds it, while the tables list it under mapped addresses
when an `AF_INET6` socket does; neither `parse_hex_address` nor the lookup undoes the mapping.

## Main results

* `attributes_of_not_isMapped`: the connection of every other socket is attributed to a process
  that has the socket open;
* `attributes_iff`: that of such a socket only where IPv4 sockets of its process happen to match.
-/

namespace RustNet.Host

namespace Machine

/-- The lookup of the connection whose packets carry the socket's addresses and ports returns a
process that has the socket open. -/
def Attributes (m : Machine) (s : Socket) : Prop :=
  ∀ conn, ConnectionKey.fromConnection conn = s.packetKey →
    ∃ p, (s.inode, p) ∈ m.descriptors ∧
      getProcessForConnection (buildProcessMap m.proc) conn = some p

/-- Some process has the socket open and holds, too, every socket that is listed under one of the
wildcard shapes of the connection; and there is such a socket. -/
def StandIn (m : Machine) (s : Socket) : Prop :=
  ∃ p, (s.inode, p) ∈ m.descriptors ∧
    (∃ l ∈ m.listings, l.socket.listedKey ∈ candidates s.packetKey) ∧
      ∀ l ∈ m.listings, l.socket.listedKey ∈ candidates s.packetKey →
        m.holder l.socket.inode = some p

/-- A socket that is listed under the addresses of its packets is found under them. -/
theorem attributes_of_not_isMapped {m : Machine} {l : Listing} (hl : l ∈ m.listings)
    (hs : ¬ l.socket.IsMapped) : m.Attributes l.socket := by
  intro conn hconn
  obtain ⟨p, hp⟩ := exists_holder hl
  refine ⟨p, mem_of_holder hp, getProcessForConnection_of_lookup ?_⟩
  rw [hconn, lookup_listed]
  exact ⟨l, hl, Socket.listedKey_of_not_isMapped hs, hp⟩

/-- A mapped socket is not listed under the addresses of its packets, nor is any other. -/
theorem lookup_of_isMapped {m : Machine} {l : Listing} (hl : l ∈ m.listings)
    (hs : l.socket.IsMapped) : (buildProcessMap m.proc).lookup l.socket.packetKey = none := by
  apply Option.eq_none_iff_forall_ne_some.mpr
  intro p hp
  obtain ⟨l', hl', hkey, -⟩ := lookup_listed.mp hp
  obtain ⟨localIp, remoteIp, he⟩ := hs
  by_cases hs' : l'.socket.IsMapped
  -- the mapped addresses are IPv6 ones
  · obtain ⟨localIp', remoteIp', he'⟩ := hs'
    have hip := congrArg (fun key => key.localAddr.ip) hkey
    simp [Socket.listedKey, Socket.packetKey, he, he', Endpoints.listedIps,
      Endpoints.packetIps] at hip
  -- no other socket has the same addresses
  · rw [Socket.listedKey_of_not_isMapped hs'] at hkey
    rw [List.inj_on_of_nodup_map m.distinct hl' hl hkey] at hs'
    exact hs' ⟨localIp, remoteIp, he⟩

/-- The fallback over the map built from the files. -/
theorem fallbackLookup_listed {m : Machine} {s : Socket} {p : Process} :
    fallbackLookup (buildProcessMap m.proc) s.packetKey = some p ↔
      (∃ l ∈ m.listings, l.socket.listedKey ∈ candidates s.packetKey) ∧
        ∀ l ∈ m.listings, l.socket.listedKey ∈ candidates s.packetKey →
          m.holder l.socket.inode = some p := by
  have hprotocol : s.packetKey.protocol = .tcp ∨ s.packetKey.protocol = .udp := by
    cases htransport : s.transport <;> simp [Socket.packetKey, htransport, Transport.protocol]
  rw [fallbackLookup_eq_some]
  constructor
  -- the candidates that are listed agree on the process
  · rintro ⟨-, ⟨candidate, hcandidate, hfound⟩, hagree⟩
    obtain ⟨l, hl, rfl, -⟩ := lookup_listed.mp hfound
    refine ⟨⟨l, hl, hcandidate⟩, fun l' hl' hcandidate' => ?_⟩
    obtain ⟨q, hq⟩ := exists_holder hl'
    rw [hq, hagree _ hcandidate' q (lookup_listed.mpr ⟨l', hl', rfl, hq⟩)]
  · rintro ⟨⟨l, hl, hcandidate⟩, hholder⟩
    refine ⟨hprotocol, ⟨_, hcandidate, lookup_listed.mpr ⟨l, hl, rfl, hholder l hl hcandidate⟩⟩, ?_⟩
    intro candidate hcandidate' q hq
    obtain ⟨l', hl', rfl, hq'⟩ := lookup_listed.mp hq
    rw [hholder l' hl' hcandidate', Option.some.injEq] at hq'
    exact hq'.symm

/-- A connection with the key of a socket's packets. -/
theorem exists_connection (s : Socket) :
    ∃ conn, ConnectionKey.fromConnection conn = s.packetKey :=
  ⟨Connection.new s.transport.protocol s.packetKey.localAddr s.packetKey.remoteAddr .udp ⟨0⟩ ⟨0⟩,
    rfl⟩

/-- The connection of a socket is attributed to its process exactly when the socket is not an
`AF_INET6` one with an IPv4 connection, or other sockets of its process stand in for it. The socket
is one that the tables of the machine list (`hl`). The tables print the mapped address of such a
connection, the packets carry the plain one, and the lookup compares them as they are. -/
theorem attributes_iff {m : Machine} {l : Listing} (hl : l ∈ m.listings) :
    m.Attributes l.socket ↔ ¬ l.socket.IsMapped ∨ m.StandIn l.socket := by
  by_cases hs : l.socket.IsMapped
  -- a mapped socket is listed under another key, so that only the fallback finds it
  · have hfallback : ∀ conn, ConnectionKey.fromConnection conn = l.socket.packetKey →
        getProcessForConnection (buildProcessMap m.proc) conn =
          fallbackLookup (buildProcessMap m.proc) l.socket.packetKey := by
      intro conn hconn
      rw [← hconn]
      apply getProcessForConnection_of_lookup_none
      rw [hconn, lookup_of_isMapped hl hs]
    constructor
    · intro h
      obtain ⟨conn, hconn⟩ := exists_connection l.socket
      obtain ⟨p, hp, hfound⟩ := h conn hconn
      rw [hfallback conn hconn] at hfound
      exact Or.inr ⟨p, hp, fallbackLookup_listed.mp hfound⟩
    · rintro (hs' | ⟨p, hp, hstand⟩)
      · exact absurd hs hs'
      · intro conn hconn
        refine ⟨p, hp, ?_⟩
        rw [hfallback conn hconn]
        exact fallbackLookup_listed.mpr hstand
  · exact iff_of_true (attributes_of_not_isMapped hl hs) (Or.inl hs)

/-! ## One dual-stack socket -/

/-- A connection of `10.0.0.1` to port 443 of `10.0.0.2`, held by an `AF_INET6` socket. -/
def dualStackListing : Listing where
  socket :=
    { transport := .tcp
      endpoints := .mapped (.new 10 0 0 1) (.new 10 0 0 2)
      localPort := 40000
      remotePort := 443
      inode := 5000 }
  slot := (4, decimalWord 0)
  localBlanks := 0
  remoteBlanks := 0
  between := List.replicate 6 (0, decimalWord 0)
  length_between := rfl
  inodeBlanks := 0
  rest := []
  trailing := 0

/-- A process that has this socket open, and no other socket. -/
def dualStackMachine : Machine where
  entries := [.process
    { pid := 100, pid_ne_zero := by decide, comm := some ['j', 'a', 'v', 'a', '\n']
      fds := some [.socket 5000] }]
  listings := [dualStackListing]
  header := fun _ => []
  distinct := List.nodup_singleton _
  owned := by
    intro l hl
    rw [List.mem_singleton.mp hl]
    exact ⟨_, List.mem_singleton.mpr rfl⟩

/-- The connection the parser makes of its packets. -/
def dualStackConnection : Connection :=
  Connection.new .tcp (.lan 1 40000) (.lan 2 443) (.tcp .established) ⟨0⟩ ⟨0⟩

/-- Nothing is found under the IPv4 addresses. -/
theorem dualStack_not_attributed : ¬ dualStackMachine.Attributes dualStackListing.socket := by
  intro h
  obtain ⟨p, -, hfound⟩ := h dualStackConnection (by decide +kernel)
  have hnone : getProcessForConnection (buildProcessMap dualStackMachine.proc)
      dualStackConnection = none := by
    decide +kernel
  rw [hnone] at hfound
  cases hfound

theorem dualStack_attributes_iff : dualStackMachine.Attributes dualStackListing.socket ↔
    ¬ dualStackListing.socket.IsMapped ∨ dualStackMachine.StandIn dualStackListing.socket :=
  attributes_iff (List.mem_singleton.mpr rfl)

end Machine

end RustNet.Host
