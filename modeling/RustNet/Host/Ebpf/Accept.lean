import RustNet.Host.Ebpf.Tracker

/-!
# Accepted connections

The hook of `inet_csk_accept` runs when the function is entered. Its argument is the listening
socket, which has no remote end, and no other: the socket of the connection is what the function
returns. The entry is therefore the same for every connection that the socket accepts, and it is
not under a key that the tracker tries for any of them.

## Main definitions

* `AcceptedConnection`: a connection and the socket it was accepted on;
* `AcceptedConnection.Attributed`: the tracker finds the process that accepted it.

## Main results

* `AcceptedConnection.attributed_iff`: it does only for a remote end of zeros.
-/

namespace RustNet.Host.Ebpf

/-- An IPv4 connection that was accepted on a listening socket. -/
structure AcceptedConnection where
  listener : Sock
  localAddr : Ipv4Addr
  remoteAddr : Ipv4Addr
  remotePort : UInt16
  /-- A listening socket has no remote end. -/
  listening : listener.skcDaddr = unspecifiedV4 ∧ listener.skcDport = 0
  /-- It listens on the address of the connection, or on all. -/
  bound : listener.skcRcvSaddr = localAddr ∨ listener.skcRcvSaddr = unspecifiedV4

namespace AcceptedConnection

variable (conn : AcceptedConnection)

/-- The connection as its packets carry it. -/
def flow : Flow where
  addrs := .v4 conn.localAddr conn.remoteAddr
  session := .tcp conn.listener.skcNum conn.remotePort

/-- What the hook files the call under. -/
def recorded : Flow where
  addrs := .v4 conn.listener.skcRcvSaddr unspecifiedV4
  session := .tcp conn.listener.skcNum 0

/-- The map after the hook ran in a task. -/
def afterHook (map : SocketMap) (task : Task) : SocketMap :=
  map.update (.inetCskAccept conn.listener) task

/-- The tracker returns the process of the task. -/
def Attributed (map : SocketMap) (task : Task) : Prop :=
  find (conn.afterHook map task).toBpfMap conn.flow = some (.ofConnInfo (getProcessInfo task))

variable {conn} {map : SocketMap} {task : Task}

theorem key_inetCskAccept :
    (HookCall.inetCskAccept conn.listener).key = some (kernelKey conn.recorded) := by
  have hkey : (HookCall.inetCskAccept conn.listener).key =
      some (kernelKey (HookCall.inetCskAccept conn.listener).flow) := by
    apply congrArg some
    exact HookCall.key_eq_some rfl
  rw [hkey, HookCall.flow, conn.listening.1, conn.listening.2]
  rfl

/-- The tracker tries the key of the call only for a remote end of zeros. -/
theorem recorded_iff :
    conn.recorded = conn.flow ∨ conn.recorded = conn.flow.fromAny ↔
      conn.remoteAddr = unspecifiedV4 ∧ conn.remotePort = 0 := by
  simp only [recorded, flow, Flow.fromAny, Flow.mk.injEq, FlowAddrs.v4.injEq, Session.tcp.injEq]
  constructor
  · rintro (⟨⟨-, haddr⟩, -, hport⟩ | ⟨⟨-, haddr⟩, -, hport⟩)
    · exact ⟨haddr.symm, hport.symm⟩
    · exact ⟨haddr.symm, hport.symm⟩
  · rintro ⟨haddr, hport⟩
    rcases conn.bound with hbound | hbound
    · exact Or.inl ⟨⟨hbound, haddr.symm⟩, trivial, hport.symm⟩
    · exact Or.inr ⟨⟨hbound, haddr.symm⟩, trivial, hport.symm⟩

theorem find_eq_hits (map : BpfMap) : find map conn.flow =
    (hit map (kernelKey conn.flow)).or (hit map (kernelKey conn.flow.fromAny)) :=
  find_eq map conn.flow trivial

/-- Under a key that was free, only the call is found. -/
theorem hit_afterHook {flow : Flow} (hfree : hit map.toBpfMap (kernelKey flow) = none) :
    hit (conn.afterHook map task).toBpfMap (kernelKey flow) =
      if conn.recorded = flow ∧ map.entries.size < maxEntries then
        some (.ofConnInfo (getProcessInfo task))
      else none := by
  rw [hit_eq, Option.map_eq_none_iff] at hfree
  rw [hit_eq, afterHook, SocketMap.lookup_update map key_inetCskAccept]
  -- the hook files under the one flow it records, and only where there is room
  by_cases hflow : conn.recorded = flow
  · subst hflow
    have hnotMem : (kernelKey conn.recorded).asBytes ∉ map.entries := AList.lookup_eq_none.mp hfree
    simp only [hnotMem, false_or, true_and]
    split_ifs
    · rw [Option.map_some, ConnInfo.ofBytes_asBytes]
    · rw [hfree, Option.map_none]
  · have hkey : (kernelKey flow).asBytes ≠ (kernelKey conn.recorded).asBytes :=
      fun heq => hflow (kernelKey_inj (ConnKey.asBytes_inj heq)).symm
    rw [if_neg fun h => hkey h.1, if_neg fun h => hflow h.1, hfree, Option.map_none]

/-- Where nothing was recorded for a connection (`hnone`), its process is found after the hook
exactly if the remote address and port are zero and the map has room. The hook runs on the listening
socket, whose remote end is unset, so it records a flow without one. -/
theorem attributed_iff (conn : AcceptedConnection) (map : SocketMap) (task : Task)
    (hnone : find map.toBpfMap conn.flow = none) :
    conn.Attributed map task ↔
      conn.remoteAddr = unspecifiedV4 ∧ conn.remotePort = 0 ∧ map.entries.size < maxEntries := by
  rw [find_eq_hits, Option.or_eq_none_iff] at hnone
  rw [Attributed, find_eq_hits, hit_afterHook hnone.1, hit_afterHook hnone.2, ← and_assoc,
    ← recorded_iff]
  -- the recorded key is the one looked up first, or the one with the unspecified address
  by_cases hexact : conn.recorded = conn.flow ∧ map.entries.size < maxEntries
  · rw [if_pos hexact]
    exact iff_of_true rfl ⟨Or.inl hexact.1, hexact.2⟩
  · rw [if_neg hexact, Option.none_or]
    by_cases hany : conn.recorded = conn.flow.fromAny ∧ map.entries.size < maxEntries
    · rw [if_pos hany]
      exact iff_of_true rfl ⟨Or.inr hany.1, hany.2⟩
    · rw [if_neg hany]
      refine iff_of_false (fun h => by cases h) ?_
      rintro ⟨hflow | hflow, hroom⟩
      · exact hexact ⟨hflow, hroom⟩
      · exact hany ⟨hflow, hroom⟩

/-- A web server on all addresses accepts a connection from port 50000 of `10.0.0.2`. -/
def sampleAccepted : AcceptedConnection where
  listener := ⟨unspecifiedV4, unspecifiedV4, unspecifiedV6, unspecifiedV6, 80, 0⟩
  localAddr := .new 10 0 0 1
  remoteAddr := .new 10 0 0 2
  remotePort := 50000
  listening := ⟨rfl, rfl⟩
  bound := Or.inr rfl

/-- The server is not found. -/
theorem sampleAccepted_not_attributed :
    find SocketMap.empty.toBpfMap sampleAccepted.flow = none ∧
      ¬ sampleAccepted.Attributed .empty someTask := by
  refine ⟨rfl, fun h => ?_⟩
  have hnone : find (sampleAccepted.afterHook .empty someTask).toBpfMap sampleAccepted.flow = none :=
    rfl
  rw [Attributed, hnone] at h
  cases h

/-- The map is empty before the hook. -/
theorem attributed_iff_sample : sampleAccepted.Attributed .empty someTask ↔
    sampleAccepted.remoteAddr = unspecifiedV4 ∧ sampleAccepted.remotePort = 0 ∧
      SocketMap.empty.entries.size < maxEntries :=
  attributed_iff sampleAccepted .empty someTask rfl

end AcceptedConnection

end RustNet.Host.Ebpf
