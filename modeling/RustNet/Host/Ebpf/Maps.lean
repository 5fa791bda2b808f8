import Mathlib.Data.List.GetD
import RustNet.Foundations.Table
import RustNet.Network.Types.Octets

/-!
# The socket map

The keys and values of the map that the BPF program shares with the process lookup. Both sides
declare them as packed structures with the same fields, so on a little-endian machine one function
gives the bytes of either.

## Main results

* `ConnKey.asBytes_inj`: different keys have different bytes;
* `ConnInfo.ofBytes_asBytes`: a value is read as it was written.
-/

namespace RustNet.Host.Ebpf

/-! ## Keys -/

/-- `AF_INET`, the family in the key of an IPv4 flow. -/
def afInet : UInt8 := 2

/-- `AF_INET6`, the family in the key of an IPv6 flow. -/
def afInet6 : UInt8 := 10

/-- `IPPROTO_ICMP`, the protocol number of an ICMP echo over IPv4. -/
def ipprotoIcmp : UInt8 := 1

/-- `IPPROTO_TCP`, the protocol number of TCP. -/
def ipprotoTcp : UInt8 := 6

/-- `IPPROTO_UDP`, the protocol number of UDP. -/
def ipprotoUdp : UInt8 := 17

/-- `IPPROTO_ICMPV6`, the protocol number of an ICMP echo over IPv6. -/
def ipprotoIcmpv6 : UInt8 := 58

/-- `ConnKey`, and `struct conn_key`: the key of an entry as both sides lay it out. The words of an
address are as they lie in memory. -/
structure ConnKey where
  /-- IPv4 uses only the first word, IPv6 all four. -/
  saddr : Vector UInt32 4
  /-- IPv4 uses only the first word, IPv6 all four. -/
  daddr : Vector UInt32 4
  sport : UInt16
  dport : UInt16
  proto : UInt8
  family : UInt8
deriving DecidableEq

/-- The bytes of a 32-bit number. -/
def bytes32 (x : UInt32) : List UInt8 := LittleEndian.bytes 4 x.toNat

/-- The bytes of a 16-bit number. -/
def bytes16 (x : UInt16) : List UInt8 := LittleEndian.bytes 2 x.toNat

/-- `ConnKey::as_bytes`: the fields one after the other, without padding, on a little-endian
machine. -/
def ConnKey.asBytes (key : ConnKey) : List UInt8 :=
  key.saddr.toList.flatMap bytes32 ++ (key.daddr.toList.flatMap bytes32 ++
    (bytes16 key.sport ++ (bytes16 key.dport ++ [key.proto, key.family])))

theorem ofNat_value_bytes32 (x : UInt32) : UInt32.ofNat (LittleEndian.value (bytes32 x)) = x := by
  have hlt : x.toNat < 256 ^ 4 := x.toNat_lt
  rw [bytes32, LittleEndian.value_bytes, Nat.mod_eq_of_lt hlt, UInt32.ofNat_toNat]

theorem ofNat_value_bytes16 (x : UInt16) : UInt16.ofNat (LittleEndian.value (bytes16 x)) = x := by
  have hlt : x.toNat < 256 ^ 2 := x.toNat_lt
  rw [bytes16, LittleEndian.value_bytes, Nat.mod_eq_of_lt hlt, UInt16.ofNat_toNat]

theorem bytes32_inj : Function.Injective bytes32 := by
  intro x y h
  rw [← ofNat_value_bytes32 x, h, ofNat_value_bytes32]

theorem bytes16_inj : Function.Injective bytes16 := by
  intro x y h
  rw [← ofNat_value_bytes16 x, h, ofNat_value_bytes16]

theorem length_flatMap_bytes32 (words : Vector UInt32 4) :
    (words.toList.flatMap bytes32).length = 16 := by
  simp [List.length_flatMap, bytes32]

theorem flatMap_bytes32_inj {words words' : Vector UInt32 4}
    (h : words.toList.flatMap bytes32 = words'.toList.flatMap bytes32) : words = words' :=
  Vector.toList_inj.mp <| Blocks.flatMap_inj (fun _ => LittleEndian.length_bytes 4 _) bytes32_inj
    (by simp) h

@[simp]
theorem ConnKey.length_asBytes (key : ConnKey) : key.asBytes.length = 38 := by
  simp [asBytes, bytes32, bytes16, List.length_flatMap]

/-- Different keys have different bytes. -/
theorem ConnKey.asBytes_inj {key key' : ConnKey} (h : key.asBytes = key'.asBytes) :
    key = key' := by
  -- the fields have fixed widths, so the bytes are cut in the same places
  obtain ⟨hsaddr, h⟩ := List.append_inj h (by rw [length_flatMap_bytes32, length_flatMap_bytes32])
  obtain ⟨hdaddr, h⟩ := List.append_inj h (by rw [length_flatMap_bytes32, length_flatMap_bytes32])
  obtain ⟨hsport, h⟩ := List.append_inj h (by simp [bytes16])
  obtain ⟨hdport, h⟩ := List.append_inj h (by simp [bytes16])
  simp only [List.cons.injEq, and_true] at h
  cases key
  cases key'
  simp only [ConnKey.mk.injEq]
  exact ⟨flatMap_bytes32_inj hsaddr, flatMap_bytes32_inj hdaddr, bytes16_inj hsport,
    bytes16_inj hdport, h⟩

/-! ## Values -/

/-- `ConnInfo`, and `struct conn_info`: what a hook records of the process. -/
structure ConnInfo where
  pid : UInt32
  uid : UInt32
  comm : Vector UInt8 16
  timestamp : UInt64

/-- The bytes the BPF program stores. -/
def ConnInfo.asBytes (info : ConnInfo) : List UInt8 :=
  bytes32 info.pid ++ (bytes32 info.uid ++ (info.comm.toList ++
    LittleEndian.bytes 8 info.timestamp.toNat))

/-- The structure that `transmute` makes of the bytes. -/
def ConnInfo.ofBytes (bytes : List UInt8) : ConnInfo where
  pid := UInt32.ofNat (LittleEndian.value (bytes.take 4))
  uid := UInt32.ofNat (LittleEndian.value ((bytes.drop 4).take 4))
  comm := Vector.ofFn fun i => (bytes.drop 8).getD i 0
  timestamp := UInt64.ofNat (LittleEndian.value ((bytes.drop 24).take 8))

@[simp]
theorem ConnInfo.length_asBytes (info : ConnInfo) : info.asBytes.length = 32 := by
  simp [asBytes, bytes32]

theorem ofNat_value_bytes64 (x : UInt64) :
    UInt64.ofNat (LittleEndian.value (LittleEndian.bytes 8 x.toNat)) = x := by
  have hlt : x.toNat < 256 ^ 8 := x.toNat_lt
  rw [LittleEndian.value_bytes, Nat.mod_eq_of_lt hlt, UInt64.ofNat_toNat]

/-- The last eight bytes are the time stamp. -/
theorem ConnInfo.drop_asBytes (info : ConnInfo) :
    (info.asBytes.drop 24).take 8 = LittleEndian.bytes 8 info.timestamp.toNat := by
  have hsplit : info.asBytes = (bytes32 info.pid ++ bytes32 info.uid ++ info.comm.toList) ++
      LittleEndian.bytes 8 info.timestamp.toNat := by
    simp [asBytes]
  rw [hsplit, List.drop_left' (by simp [bytes32]), List.take_of_length_le (by simp)]

/-- A value is read as it was written. -/
theorem ConnInfo.ofBytes_asBytes (info : ConnInfo) : ConnInfo.ofBytes info.asBytes = info := by
  -- the name stands behind the two numbers, each of four bytes
  have hcomm : (Vector.ofFn fun i => (info.asBytes.drop 8).getD i 0 : Vector UInt8 16) =
      info.comm := by
    have hdrop : info.asBytes.drop 8 =
        info.comm.toList ++ LittleEndian.bytes 8 info.timestamp.toNat := by
      rw [asBytes, ← List.append_assoc]
      exact List.drop_left' (by simp [bytes32])
    apply Vector.ext
    intro i hi
    rw [Vector.getElem_ofFn, hdrop, List.getD_append _ _ _ _ (by simpa using hi)]
    simp [hi]
  have hpid : info.asBytes.take 4 = bytes32 info.pid := List.take_left' (by simp [bytes32])
  have huid : (info.asBytes.drop 4).take 4 = bytes32 info.uid := by
    rw [asBytes, List.drop_left' (by simp [bytes32]), List.take_left' (by simp [bytes32])]
  rw [ConnInfo.ofBytes, hpid, huid, hcomm, info.drop_asBytes, ofNat_value_bytes32,
    ofNat_value_bytes32, ofNat_value_bytes64]

/-- `ProcessInfo`, with the bytes of the name in place of the text they are decoded to. -/
structure ProcessInfo where
  pid : UInt32
  uid : UInt32
  comm : List UInt8
  timestamp : UInt64

/-- `From<ConnInfo> for ProcessInfo`: the name ends at the first zero byte. -/
def ProcessInfo.ofConnInfo (info : ConnInfo) : ProcessInfo where
  pid := info.pid
  uid := info.uid
  comm := info.comm.toList.takeWhile fun byte => byte ≠ 0
  timestamp := info.timestamp

/-! ## The map -/

/-- A BPF hash map from keys of 38 bytes to values of 32. -/
structure BpfMap where
  entries : AList fun _ : List UInt8 => List UInt8
  /-- The kernel stores values of the declared size only. -/
  length_value : ∀ key value, entries.lookup key = some value → value.length = 32

/-- `MapReader::lookup_connection`: the process under a key. A value of another size than 32 bytes
is an error. -/
def lookupConnection (map : BpfMap) (key : ConnKey) : Except String (Option ProcessInfo) :=
  match map.entries.lookup key.asBytes with
  | some valueBytes =>
    if valueBytes.length ≠ 32 then
      .error ("Invalid map value size: expected 32, got " ++ toString valueBytes.length)
    else .ok (some (.ofConnInfo (.ofBytes valueBytes)))
  | none => .ok none

/-- The size of a value is never wrong. -/
theorem lookupConnection_eq (map : BpfMap) (key : ConnKey) :
    lookupConnection map key = .ok ((map.entries.lookup key.asBytes).map fun valueBytes =>
      .ofConnInfo (.ofBytes valueBytes)) := by
  unfold lookupConnection
  cases hvalue : map.entries.lookup key.asBytes with
  | none => rfl
  | some valueBytes => simp [map.length_value _ _ hvalue]

end RustNet.Host.Ebpf
