import RustNet.Foundations.Blocks
import RustNet.Foundations.LittleEndian
import RustNet.Network.Types.Basic

/-!
# Addresses as bytes

The bytes of an address, in network order, the address of some bytes, and the addresses that are
treated apart.

## Main results

* `Ipv4Addr.fromOctets_bytes`, `Ipv6Addr.fromOctets_octets`: an address is read from its bytes;
* `Ipv4Addr.bytes_inj`, `Ipv6Addr.octets_inj`: it is determined by them.
-/

namespace RustNet

/-- `Ipv4Addr::octets`: the four bytes in the order of the network. -/
def Ipv4Addr.bytes (addr : Ipv4Addr) : List UInt8 := addr.octets.toList

/-- Octet `i` of the address, counted from the most significant one. -/
def Ipv4Addr.octet (addr : Ipv4Addr) (i : ℕ) : UInt8 := addr.bytes.getD i 0

/-- `Ipv4Addr::from` of four bytes; missing ones count as zero, so that the function is total. -/
def Ipv4Addr.fromOctets (bytes : List UInt8) : Ipv4Addr := ⟨Vector.ofFn fun i => bytes.getD i 0⟩

/-- `Ipv4Addr::new`: the address of four bytes, the most significant first. -/
def Ipv4Addr.new (a b c d : UInt8) : Ipv4Addr := .fromOctets [a, b, c, d]

@[simp]
theorem Ipv4Addr.length_bytes (addr : Ipv4Addr) : addr.bytes.length = 4 := by
  simp [Ipv4Addr.bytes]

@[simp]
theorem Ipv4Addr.fromOctets_bytes (addr : Ipv4Addr) : Ipv4Addr.fromOctets addr.bytes = addr := by
  cases addr with
  | mk octets =>
    rw [Ipv4Addr.fromOctets, Ipv4Addr.mk.injEq]
    ext i hi
    simp [Ipv4Addr.bytes]

theorem Ipv4Addr.bytes_inj {addr addr' : Ipv4Addr} (h : addr.bytes = addr'.bytes) :
    addr = addr' := by
  rw [← addr.fromOctets_bytes, ← addr'.fromOctets_bytes, h]

/-- `Ipv6Addr::new`: the address of eight segments, the most significant first. -/
def Ipv6Addr.new (a b c d e f g h : UInt16) : Ipv6Addr :=
  ⟨Vector.ofFn fun i => [a, b, c, d, e, f, g, h].getD i 0⟩

@[simp]
theorem Ipv6Addr.toList_segments_new (a b c d e f g h : UInt16) :
    (Ipv6Addr.new a b c d e f g h).segments.toList = [a, b, c, d, e, f, g, h] := rfl

/-- `Ipv6Addr::octets`: the sixteen bytes in the order of the network, two for each segment. -/
def Ipv6Addr.octets (addr : Ipv6Addr) : List UInt8 :=
  addr.segments.toList.flatMap fun segment => BigEndian.bytes 2 segment.toNat

/-- `Ipv6Addr::from` of sixteen bytes, each two of which make a segment. -/
def Ipv6Addr.fromOctets (bytes : List UInt8) : Ipv6Addr :=
  ⟨Vector.ofFn fun i => UInt16.ofNat (BigEndian.value (Blocks.block 2 i bytes))⟩

@[simp]
theorem Ipv6Addr.length_octets (addr : Ipv6Addr) : addr.octets.length = 16 := by
  simp [Ipv6Addr.octets, List.length_flatMap]

@[simp]
theorem Ipv6Addr.fromOctets_octets (addr : Ipv6Addr) : Ipv6Addr.fromOctets addr.octets = addr := by
  cases addr with
  | mk segments =>
    rw [Ipv6Addr.fromOctets, Ipv6Addr.mk.injEq]
    ext i hi
    -- the bytes of a segment are the block at its place
    have hblock : Blocks.block 2 i (Ipv6Addr.octets ⟨segments⟩) =
        BigEndian.bytes 2 segments[i].toNat := by
      rw [Ipv6Addr.octets, Blocks.block_flatMap (fun _ => BigEndian.length_bytes 2 _) _ (by simpa)]
      simp
    have hlt : segments[i].toNat < 256 ^ 2 := segments[i].toNat_lt
    rw [Vector.getElem_ofFn, hblock, BigEndian.value_bytes, Nat.mod_eq_of_lt hlt,
      UInt16.ofNat_toNat]

theorem Ipv6Addr.octets_inj {addr addr' : Ipv6Addr} (h : addr.octets = addr'.octets) :
    addr = addr' := by
  rw [← addr.fromOctets_octets, ← addr'.fromOctets_octets, h]

/-- The four-byte words of an IPv6 address. -/
def Ipv6Addr.word (addr : Ipv6Addr) (i : ℕ) : List UInt8 := Blocks.block 4 i addr.octets

theorem Ipv6Addr.length_word (addr : Ipv6Addr) {i : ℕ} (hi : i < 4) :
    (addr.word i).length = 4 := by
  apply Blocks.length_block
  rw [Ipv6Addr.length_octets]
  omega

/-- An address is made of its words. -/
theorem Ipv6Addr.flatMap_word (addr : Ipv6Addr) :
    (List.range 4).flatMap addr.word = addr.octets := by
  have h := Blocks.flatMap_block 4 4 addr.octets
  rw [List.take_of_length_le (by simp)] at h
  exact h

/-! ## Special addresses -/

/-- `IpAddr::is_loopback`: the network 127 of version 4, and the one such address of version 6. -/
def IpAddr.isLoopback : IpAddr → Bool
  | .v4 addr => decide (addr.octet 0 = 127)
  | .v6 addr => decide (addr = .new 0 0 0 0 0 0 0 1)

/-- `is_link_local`: the addresses that are valid on one link only, by their first bytes. -/
def IpAddr.isLinkLocal : IpAddr → Bool
  | .v4 addr => decide (addr.octet 0 = 169 ∧ addr.octet 1 = 254)
  | .v6 addr => decide (addr.segments.get 0 &&& 0xffc0 = 0xfe80)

end RustNet
