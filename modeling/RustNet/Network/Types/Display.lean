import RustNet.Foundations.Text
import RustNet.Network.Types.Basic

/-!
# Addresses as text

The text of an IPv4 address is told apart by its dots, and that of a socket address by its last
colon; an IPv6 socket address starts with a bracket.

## Main results

* `Ipv4Addr.display_inj`: an IPv4 address is determined by its text;
* `SocketAddr.eq_of_display_v4`: so is an IPv4 socket address, among all socket addresses;
* `SocketAddr.only_display`: the characters of all of them.
-/

namespace RustNet

theorem Ipv4Addr.toList_display (addr : Ipv4Addr) :
    addr.display.toList =
      ['.'].intercalate (addr.octets.toList.map fun octet => Nat.toDigits 10 octet.toNat) := by
  simp [Ipv4Addr.display, String.toList_intercalate, Function.comp_def]

/-- The text of an IPv4 address has digits and dots only. -/
theorem Ipv4Addr.notMem_display {c : Char} (hdigit : c.isDigit = false) (hdot : c ≠ '.')
    (addr : Ipv4Addr) : c ∉ addr.display.toList := by
  rw [addr.toList_display]
  generalize addr.octets.toList = octets
  induction octets with
  | nil => simp
  | cons octet octets ih =>
    cases octets with
    | nil => simpa using Text.notMem_toDigits hdigit octet.toNat
    | cons octet' octets =>
      simp only [List.map_cons, List.intercalate_cons_cons, List.mem_append, not_or,
        List.mem_singleton] at ih ⊢
      exact ⟨⟨Text.notMem_toDigits hdigit octet.toNat, hdot⟩, ih⟩

/-- An IPv4 address is determined by its text. -/
theorem Ipv4Addr.display_inj {addr addr' : Ipv4Addr} (h : addr.display = addr'.display) :
    addr = addr' := by
  have hchars := congrArg String.toList h
  rw [toList_display, toList_display] at hchars
  have hne : ∀ octets : Vector UInt8 4,
      octets.toList.map (fun octet => Nat.toDigits 10 octet.toNat) ≠ [] := fun octets hnil => by
    have hlength := congrArg List.length hnil
    simp at hlength
  -- no number has a dot in it, so that the dots separate the octets
  have hdots : ∀ octets : Vector UInt8 4,
      ∀ field ∈ octets.toList.map (fun octet => Nat.toDigits 10 octet.toNat), '.' ∉ field := by
    intro octets field hfield
    obtain ⟨octet, -, rfl⟩ := List.mem_map.mp hfield
    exact Text.notMem_toDigits (by decide) _
  have hfields := Text.eq_of_intercalate_separator (hne _) (hne _) (hdots _) (hdots _) hchars
  have hinj : Function.Injective fun octet : UInt8 => Nat.toDigits 10 octet.toNat :=
    fun _ _ heq => UInt8.toNat_inj.mp (Text.toDigits_inj heq)
  cases addr
  cases addr'
  rw [Ipv4Addr.mk.injEq]
  exact Vector.toList_inj.mp (hinj.list_map hfields)

theorem SocketAddr.toList_display_v4 (ip : Ipv4Addr) (port : UInt16) :
    (SocketAddr.display ⟨.v4 ip, port⟩).toList =
      ip.display.toList ++ ':' :: Nat.toDigits 10 port.toNat := by
  simp [SocketAddr.display]

/-- The text of a socket address has a colon. -/
theorem SocketAddr.colon_mem_display (addr : SocketAddr) : ':' ∈ addr.display.toList := by
  cases addr with
  | mk ip port => cases ip <;> simp [SocketAddr.display]

/-- Only an IPv4 socket address has the text of one, and it is determined by it. -/
theorem SocketAddr.eq_of_display_v4 {addr : SocketAddr} {ip : Ipv4Addr} {port : UInt16}
    (h : addr.display = SocketAddr.display ⟨.v4 ip, port⟩) : addr = ⟨.v4 ip, port⟩ := by
  have hchars := congrArg String.toList h
  obtain ⟨ip', port'⟩ := addr
  cases ip' with
  | v4 ip' =>
    rw [toList_display_v4, toList_display_v4] at hchars
    obtain ⟨hip, hport⟩ := Text.eq_of_append_separator (Text.notMem_toDigits (by decide) _)
      (Text.notMem_toDigits (by decide) _) hchars
    rw [Ipv4Addr.display_inj (String.toList_inj.mp hip),
      UInt16.toNat_inj.mp (Text.toDigits_inj hport)]
  | v6 ip' =>
    -- the other text has no bracket
    have hbracket : '[' ∈ (SocketAddr.display ⟨.v4 ip, port⟩).toList := by
      rw [← hchars]
      simp [SocketAddr.display]
    rw [toList_display_v4, List.mem_append, List.mem_cons] at hbracket
    rcases hbracket with hip | hcolon | hport
    · exact absurd hip (ip.notMem_display (by decide) (by decide))
    · exact absurd hcolon (by decide)
    · exact absurd hport (Text.notMem_toDigits (by decide) _)

/-! ## Characters -/

section Characters

variable {p : Char → Prop} (hdigit : ∀ d < 16, p d.digitChar) (hcolon : p ':') (hdot : p '.')

include hdigit

theorem Ipv4Addr.only_display (hdot : p '.') (addr : Ipv4Addr) : Text.Only p addr.display := by
  apply Text.Only.intercalate
  · intro c hc
    rw [List.mem_singleton.mp hc]
    exact hdot
  · intro part hpart
    obtain ⟨octet, -, rfl⟩ := List.mem_map.mp hpart
    exact Text.only_toString (fun d hd => hdigit d (by omega)) octet.toNat

theorem Ipv6Addr.only_displaySubslice (hcolon : p ':') (chunk : List UInt16) :
    Text.Only p (displaySubslice chunk) := by
  apply Text.Only.intercalate
  · intro c hc
    rw [List.mem_singleton.mp hc]
    exact hcolon
  · intro part hpart
    obtain ⟨segment, -, rfl⟩ := List.mem_map.mp hpart
    intro c hc
    rw [String.toList_ofList] at hc
    obtain ⟨d, hd, rfl⟩ := Text.mem_toDigits (by decide) hc
    exact hdigit d hd

include hcolon hdot

theorem Ipv6Addr.only_display (addr : Ipv6Addr) : Text.Only p addr.display := by
  unfold Ipv6Addr.display
  split
  · apply Text.Only.append _ (Ipv4Addr.only_display hdigit hdot _)
    have hf : p 'f' := hdigit 15 (by decide)
    simp [Text.Only, hcolon, hf]
  · dsimp only
    split
    · have hcolons : Text.Only p "::" := by simp [Text.Only, hcolon]
      exact ((Ipv6Addr.only_displaySubslice hdigit hcolon _).append hcolons).append
        (Ipv6Addr.only_displaySubslice hdigit hcolon _)
    · exact Ipv6Addr.only_displaySubslice hdigit hcolon _

/-- The text of a socket address has hexadecimal digits, colons, dots and brackets only. -/
theorem SocketAddr.only_display (hopen : p '[') (hclose : p ']') (addr : SocketAddr) :
    Text.Only p addr.display := by
  have hport : Text.Only p (toString addr.port.toNat) :=
    Text.only_toString (fun d hd => hdigit d (by omega)) _
  obtain ⟨ip, port⟩ := addr
  cases ip with
  | v4 ip =>
    have hsep : Text.Only p ":" := by simp [Text.Only, hcolon]
    exact ((ip.only_display hdigit hdot).append hsep).append hport
  | v6 ip =>
    have hbefore : Text.Only p "[" := by simp [Text.Only, hopen]
    have hsep : Text.Only p "]:" := by simp [Text.Only, hcolon, hclose]
    exact ((hbefore.append (ip.only_display hdigit hcolon hdot)).append hsep).append hport

end Characters

end RustNet
