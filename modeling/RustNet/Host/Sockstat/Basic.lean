import RustNet.Foundations.Offsets
import RustNet.Foundations.Text
import RustNet.Host.Procfs.Tables

/-!
# The sockets that sockstat lists

`build_process_map` of the FreeBSD lookup runs `sockstat` for each protocol and address family, and
reads the addresses and the process of each socket out of a line of words. An unspecified address
and an unspecified port are both printed as a star. `parse_address` knows the star of an address,
and takes it for that of an IPv4 socket. It does not know the star of a port.

## Main definitions

* `Ipv4Addr.fromStr`, `Ipv6Addr.fromStr`: the parsers of the standard library;
* `parseAddress`, `parseSockstatOutput`, `buildProcessMap`.

## Main results

* `lookup_buildProcessMap`: the map has under a key what the last line with it says.
-/

namespace RustNet

/-! ## Addresses in texts -/

/-- `read_number`: some digits, at most `maxDigits` of them. -/
def readNumber (radix maxDigits bound : ℕ) (allowZeroPrefix : Bool) (s : List Char) :
    Option (ℕ × List Char) := do
  let digits := s.takeWhile fun c => (Text.toDigit radix c).isSome
  guard (digits ≠ [] ∧ digits.length ≤ maxDigits)
  guard (allowZeroPrefix = true ∨ digits.length = 1 ∨ digits.head? ≠ some '0')
  let n ← digits.foldlM (Text.pushDigit radix) 0
  guard (n < bound)
  pure (n, s.drop digits.length)

/-- `read_given_char`: the rest behind the character, if the text starts with it. -/
def readGivenChar (c : Char) : List Char → Option (List Char)
  | d :: s => if d = c then some s else none
  | [] => none

/-- `read_ipv4_addr`: four numbers with dots between them. -/
def readIpv4Addr (s : List Char) : Option (Ipv4Addr × List Char) := do
  let (a, s) ← readNumber 10 3 256 false s
  let (b, s) ← readGivenChar '.' s >>= readNumber 10 3 256 false
  let (c, s) ← readGivenChar '.' s >>= readNumber 10 3 256 false
  let (d, s) ← readGivenChar '.' s >>= readNumber 10 3 256 false
  pure (.new (.ofNat a) (.ofNat b) (.ofNat c) (.ofNat d), s)

/-- `read_groups`: as many groups as there are, up to a limit. Two of them can be written as an IPv4
address, and then they are the last. -/
def readGroups (isFirst : Bool) : ℕ → List Char → List UInt16 × Bool × List Char
  | 0, s => ([], false, s)
  | limit + 1, s =>
    let start := if isFirst then some s else readGivenChar ':' s
    match guard (1 ≤ limit) >>= fun _ => start >>= readIpv4Addr with
    | some (v4, rest) =>
      ([be16 (v4.octet 0) (v4.octet 1), be16 (v4.octet 2) (v4.octet 3)], true, rest)
    | none =>
      match start >>= readNumber 16 4 65536 true with
      | some (group, rest) =>
        let (groups, ipv4, rest) := readGroups false limit rest
        (.ofNat group :: groups, ipv4, rest)
      | none => ([], false, s)

/-- The address with these eight groups. -/
def ofGroups : List UInt16 → Option Ipv6Addr
  | [a, b, c, d, e, f, g, h] => some (.new a b c d e f g h)
  | _ => none

/-- `FromStr for Ipv4Addr`: an address and nothing behind it. -/
def Ipv4Addr.fromStr (s : List Char) : Option Ipv4Addr :=
  match readIpv4Addr s with
  | some (addr, []) => some addr
  | _ => none

/-- `FromStr for Ipv6Addr`: eight groups, or fewer with two colons for the others. -/
def Ipv6Addr.fromStr (s : List Char) : Option Ipv6Addr :=
  match readGroups true 8 s with
  | (head, ipv4, rest) =>
    if head.length = 8 then if rest = [] then ofGroups head else none
    else if ipv4 then none
    else
      match rest with
      | ':' :: ':' :: rest =>
        match readGroups true (7 - head.length) rest with
        | (tail, _, []) =>
          ofGroups (head ++ List.replicate (8 - head.length - tail.length) 0 ++ tail)
        | _ => none
      | _ => none

example : Ipv6Addr.fromStr ['f', 'e', '8', '0', ':', ':', '1'] = some (.new 0xfe80 0 0 0 0 0 0 1) := by
  decide +kernel

namespace Host.Sockstat

/-- `str::rfind`: the text cut at the last occurrence of a character. -/
def splitLast (sep : Char) (s : List Char) : Option (List Char × List Char) :=
  if sep ∈ s then some ((s.rdropWhile (· ≠ sep)).dropLast, s.rtakeWhile (· ≠ sep)) else none

theorem splitLast_append {sep : Char} {before after : List Char} (h : sep ∉ after) :
    splitLast sep (before ++ sep :: after) = some (before, after) := by
  have hall : ∀ c ∈ after.reverse, decide (c ≠ sep) = true := fun c hc =>
    decide_eq_true fun heq => h (heq ▸ List.mem_reverse.mp hc)
  have hreverse : (before ++ sep :: after).reverse = after.reverse ++ sep :: before.reverse := by
    simp
  rw [splitLast, if_pos (by simp), List.rdropWhile, List.rtakeWhile, hreverse,
    List.dropWhile_append_of_pos hall, List.takeWhile_append_of_pos hall]
  simp

/-- `parse::<u16>`: decimal digits, possibly with a plus, of a number that fits. -/
def parsePort (s : List Char) : Option UInt16 := (Text.fromStrRadix 10 16 s).map UInt16.ofNat

/-- The address before the last colon: one of IPv6 if it has colons itself. -/
def parseIp (ip : List Char) : Option IpAddr :=
  if ':' ∈ ip then (Ipv6Addr.fromStr ip).map .v6 else (Ipv4Addr.fromStr ip).map .v4

/-- `parse_address`: a star for the address, an IPv6 address in brackets, or an IPv4 one; behind it
the port. -/
def parseAddress (addr : List Char) : Option SocketAddr :=
  if ['*', ':'] <+: addr then
    -- whatever the family of the socket
    (parsePort (addr.drop 2)).map fun port => ⟨.v4 ⟨Vector.replicate 4 0⟩, port⟩
  else if addr.head? = some '[' then
    if ']' ∈ addr then
      -- one byte is skipped behind the bracket
      (Offsets.split Char.utf8Size 1 (addr.dropWhile (· ≠ ']')).tail).bind fun rest =>
        (parsePort rest.2).bind fun port =>
          (Ipv6Addr.fromStr (addr.takeWhile (· ≠ ']')).tail).map fun ip => ⟨.v6 ip, port⟩
    else none
  else
    (splitLast ':' addr).bind fun parts =>
      (parsePort parts.2).bind fun port => (parseIp parts.1).map fun ip => ⟨ip, port⟩

/-! ## Listings -/

/-- One line of a listing: the key and the process to insert. -/
def parseLine (protocol : Protocol) (line : List Char) : Option (ConnectionKey × Process) := do
  let parts := Text.splitWhitespace line
  guard (7 ≤ parts.length)
  let command ← parts[1]?
  let pid ← parts[2]? >>= Text.fromStrRadix 10 32
  let localAddr ← parts[5]? >>= parseAddress
  let foreignAddr ← parts[6]? >>= parseAddress
  pure (⟨protocol, localAddr, foreignAddr⟩, (UInt32.ofNat pid, String.ofList command))

/-- The rows of a listing, below its header. -/
def listingRows (protocol : Protocol) (output : List Char) : List (ConnectionKey × Process) :=
  (Text.lines output).tail.filterMap (parseLine protocol)

/-- The rows of a listing that there may be. -/
def outputRows (protocol : Protocol) (output : Option (List Char)) :
    List (ConnectionKey × Process) :=
  output.elim [] (listingRows protocol)

/-- `parse_sockstat_output`. A command that fails lists nothing. -/
def parseSockstatOutput (protocol : Protocol) (output : Option (List Char)) :
    ConnectionProcessMap :=
  processMap (outputRows protocol output)

/-- `build_process_map`, from what the command prints for each protocol and family. -/
def buildProcessMap (sockstat : Table → Option (List Char)) : ConnectionProcessMap :=
  -- what is read later replaces what was read before
  [Table.tcp, .tcp6, .udp, .udp6].foldl
    (fun map table => parseSockstatOutput table.transport.protocol (sockstat table) ∪ map) ∅

/-- The rows of all listings, in the order they are read in. -/
def rows (sockstat : Table → Option (List Char)) : List (ConnectionKey × Process) :=
  [Table.tcp, .tcp6, .udp, .udp6].flatMap fun table =>
    outputRows table.transport.protocol (sockstat table)

theorem lookup_foldl_parse (sockstat : Table → Option (List Char)) (key : ConnectionKey)
    (tables : List Table) (map : ConnectionProcessMap) :
    (tables.foldl (fun map table =>
        parseSockstatOutput table.transport.protocol (sockstat table) ∪ map) map).lookup key =
      (lastOwner (tables.flatMap fun table =>
        outputRows table.transport.protocol (sockstat table)) key).or (map.lookup key) := by
  induction tables generalizing map with
  | nil => rfl
  | cons table tables ih =>
    -- a later table goes before the earlier ones
    have hunion : (parseSockstatOutput table.transport.protocol (sockstat table) ∪ map).lookup key =
        (lastOwner (outputRows table.transport.protocol (sockstat table)) key).or
          (map.lookup key) := by
      rw [← lookup_processMap, ← parseSockstatOutput]
      by_cases hmem : key ∈ parseSockstatOutput table.transport.protocol (sockstat table)
      · obtain ⟨p, hp⟩ := AList.mem_iff_exists_lookup.mp hmem
        rw [AList.lookup_union_left hmem, hp, Option.some_or]
      · rw [AList.lookup_union_right hmem, AList.lookup_eq_none.mpr hmem, Option.none_or]
    rw [List.foldl_cons, ih, hunion, List.flatMap_cons, lastOwner_append, Option.or_assoc]

/-- The last row of all listings decides. -/
theorem lookup_buildProcessMap (sockstat : Table → Option (List Char)) (key : ConnectionKey) :
    (buildProcessMap sockstat).lookup key = lastOwner (rows sockstat) key := by
  rw [buildProcessMap, lookup_foldl_parse, AList.lookup_empty, Option.or_none, rows]

end Host.Sockstat

end RustNet
