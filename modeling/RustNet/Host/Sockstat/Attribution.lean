import RustNet.Host.Sockstat.Basic

/-!
# Attribution by sockstat

Which sockets of a listing the lookup finds again. A listening socket has no remote end, and a UDP
socket that is not connected neither: `sockstat` prints a star for the port, and the line is
skipped. An IPv6 socket with an unspecified address is filed under the unspecified address of IPv4,
where no connection of it is looked for.

## Main definitions

* `Listing`: what `sockstat` prints of some sockets;
* `Listing.Attributes`: every connection that matches a socket is attributed to its owner.

## Main results

* `Listing.attributes_iff_starless`: they are exactly if the listing has no star but for the address
  of an IPv4 socket.
-/

namespace RustNet.Host.Sockstat

/-! ## What is printed of a socket -/

/-- A text without stars, brackets and blanks. -/
def Plain (text : List Char) : Prop :=
  ∀ c ∈ text, c ∉ ['*', '[', ']'] ∧ Text.isWhitespace c = false

/-- An address as it is printed: a star for the unspecified one, and for another a text that the
standard library reads as it, which IPv6 ones have in brackets or without. -/
inductive PrintedIp
  | anyInet
  | anyInet6
  | inet (ip : Ipv4Addr) (text : List Char) (read : Ipv4Addr.fromStr text = some ip)
      (plain : Plain text) (colon : ':' ∉ text)
  | inet6 (ip : Ipv6Addr) (text : List Char) (bracketed : Bool)
      (specified : ip ≠ ⟨Vector.replicate 8 0⟩) (read : Ipv6Addr.fromStr text = some ip)
      (plain : Plain text) (colon : ':' ∈ text)

namespace PrintedIp

/-- The address of the socket. -/
def ip : PrintedIp → IpAddr
  | anyInet => .v4 ⟨Vector.replicate 4 0⟩
  | anyInet6 => .v6 ⟨Vector.replicate 8 0⟩
  | inet ip .. => .v4 ip
  | inet6 ip .. => .v6 ip

/-- The address that is read. -/
def readIp : PrintedIp → IpAddr
  | anyInet6 => .v4 ⟨Vector.replicate 4 0⟩
  | printed => printed.ip

def isInet6 : PrintedIp → Bool
  | anyInet | inet .. => false
  | anyInet6 | inet6 .. => true

def text : PrintedIp → List Char
  | anyInet | anyInet6 => ['*']
  | inet _ text .. => text
  | inet6 _ text bracketed .. => if bracketed then '[' :: text ++ [']'] else text

theorem readIp_eq {printed : PrintedIp} (h : printed ≠ anyInet6) : printed.readIp = printed.ip := by
  cases printed with
  | anyInet6 => exact absurd rfl h
  | _ => rfl

/-- The unspecified address of IPv6 is never read. -/
theorem readIp_ne (printed : PrintedIp) : printed.readIp ≠ .v6 ⟨Vector.replicate 8 0⟩ := by
  cases printed with
  | inet6 ip text bracketed specified => exact fun h => specified (IpAddr.v6.inj h)
  | _ => exact fun h => by cases h

theorem text_plain (printed : PrintedIp) {c : Char} (h : c ∈ printed.text) :
    Text.isWhitespace c = false := by
  cases printed with
  | anyInet | anyInet6 =>
    rw [List.mem_singleton.mp h]
    decide
  | inet ip text read plain => exact (plain c h).2
  | inet6 ip text bracketed specified read plain =>
    -- brackets are no white space either
    cases bracketed with
    | false => exact (plain c h).2
    | true =>
      have h : c ∈ '[' :: text ++ [']'] := h
      simp only [List.cons_append, List.mem_cons, List.mem_append, List.not_mem_nil,
        or_false] at h
      rcases h with rfl | h | rfl
      · decide
      · exact (plain c h).2
      · decide

end PrintedIp

/-- A port as it is printed. -/
def portText (port : UInt16) : List Char := if port = 0 then ['*'] else Nat.toDigits 10 port.toNat

/-- One end of a socket. -/
structure End where
  ip : PrintedIp
  port : UInt16

def End.addr (e : End) : SocketAddr := ⟨e.ip.ip, e.port⟩

def End.text (e : End) : List Char := e.ip.text ++ ':' :: portText e.port

theorem colon_notMem_portText (port : UInt16) : ':' ∉ portText port := by
  rw [portText]
  split_ifs
  · decide
  · exact Text.notMem_toDigits (by decide) port.toNat

/-- A star is no port. -/
theorem parsePort_portText (port : UInt16) :
    parsePort (portText port) = if port = 0 then none else some port := by
  rw [parsePort, portText]
  split_ifs
  · rfl
  · rw [Text.fromStrRadix_toDigits port.toNat_lt, Option.map_some, UInt16.ofNat_toNat]

theorem parseAddress_any (port : List Char) :
    parseAddress ('*' :: ':' :: port) =
      (parsePort port).map fun port => ⟨.v4 ⟨Vector.replicate 4 0⟩, port⟩ := by
  rw [parseAddress, if_pos (by simp)]
  rfl

theorem parseAddress_bracketed {ip port : List Char} (h : ']' ∉ ip) :
    parseAddress ('[' :: ip ++ ']' :: ':' :: port) =
      (parsePort port).bind fun port => (Ipv6Addr.fromStr ip).map fun ip => ⟨.v6 ip, port⟩ := by
  -- the first closing bracket is the one behind the address
  have hplain : ∀ c ∈ '[' :: ip, decide (c ≠ ']') = true := by
    intro c hc
    rcases List.mem_cons.mp hc with rfl | hc
    · rfl
    · exact decide_eq_true fun heq => h (heq ▸ hc)
  have htake : ('[' :: ip ++ ']' :: ':' :: port).takeWhile (· ≠ ']') = '[' :: ip := by
    rw [List.takeWhile_append_of_pos hplain]
    simp
  have hdrop : ('[' :: ip ++ ']' :: ':' :: port).dropWhile (· ≠ ']') = ']' :: ':' :: port := by
    rw [List.dropWhile_append_of_pos hplain]
    simp
  have hcut : Offsets.split Char.utf8Size 1 (':' :: port) = some ([':'], port) :=
    Offsets.split_append (fun c => c.utf8Size_pos) [':'] port
  rw [parseAddress, if_neg (by simp), if_pos (by simp), if_pos (by simp), htake, hdrop,
    List.tail_cons, hcut]
  rfl

/-- Without a star or a bracket at the start, the last colon counts. -/
theorem parseAddress_bare {ip port : List Char} (hplain : Plain ip) (h : ':' ∉ port) :
    parseAddress (ip ++ ':' :: port) =
      (parsePort port).bind fun port => (parseIp ip).map fun ip => ⟨ip, port⟩ := by
  -- the text begins with none of the characters that are treated apart
  have hhead : ∀ c, (ip ++ ':' :: port).head? = some c → c ∉ ['*', '[', ']'] := by
    intro c hc
    cases ip with
    | nil =>
      rw [← Option.some.inj hc]
      decide
    | cons d ip =>
      rw [← Option.some.inj hc]
      exact (hplain d List.mem_cons_self).1
  have hstar : ¬ ['*', ':'] <+: ip ++ ':' :: port := by
    rintro ⟨rest, hrest⟩
    exact hhead '*' (by rw [← hrest]; rfl) (by simp)
  have hopen : (ip ++ ':' :: port).head? ≠ some '[' := fun hc => hhead '[' hc (by simp)
  rw [parseAddress, if_neg hstar, if_neg hopen, splitLast_append h]
  rfl

theorem portText_plain {port : UInt16} {c : Char} (h : c ∈ portText port) :
    Text.isWhitespace c = false := by
  rw [portText] at h
  split at h
  · rw [List.mem_singleton.mp h]
    decide
  · exact (Text.toDigits_plain h).1

/-- What `parse_address` makes of one end. -/
theorem parseAddress_text (e : End) :
    parseAddress e.text = if e.port = 0 then none else some ⟨e.ip.readIp, e.port⟩ := by
  obtain ⟨ip, port⟩ := e
  have hport := parsePort_portText port
  cases ip with
  | anyInet =>
    show parseAddress ('*' :: ':' :: portText port) = _
    rw [parseAddress_any, hport]
    split_ifs <;> rfl
  | anyInet6 =>
    show parseAddress ('*' :: ':' :: portText port) = _
    rw [parseAddress_any, hport]
    split_ifs <;> rfl
  -- the last colon divides the address from the port
  | inet ip text read plain colon =>
    show parseAddress (text ++ ':' :: portText port) = _
    rw [parseAddress_bare plain (colon_notMem_portText port), hport, parseIp, if_neg colon, read]
    split_ifs <;> rfl
  | inet6 ip text bracketed specified read plain colon =>
    cases bracketed with
    | false =>
      show parseAddress (text ++ ':' :: portText port) = _
      rw [parseAddress_bare plain (colon_notMem_portText port), hport, parseIp, if_pos colon, read]
      split_ifs <;> rfl
    | true =>
      -- the bracket ends the address, since the text has none
      have hclose : ']' ∉ text := fun hc => (plain _ hc).1 (by simp)
      have htext : End.text ⟨.inet6 ip text true specified read plain colon, port⟩ =
          '[' :: text ++ ']' :: ':' :: portText port := by
        simp [End.text, PrintedIp.text]
      rw [htext, parseAddress_bracketed hclose, hport, read]
      split_ifs <;> rfl

/-- The text of an end as a word. -/
def End.word (e : End) : Text.Word where
  chars := e.text
  chars_ne_nil := by simp [End.text]
  not_isWhitespace := by
    intro c hc
    rcases List.mem_append.mp hc with hc | hc
    · exact e.ip.text_plain hc
    · rcases List.mem_cons.mp hc with rfl | hc
      · decide
      · exact portText_plain hc

/-- A line of a listing: a socket, its process and the blanks. -/
structure Row where
  transport : Transport
  localEnd : End
  foreignEnd : End
  sameFamily : localEnd.ip.isInet6 = foreignEnd.ip.isInet6
  pid : UInt32
  user : ℕ × Text.Word
  command : ℕ × Text.Word
  fd : ℕ × Text.Word
  proto : ℕ × Text.Word
  pidBlanks : ℕ
  localBlanks : ℕ
  foreignBlanks : ℕ
  trailing : ℕ

namespace Row

/-- The process that has the socket open. -/
def owner (row : Row) : Process := (row.pid, String.ofList row.command.2.chars)

/-- The protocol and the addresses of the socket. -/
def key (row : Row) : ConnectionKey where
  protocol := row.transport.protocol
  localAddr := row.localEnd.addr
  remoteAddr := row.foreignEnd.addr

/-- The columns of the line. -/
def columns (row : Row) : List (ℕ × Text.Word) :=
  [row.user, row.command, (row.pidBlanks, decimalWord row.pid.toNat), row.fd, row.proto,
    (row.localBlanks, row.localEnd.word), (row.foreignBlanks, row.foreignEnd.word)]

/-- The text of the line. -/
def line (row : Row) : List Char := Text.unwords row.columns row.trailing

/-- The listing with the socket. -/
def table (row : Row) : Table :=
  match row.transport, row.localEnd.ip.isInet6 with
  | .tcp, false => .tcp
  | .tcp, true => .tcp6
  | .udp, false => .udp
  | .udp, true => .udp6

/-- There is no star in the line, but for the address of an IPv4 socket. -/
def Starless (row : Row) : Prop :=
  row.localEnd.port ≠ 0 ∧ row.foreignEnd.port ≠ 0 ∧
    row.localEnd.ip ≠ .anyInet6 ∧ row.foreignEnd.ip ≠ .anyInet6

/-- The key that the line is filed under. -/
def readKey (row : Row) : Option ConnectionKey :=
  if row.localEnd.port = 0 ∨ row.foreignEnd.port = 0 then none
  else some
    { protocol := row.transport.protocol
      localAddr := ⟨row.localEnd.ip.readIp, row.localEnd.port⟩
      remoteAddr := ⟨row.foreignEnd.ip.readIp, row.foreignEnd.port⟩ }

theorem transport_table (row : Row) : row.table.transport = row.transport := by
  unfold table
  split <;> simp_all [Table.transport]

/-- A line is read as a row, or as none. -/
theorem parseLine_line (row : Row) :
    parseLine row.transport.protocol row.line = row.readKey.map (·, row.owner) := by
  have hcommand : (row.columns.map fun w => w.2.chars)[1]? = some row.command.2.chars := rfl
  have hpid : (row.columns.map fun w => w.2.chars)[2]? = some (Nat.toDigits 10 row.pid.toNat) := rfl
  have hlocal : (row.columns.map fun w => w.2.chars)[5]? = some row.localEnd.text := rfl
  have hforeign : (row.columns.map fun w => w.2.chars)[6]? = some row.foreignEnd.text := rfl
  have hlength : 7 ≤ (row.columns.map fun w => w.2.chars).length := le_refl 7
  simp only [parseLine, line, Text.splitWhitespace_unwords, hcommand, hpid, hlocal, hforeign,
    hlength, Option.bind_eq_bind, Option.bind_some, parseAddress_text,
    Text.fromStrRadix_toDigits row.pid.toNat_lt, guard, if_true, Option.pure_def]
  -- a port of zero is written as a star, which is no number
  by_cases hl : row.localEnd.port = 0
  · simp [readKey, hl]
  by_cases hf : row.foreignEnd.port = 0
  · simp [readKey, hl, hf]
  · simp [readKey, hl, hf, owner]

/-- What a line without stars is filed under. -/
theorem readKey_of_starless {row : Row} (h : row.Starless) : row.readKey = some row.key := by
  obtain ⟨hl, hf, hlip, hfip⟩ := h
  rw [readKey, if_neg (not_or.mpr ⟨hl, hf⟩), PrintedIp.readIp_eq hlip, PrintedIp.readIp_eq hfip]
  rfl

/-- Nothing is filed under a port of zero, nor under the unspecified address of IPv6. -/
theorem of_readKey {row : Row} {key : ConnectionKey} (h : row.readKey = some key) :
    key.localAddr.port ≠ 0 ∧ key.remoteAddr.port ≠ 0 ∧
      key.localAddr.ip ≠ .v6 ⟨Vector.replicate 8 0⟩ ∧
      key.remoteAddr.ip ≠ .v6 ⟨Vector.replicate 8 0⟩ := by
  rw [readKey] at h
  split at h
  · cases h
  next hports =>
    obtain ⟨hl, hf⟩ := not_or.mp hports
    obtain rfl := Option.some.inj h
    exact ⟨hl, hf, PrintedIp.readIp_ne _, PrintedIp.readIp_ne _⟩

/-- If one of the keys that are tried for the socket's own addresses has ports and no unspecified
IPv6 address, the line has no stars. -/
theorem starless_of_candidate {row : Row} {key : ConnectionKey}
    (hkey : key = row.key ∨ key ∈ candidates row.key)
    (hl : key.localAddr.port ≠ 0) (hr : key.remoteAddr.port ≠ 0)
    (hlip : key.localAddr.ip ≠ .v6 ⟨Vector.replicate 8 0⟩)
    (hrip : key.remoteAddr.ip ≠ .v6 ⟨Vector.replicate 8 0⟩) : row.Starless := by
  have hany : ∀ printed : PrintedIp, printed.ip ≠ .v6 ⟨Vector.replicate 8 0⟩ →
      printed ≠ .anyInet6 := by
    rintro printed hip rfl
    exact hip rfl
  simp only [candidates, List.mem_cons, List.not_mem_nil, or_false] at hkey
  rcases hkey with rfl | rfl | rfl | rfl
  · exact ⟨hl, hr, hany _ hlip, hany _ hrip⟩
  · exact absurd rfl hr
  -- the second shape has the local port, and the unspecified address of the local family
  · refine ⟨hl, hr, ?_, hany _ hrip⟩
    intro heq
    apply hlip
    simp [zero, Row.key, End.addr, heq, PrintedIp.ip]
  · exact absurd rfl hr

end Row

/-! ## Listings -/

/-- Sockets with their processes, and the headers of the listings. -/
structure Listing where
  header : Table → List (ℕ × Text.Word)
  sockets : List Row

namespace Listing

/-- What the command prints for a protocol and family. -/
def output (l : Listing) (table : Table) : List Char :=
  Text.unlines (Text.unwords (l.header table) 0 ::
    (l.sockets.filter fun row => row.table = table).map Row.line)

/-- What the commands print: each table in full, so that no command fails. -/
def sockstat (l : Listing) (table : Table) : Option (List Char) := some (l.output table)

/-- The connection matches the socket exactly, or by one of the wildcard shapes. -/
def Matches (conn : Connection) (row : Row) : Prop :=
  row.key = .fromConnection conn ∨ row.key ∈ candidates (.fromConnection conn)

/-- No two processes have sockets that match one connection. -/
def Unambiguous (l : Listing) : Prop :=
  ∀ row ∈ l.sockets, ∀ other ∈ l.sockets, ∀ conn,
    Matches conn row → Matches conn other → row.owner = other.owner

/-- Every connection that matches a socket is attributed to its owner. -/
def Attributes (l : Listing) : Prop :=
  ∀ row ∈ l.sockets, ∀ conn, Matches conn row →
    getProcessForConnection (buildProcessMap l.sockstat) conn = some row.owner

/-- The lines of a listing are cut where they were put together. -/
theorem lines_output (l : Listing) (table : Table) :
    (Text.lines (l.output table)).tail =
      (l.sockets.filter fun row => row.table = table).map Row.line := by
  rw [output, Text.lines_unlines_unwords]
  · rfl
  · intro line hline
    rcases List.mem_cons.mp hline with rfl | hline
    · exact ⟨l.header table, 0, rfl⟩
    · obtain ⟨row, -, rfl⟩ := List.mem_map.mp hline
      exact ⟨row.columns, row.trailing, rfl⟩

/-- The rows that are read are those of the sockets that are filed. -/
theorem mem_rows {l : Listing} {key : ConnectionKey} {p : Process} :
    (key, p) ∈ rows l.sockstat ↔ ∃ row ∈ l.sockets, row.readKey = some key ∧ row.owner = p := by
  -- the listing of a table has the lines of its sockets
  have htable : ∀ table, (key, p) ∈ outputRows table.transport.protocol (l.sockstat table) ↔
      ∃ row ∈ l.sockets, row.table = table ∧ row.readKey = some key ∧ row.owner = p := by
    intro table
    rw [outputRows, sockstat, Option.elim_some, listingRows, lines_output, List.mem_filterMap]
    constructor
    · rintro ⟨line, hline, hparse⟩
      obtain ⟨row, hmem, rfl⟩ := List.mem_map.mp hline
      obtain ⟨hrow, htable⟩ := List.mem_filter.mp hmem
      have htable : row.table = table := of_decide_eq_true htable
      rw [← htable, Row.transport_table, Row.parseLine_line, Option.map_eq_some_iff] at hparse
      obtain ⟨found, hfound, heq⟩ := hparse
      obtain ⟨rfl, rfl⟩ := Prod.mk.inj heq
      exact ⟨row, hrow, htable, hfound, rfl⟩
    · rintro ⟨row, hrow, rfl, hfound, rfl⟩
      have hmem : row ∈ l.sockets.filter fun other => other.table = row.table :=
        List.mem_filter.mpr ⟨hrow, decide_eq_true rfl⟩
      refine ⟨row.line, List.mem_map_of_mem hmem, ?_⟩
      rw [Row.transport_table, Row.parseLine_line, hfound]
      rfl
  rw [rows, List.mem_flatMap]
  simp only [htable]
  constructor
  · rintro ⟨table, -, row, hrow, -, hfound⟩
    exact ⟨row, hrow, hfound⟩
  · rintro ⟨row, hrow, hfound⟩
    refine ⟨row.table, ?_, row, hrow, rfl, hfound⟩
    cases row.table <;> simp

theorem of_lookup {l : Listing} {key : ConnectionKey} {p : Process}
    (h : (buildProcessMap l.sockstat).lookup key = some p) :
    ∃ row ∈ l.sockets, row.readKey = some key ∧ row.owner = p := by
  rw [lookup_buildProcessMap] at h
  exact mem_rows.mp (mem_of_lastOwner h)

theorem exists_lookup {l : Listing} {row : Row} (hrow : row ∈ l.sockets) {key : ConnectionKey}
    (hkey : row.readKey = some key) : ∃ p, (buildProcessMap l.sockstat).lookup key = some p := by
  rw [lookup_buildProcessMap]
  exact exists_lastOwner (mem_rows.mpr ⟨row, hrow, hkey, rfl⟩)

theorem protocol_of_candidate {key candidate : ConnectionKey} (h : candidate ∈ candidates key) :
    candidate.protocol = key.protocol := by
  simp only [candidates, List.mem_cons, List.not_mem_nil, or_false] at h
  rcases h with rfl | rfl | rfl <;> rfl

/-- Without stars every socket is filed under its own addresses, and found under them. -/
theorem attributes_of_starless {l : Listing} (hone : l.Unambiguous)
    (hstars : ∀ row ∈ l.sockets, row.Starless) : l.Attributes := by
  intro row hrow conn hmatch
  -- whatever is found on the way is a socket that the connection matches as well
  have howner : ∀ {key p}, key = .fromConnection conn ∨ key ∈ candidates (.fromConnection conn) →
      (buildProcessMap l.sockstat).lookup key = some p → p = row.owner := by
    intro key p hkey hp
    obtain ⟨other, hother, hread, rfl⟩ := of_lookup hp
    rw [Row.readKey_of_starless (hstars other hother), Option.some.injEq] at hread
    subst hread
    exact hone other hother row hrow conn hkey hmatch
  obtain ⟨p, hp⟩ := exists_lookup hrow (Row.readKey_of_starless (hstars row hrow))
  cases hexact : (buildProcessMap l.sockstat).lookup (.fromConnection conn) with
  | some q =>
    rw [getProcessForConnection_of_lookup hexact, howner (Or.inl rfl) hexact]
  | none =>
    rw [getProcessForConnection_of_lookup_none hexact, fallbackLookup_eq_some]
    rcases hmatch with hkey | hkey
    · rw [hkey, hexact] at hp
      cases hp
    · refine ⟨?_, ⟨row.key, hkey, ?_⟩, fun candidate hcandidate q hq => ?_⟩
      · have hprotocol : conn.protocol = row.transport.protocol := (protocol_of_candidate hkey).symm
        show conn.protocol = .tcp ∨ conn.protocol = .udp
        rw [hprotocol]
        cases row.transport with
        | tcp => exact Or.inl rfl
        | udp => exact Or.inr rfl
      · rw [hp, howner (Or.inr hkey) hp]
      · exact howner (Or.inr hcandidate) hq

/-- For a connection with the addresses of a socket something is found only in a listing in which
its line has no stars. -/
theorem starless_of_attributes {l : Listing} (h : l.Attributes) :
    ∀ row ∈ l.sockets, row.Starless := by
  intro row hrow
  let conn := Connection.new row.transport.protocol row.localEnd.addr row.foreignEnd.addr .udp
    .unixEpoch ⟨0⟩
  have hkey : ConnectionKey.fromConnection conn = row.key := rfl
  have hfound := h row hrow conn (Or.inl hkey.symm)
  -- some key that the lookup tries was read from the output
  have hread : ∃ key, (key = row.key ∨ key ∈ candidates row.key) ∧
      ∃ p, (buildProcessMap l.sockstat).lookup key = some p := by
    cases hexact : (buildProcessMap l.sockstat).lookup (.fromConnection conn) with
    | some p => exact ⟨row.key, Or.inl rfl, p, hexact⟩
    | none =>
      rw [getProcessForConnection_of_lookup_none hexact, fallbackLookup_eq_some] at hfound
      obtain ⟨-, ⟨candidate, hcandidate, hp⟩, -⟩ := hfound
      exact ⟨candidate, Or.inr hcandidate, _, hp⟩
  obtain ⟨key, hcandidate, p, hp⟩ := hread
  obtain ⟨other, -, hother, -⟩ := of_lookup hp
  obtain ⟨hl, hr, hlip, hrip⟩ := Row.of_readKey hother
  exact Row.starless_of_candidate hcandidate hl hr hlip hrip

/-- Where no two processes have sockets that match one connection (`hone`), every socket's owner is
found for every connection that matches it exactly if there is no star in the listing but for the
address of an IPv4 socket. A star for a port is no number, and the line is skipped; a star for the
address of an IPv6 socket is read as one of IPv4. -/
theorem attributes_iff_starless (l : Listing) (hone : l.Unambiguous) :
    l.Attributes ↔ ∀ row ∈ l.sockets, row.Starless :=
  ⟨starless_of_attributes, attributes_of_starless hone⟩

/-! ## One socket -/

/-- `sshd` with the two ends of a socket. -/
def sshd (localEnd foreignEnd : End) (sameFamily : localEnd.ip.isInet6 = foreignEnd.ip.isInet6) :
    Row where
  transport := .tcp
  localEnd := localEnd
  foreignEnd := foreignEnd
  sameFamily := sameFamily
  pid := 1234
  user := (0, ⟨['r', 'o', 'o', 't'], by decide, by simp [Text.isWhitespace]⟩)
  command := (4, ⟨['s', 's', 'h', 'd'], by decide, by simp [Text.isWhitespace]⟩)
  fd := (2, decimalWord 3)
  proto := (2, ⟨['t', 'c', 'p'], by decide, by simp [Text.isWhitespace]⟩)
  pidBlanks := 6
  localBlanks := 3
  foreignBlanks := 8
  trailing := 0

/-- The listing of one socket. -/
def single (row : Row) : Listing := ⟨fun _ => [], [row]⟩

theorem single_unambiguous (row : Row) : (single row).Unambiguous := by
  intro row' hrow' other hother _ _ _
  rw [List.mem_singleton.mp hrow', List.mem_singleton.mp hother]

/-- A socket that listens on port 22 of all IPv4 addresses. -/
def listening : Row := sshd ⟨.anyInet, 22⟩ ⟨.anyInet, 0⟩ rfl

/-- Nothing is found for a connection to it. -/
theorem listening_not_attributes :
    (single listening).Unambiguous ∧ ¬ (single listening).Attributes := by
  refine ⟨single_unambiguous listening, fun h => ?_⟩
  let conn := Connection.new .tcp (.lan 1 22) (.lan 2 50000) (.tcp .established) .unixEpoch ⟨0⟩
  have hmatch : Matches conn listening := Or.inr (by decide +kernel)
  have hfound := h listening (List.mem_singleton.mpr rfl) conn hmatch
  have hnone : getProcessForConnection (buildProcessMap (single listening).sockstat) conn =
      none := by decide +kernel
  rw [hnone] at hfound
  cases hfound

/-- A connection between two IPv6 addresses, of which one is in brackets. -/
def connected : Row :=
  sshd
    ⟨.inet6 (.new 0xfe80 0 0 0 0 0 0 1) ['f', 'e', '8', '0', ':', ':', '1'] true (by decide)
      (by decide +kernel) (by simp [Plain, Text.isWhitespace]) (by decide), 22⟩
    ⟨.inet6 (.new 0xfe80 0 0 0 0 0 0 2) ['f', 'e', '8', '0', ':', ':', '2'] false (by decide)
      (by decide +kernel) (by simp [Plain, Text.isWhitespace]) (by decide), 50000⟩ rfl

/-- Its line has no stars. -/
theorem attributes_connected : (single connected).Attributes ↔
    ∀ row ∈ (single connected).sockets, row.Starless :=
  attributes_iff_starless (single connected) (single_unambiguous connected)

end Listing

end RustNet.Host.Sockstat
