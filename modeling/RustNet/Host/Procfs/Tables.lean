import RustNet.Host.Procfs.Basic
import RustNet.Network.Parser.Transport

/-!
# The tables of the kernel

The files the procfs lookup reads, as a little-endian kernel prints them: the
directories of its processes, and a line for each of its sockets. An address stands in a table as
the hexadecimal words that a little-endian machine reads in its bytes. An IPv4 connection held by
an `AF_INET6` socket is listed in the IPv6 tables under the mapped addresses.

A `Machine` carries the proofs that no two of its sockets have the same addresses and that each is
some process's.

## Main results

* `parseHexAddress_hexAddress`, `extractSocketInode_text`: what is printed is read back;
* `lookup_listed`: the map built from the files has the sockets' rows and no others.
-/

namespace RustNet.Host

/-! ## Addresses -/

/-- `%08X` of the word that a little-endian machine reads in the bytes of an IPv4 address, or of
each of the four words of an IPv6 address. -/
def hexIp : IpAddr → List Char
  | .v4 ip => Text.hexPad 8 (LittleEndian.value ip.bytes)
  | .v6 ip => (List.range 4).flatMap fun i => Text.hexPad 8 (LittleEndian.value (ip.word i))

/-- An address as the tables print it, with `%04X` of the port. -/
def hexAddress (addr : SocketAddr) : List Char :=
  hexIp addr.ip ++ ':' :: Text.hexPad 4 addr.port.toNat

/-- A word is read as it was printed. -/
theorem fromStrRadix_word {bs : List UInt8} (h : bs.length = 4) :
    (Text.fromStrRadix 16 32 (Text.hexPad 8 (LittleEndian.value bs))).map (LittleEndian.bytes 4) =
      some bs := by
  have hlt : LittleEndian.value bs < 16 ^ 8 := by
    have := LittleEndian.value_lt bs
    rw [h] at this
    exact this
  rw [Text.fromStrRadix_hexPad _ (by decide) (by decide), Nat.mod_eq_of_lt hlt, Option.map_some,
    ← h, LittleEndian.bytes_value]

theorem fromStrRadix_port (port : UInt16) :
    Text.fromStrRadix 16 16 (Text.hexPad 4 port.toNat) = some port.toNat := by
  have hlt : port.toNat < 16 ^ 4 := port.toNat_lt
  rw [Text.fromStrRadix_hexPad _ (by decide) (by decide), Nat.mod_eq_of_lt hlt]

theorem hexIp_plain {ip : IpAddr} {c : Char} (h : c ∈ hexIp ip) :
    Text.isWhitespace c = false ∧ c ≠ ':' := by
  cases ip with
  | v4 ip => exact ⟨(Text.hexPad_plain h).1, (Text.hexPad_plain h).2.2⟩
  | v6 ip =>
    obtain ⟨i, -, h⟩ := List.mem_flatMap.mp h
    exact ⟨(Text.hexPad_plain h).1, (Text.hexPad_plain h).2.2⟩

/-- The address is cut off at the colon. -/
theorem splitOn_hexAddress (addr : SocketAddr) :
    (hexAddress addr).splitOn ':' = [hexIp addr.ip, Text.hexPad 4 addr.port.toNat] := by
  have hport : ':' ∉ Text.hexPad 4 addr.port.toNat := fun hc => (Text.hexPad_plain hc).2.2 rfl
  rw [hexAddress, List.splitOn_append_cons_self_of_not_mem fun hc => (hexIp_plain hc).2 rfl,
    List.splitOn_eq_singleton hport]

/-- The words of an IPv6 address are read one by one. -/
theorem mapM_words (ip : Ipv6Addr) :
    ((List.range 4).mapM fun i => (Text.fromStrRadix 16 32 (Blocks.block 8 i (hexIp (.v6 ip)))).map
      (LittleEndian.bytes 4)) = some ((List.range 4).map ip.word) := by
  have hword : ∀ i < 4, (Text.fromStrRadix 16 32 (Blocks.block 8 i (hexIp (.v6 ip)))).map
      (LittleEndian.bytes 4) = some (ip.word i) := by
    intro i hi
    rw [hexIp, Blocks.block_flatMap (fun _ => Text.length_hexPad 8 _) _ (by simpa using hi),
      List.getElem_range, fromStrRadix_word (ip.length_word hi)]
  have hrange : List.range 4 = [0, 1, 2, 3] := rfl
  simp [hrange, hword]

/-- An address is read as it was printed. -/
theorem parseHexAddress_hexAddress (addr : SocketAddr) :
    parseHexAddress (hexAddress addr) = some addr := by
  obtain ⟨ip, port⟩ := addr
  simp only [parseHexAddress, splitOn_hexAddress, fromStrRadix_port, Option.bind_eq_bind,
    Option.bind_some]
  cases ip with
  -- the length of the text tells the versions apart
  | v4 ip =>
    have hlength : (hexIp (.v4 ip)).length = 8 := Text.length_hexPad 8 _
    obtain ⟨n, hn, hbytes⟩ := Option.map_eq_some_iff.mp (fromStrRadix_word ip.length_bytes)
    rw [if_pos hlength, hexIp, hn, Option.bind_some, hbytes, Ipv4Addr.fromOctets_bytes,
      UInt16.ofNat_toNat]
    rfl
  | v6 ip =>
    have hlength : (hexIp (.v6 ip)).length = 32 := by
      simp [hexIp, List.length_flatMap]
    rw [if_neg (by simp [hlength]), if_pos hlength, mapM_words, Option.bind_some,
      ← List.flatMap_def, ip.flatMap_word, Ipv6Addr.fromOctets_octets, UInt16.ofNat_toNat]
    rfl

/-! ## Processes -/

/-- A link in the `fd` directory of a process: to a socket, or to anything else. -/
inductive FdLink
  | socket (inode : UInt64)
  | other (text : List Char) (not_socket : ¬ socketPrefix <+: text)

/-- What `readlink` returns for a descriptor. -/
def FdLink.text : FdLink → List Char
  | .socket inode => socketPrefix ++ Nat.toDigits 10 inode.toNat ++ [']']
  | .other text _ => text

/-- The inode a link leads to, if it leads to a socket. -/
def FdLink.inode : FdLink → Option UInt64
  | .socket inode => some inode
  | .other .. => none

/-- The inode is read out of the link. -/
theorem extractSocketInode_text (link : FdLink) : extractSocketInode link.text = link.inode := by
  cases link with
  | socket inode =>
    have hpre : socketPrefix <+: FdLink.text (.socket inode) := by
      rw [FdLink.text, List.append_assoc]
      exact List.prefix_append _ _
    -- between the prefix and the bracket stand the digits of the inode
    have hcut : ((FdLink.text (.socket inode)).drop 8).dropLast = Nat.toDigits 10 inode.toNat := by
      have hlength : socketPrefix.length = 8 := rfl
      rw [FdLink.text, List.append_assoc, List.drop_left' hlength, List.dropLast_concat]
    rw [extractSocketInode, if_pos ⟨hpre, by simp [FdLink.text]⟩, hcut,
      Text.fromStrRadix_toDigits inode.toNat_lt, Option.map_some, UInt64.ofNat_toNat]
    rfl
  | other text not_socket => exact if_neg fun h => not_socket h.1

/-- A process: its pid, its `comm` file and the links of its descriptors, as far as they can be
read. -/
structure HostProcess where
  pid : UInt32
  pid_ne_zero : pid ≠ 0
  comm : Option (List Char)
  fds : Option (List FdLink)

/-- The pid and the name. -/
def HostProcess.process (p : HostProcess) : Process :=
  (p.pid, String.ofList (Text.trim (p.comm.getD unknownComm)))

/-- An entry of `/proc`: the directory of a process, or one whose name is no number. -/
inductive DirEntry
  | process (p : HostProcess)
  | other (dir : ProcDir) (not_pid : Text.fromStrRadix 10 32 dir.fileName = none)

/-- The directory of an entry. -/
def DirEntry.dir : DirEntry → ProcDir
  | .process p =>
    { fileName := Nat.toDigits 10 p.pid.toNat
      comm := p.comm
      fds := p.fds.map fun links => links.map FdLink.text }
  | .other dir _ => dir

/-- The sockets that an entry shows to be open, each with the process that has it open. -/
def DirEntry.descriptors : DirEntry → List (UInt64 × Process)
  | .process p => ((p.fds.getD []).filterMap FdLink.inode).map (·, p.process)
  | .other .. => []

theorem process_dir (p : HostProcess) : (DirEntry.process p).dir.process = some p.process := by
  have hpid : p.pid.toNat ≠ 0 := fun h => p.pid_ne_zero (UInt32.toNat_inj.mp h)
  simp only [ProcDir.process, DirEntry.dir, Text.fromStrRadix_toDigits p.pid.toNat_lt, if_neg hpid,
    UInt32.ofNat_toNat, HostProcess.process]

/-- The loop over the descriptors finds the open sockets. -/
theorem descriptors_dir (entry : DirEntry) : entry.dir.descriptors = entry.descriptors := by
  cases entry with
  | process p =>
    rw [ProcDir.descriptors, process_dir]
    cases hfds : p.fds with
    | none => simp [DirEntry.dir, DirEntry.descriptors, hfds]
    | some links =>
      simp only [DirEntry.dir, DirEntry.descriptors, hfds, Option.map_some, Option.getD_some,
        List.filterMap_map, List.map_filterMap]
      apply List.filterMap_congr
      intro link _
      rw [Function.comp_apply, extractSocketInode_text]
  | other dir not_pid =>
    simp [ProcDir.descriptors, ProcDir.process, DirEntry.dir, DirEntry.descriptors, not_pid]

/-! ## Sockets -/

/-- The two protocols whose sockets have tables of their own. -/
inductive Transport
  | tcp | udp
deriving DecidableEq

/-- The `Protocol` of a transport. -/
def Transport.protocol : Transport → Protocol
  | .tcp => .tcp
  | .udp => .udp

/-- The IPv6 address `::ffff:a.b.c.d`, which an `AF_INET6` socket has for an IPv4 one. -/
def toIpv6Mapped (ip : Ipv4Addr) : Ipv6Addr :=
  .new 0 0 0 0 0 0xffff (be16 (ip.octet 0) (ip.octet 1)) (be16 (ip.octet 2) (ip.octet 3))

theorem toIpv4Mapped_toIpv6Mapped (ip : Ipv4Addr) :
    (toIpv6Mapped ip).toIpv4Mapped = some ip := by
  have hoctets : #v[ip.octet 0, ip.octet 1, ip.octet 2, ip.octet 3] = ip.octets := by
    ext i hi
    interval_cases i <;> simp [Ipv4Addr.octet, Ipv4Addr.bytes]
  simp [Ipv6Addr.toIpv4Mapped, toIpv6Mapped, be16_high, be16_low, hoctets]

/-- The two addresses of a socket: of an IPv4 socket, of an IPv6 socket, and of an IPv4 connection
held by an `AF_INET6` socket. -/
inductive Endpoints
  | inet (localIp remoteIp : Ipv4Addr)
  | inet6 (localIp remoteIp : Ipv6Addr)
      (native : localIp.toIpv4Mapped = none ∨ remoteIp.toIpv4Mapped = none)
  | mapped (localIp remoteIp : Ipv4Addr)

/-- The addresses the packets carry. -/
def Endpoints.packetIps : Endpoints → IpAddr × IpAddr
  | .inet l r => (.v4 l, .v4 r)
  | .inet6 l r _ => (.v6 l, .v6 r)
  | .mapped l r => (.v4 l, .v4 r)

/-- The addresses the kernel lists. -/
def Endpoints.listedIps : Endpoints → IpAddr × IpAddr
  | .inet l r => (.v4 l, .v4 r)
  | .inet6 l r _ => (.v6 l, .v6 r)
  | .mapped l r => (.v6 (toIpv6Mapped l), .v6 (toIpv6Mapped r))

/-- Sockets that are listed alike carry the same addresses. -/
theorem packetIps_of_listedIps {e e' : Endpoints} (h : e.listedIps = e'.listedIps) :
    e.packetIps = e'.packetIps := by
  cases e <;> cases e' <;>
    simp only [Endpoints.listedIps, Prod.mk.injEq, IpAddr.v4.injEq, IpAddr.v6.injEq,
      reduceCtorEq, and_self] at h
  case inet.inet => rw [h.1, h.2]
  case inet6.inet6 => rw [Endpoints.packetIps, Endpoints.packetIps, h.1, h.2]
  -- an IPv6 socket has an address that is not mapped
  case inet6.mapped native l r =>
    rw [h.1, h.2, toIpv4Mapped_toIpv6Mapped, toIpv4Mapped_toIpv6Mapped] at native
    simp at native
  case mapped.inet6 native =>
    rw [← h.1, ← h.2, toIpv4Mapped_toIpv6Mapped, toIpv4Mapped_toIpv6Mapped] at native
    simp at native
  case mapped.mapped =>
    have hl := congrArg Ipv6Addr.toIpv4Mapped h.1
    have hr := congrArg Ipv6Addr.toIpv4Mapped h.2
    rw [toIpv4Mapped_toIpv6Mapped, toIpv4Mapped_toIpv6Mapped, Option.some.injEq] at hl hr
    rw [Endpoints.packetIps, Endpoints.packetIps, hl, hr]

/-- A socket with its ends, and the inode by which processes hold it. -/
structure Socket where
  transport : Transport
  endpoints : Endpoints
  localPort : UInt16
  remotePort : UInt16
  inode : UInt64

namespace Socket

/-- The key of the connection that the packets of the socket belong to. -/
def packetKey (s : Socket) : ConnectionKey where
  protocol := s.transport.protocol
  localAddr := ⟨s.endpoints.packetIps.1, s.localPort⟩
  remoteAddr := ⟨s.endpoints.packetIps.2, s.remotePort⟩

/-- The key the socket is listed under. -/
def listedKey (s : Socket) : ConnectionKey where
  protocol := s.transport.protocol
  localAddr := ⟨s.endpoints.listedIps.1, s.localPort⟩
  remoteAddr := ⟨s.endpoints.listedIps.2, s.remotePort⟩

/-- The socket holds an IPv4 connection and is an `AF_INET6` one. -/
def IsMapped (s : Socket) : Prop := ∃ l r, s.endpoints = .mapped l r

theorem packetKey_of_listedKey {s s' : Socket} (h : s.listedKey = s'.listedKey) :
    s.packetKey = s'.packetKey := by
  simp only [listedKey, ConnectionKey.mk.injEq, SocketAddr.mk.injEq] at h
  obtain ⟨hprotocol, ⟨hl, hlport⟩, hr, hrport⟩ := h
  rw [packetKey, packetKey, packetIps_of_listedIps (Prod.ext hl hr), hprotocol, hlport, hrport]

theorem listedKey_of_not_isMapped {s : Socket} (h : ¬ s.IsMapped) : s.listedKey = s.packetKey := by
  cases he : s.endpoints with
  | inet l r => simp [listedKey, packetKey, he, Endpoints.listedIps, Endpoints.packetIps]
  | inet6 l r native => simp [listedKey, packetKey, he, Endpoints.listedIps, Endpoints.packetIps]
  | mapped l r => exact absurd ⟨l, r, he⟩ h

end Socket

/-! ## Tables -/

/-- The socket tables of `/proc/net`, in the order they are read in. -/
inductive Table
  | tcp | tcp6 | udp | udp6
deriving DecidableEq

/-- The protocol of the sockets in a table. -/
def Table.transport : Table → Transport
  | .tcp | .tcp6 => .tcp
  | .udp | .udp6 => .udp

/-- The table that lists a socket. -/
def Socket.table (s : Socket) : Table :=
  match s.transport, s.endpoints with
  | .tcp, .inet .. => .tcp
  | .tcp, _ => .tcp6
  | .udp, .inet .. => .udp
  | .udp, _ => .udp6

theorem Socket.transport_table (s : Socket) : s.table.transport = s.transport := by
  unfold Socket.table
  split <;> simp_all [Table.transport]

/-- The text of an address as a word. -/
def addressWord (addr : SocketAddr) : Text.Word where
  chars := hexAddress addr
  chars_ne_nil := by simp [hexAddress]
  not_isWhitespace := by
    intro c hc
    rcases List.mem_append.mp hc with hc | hc
    · exact (hexIp_plain hc).1
    · rcases List.mem_cons.mp hc with rfl | hc
      · decide
      · exact (Text.hexPad_plain hc).1

/-- A number in decimal digits as a word. -/
def decimalWord (n : ℕ) : Text.Word where
  chars := Nat.toDigits 10 n
  chars_ne_nil := Nat.toDigits_ne_nil
  not_isWhitespace := fun _ hc => (Text.toDigits_plain hc).1

/-- A line of a table. Of its columns only the addresses and the inode matter, which stand first
behind the slot number and first behind the state, the queues, the timer, the retransmissions, the
user and the timeout. The numbers are the blanks in front of the columns. -/
structure Listing where
  socket : Socket
  slot : ℕ × Text.Word
  localBlanks : ℕ
  remoteBlanks : ℕ
  between : List (ℕ × Text.Word)
  length_between : between.length = 6
  inodeBlanks : ℕ
  rest : List (ℕ × Text.Word)
  trailing : ℕ

namespace Listing

/-- The columns of the line. -/
def columns (l : Listing) : List (ℕ × Text.Word) :=
  l.slot :: (l.localBlanks, addressWord l.socket.listedKey.localAddr) ::
    (l.remoteBlanks, addressWord l.socket.listedKey.remoteAddr) ::
      (l.between ++ (l.inodeBlanks, decimalWord l.socket.inode.toNat) :: l.rest)

/-- The text of the line. -/
def line (l : Listing) : List Char := Text.unwords l.columns l.trailing

/-- A line is read as the row of its socket, when a process has the socket open. -/
theorem parseLine_line (l : Listing) (inodeMap : InodeProcessMap) :
    parseLine l.socket.transport.protocol inodeMap l.line =
      (inodeMap.lookup l.socket.inode).map (l.socket.listedKey, ·) := by
  have hinode : (l.columns.map fun w => w.2.chars)[9]? =
      some (Nat.toDigits 10 l.socket.inode.toNat) := by
    -- six columns lie between the addresses and the inode
    have hcolumn : (l.between ++ (l.inodeBlanks, decimalWord l.socket.inode.toNat) :: l.rest)[6]? =
        some (l.inodeBlanks, decimalWord l.socket.inode.toNat) := by
      rw [List.getElem?_append_right l.length_between.le, l.length_between]
      rfl
    rw [List.getElem?_map]
    exact congrArg (Option.map fun w : ℕ × Text.Word => w.2.chars) hcolumn
  have hlength : 10 ≤ (l.columns.map fun w => w.2.chars).length := by
    rw [columns, List.length_map, List.length_cons, List.length_cons, List.length_cons,
      List.length_append, l.length_between, List.length_cons]
    omega
  have hlocal : (l.columns.map fun w => w.2.chars)[1]? =
      some (hexAddress l.socket.listedKey.localAddr) := rfl
  have hremote : (l.columns.map fun w => w.2.chars)[2]? =
      some (hexAddress l.socket.listedKey.remoteAddr) := rfl
  simp only [parseLine, line, Text.splitWhitespace_unwords, hlocal, hremote, hinode, hlength,
    Option.bind_eq_bind, Option.bind_some, parseHexAddress_hexAddress,
    Text.fromStrRadix_toDigits l.socket.inode.toNat_lt, guard, if_true, Option.pure_def]
  rw [UInt64.ofNat_toNat]
  cases inodeMap.lookup l.socket.inode <;> rfl

end Listing

/-- A machine: its processes, its sockets in the order the kernel lists them, and the headers of the
tables. -/
structure Machine where
  entries : List DirEntry
  listings : List Listing
  header : Table → List (ℕ × Text.Word)
  /-- No two sockets have the same protocol and addresses. -/
  distinct : (listings.map fun l => l.socket.packetKey).Nodup
  /-- Every socket is open in a process. -/
  owned : ∀ l ∈ listings, ∃ process,
    (l.socket.inode, process) ∈ entries.flatMap DirEntry.descriptors

namespace Machine

/-- The sockets that the processes have open. -/
def descriptors (m : Machine) : List (UInt64 × Process) :=
  m.entries.flatMap DirEntry.descriptors

/-- The process that has a socket open, the last one listed if several do. -/
def holder (m : Machine) (inode : UInt64) : Option Process :=
  (m.descriptors.reverse.find? fun row => row.1 = inode).map Prod.snd

/-- The text of a table. -/
def content (m : Machine) (table : Table) : List Char :=
  Text.unlines (Text.unwords (m.header table) 0 ::
    (m.listings.filter fun l => l.socket.table = table).map Listing.line)

/-- The files of the machine. -/
def proc (m : Machine) : ProcFs where
  entries := m.entries.map DirEntry.dir
  tcp := some (m.content .tcp)
  tcp6 := some (m.content .tcp6)
  udp := some (m.content .udp)
  udp6 := some (m.content .udp6)

theorem lookup_buildInodeMap (m : Machine) (inode : UInt64) :
    (buildInodeMap m.proc.entries).lookup inode = m.holder inode := by
  have hdescriptors : m.proc.entries.flatMap ProcDir.descriptors = m.descriptors := by
    rw [proc, descriptors, List.flatMap_map]
    exact List.flatMap_congr fun entry _ => descriptors_dir entry
  rw [buildInodeMap_eq, AList.lookup_insertAll, AList.lookup_empty, Option.or_none, hdescriptors,
    holder]

theorem mem_of_holder {m : Machine} {inode : UInt64} {p : Process}
    (h : m.holder inode = some p) : (inode, p) ∈ m.descriptors :=
  AList.mem_of_find?_reverse h

/-- Every socket has a holder. -/
theorem exists_holder {m : Machine} {l : Listing} (hl : l ∈ m.listings) :
    ∃ p, m.holder l.socket.inode = some p := by
  obtain ⟨process, hprocess⟩ := m.owned l hl
  exact AList.exists_find?_reverse hprocess

/-- The lines of a table are cut where they were put together. -/
theorem lines_content (m : Machine) (table : Table) :
    (Text.lines (m.content table)).tail =
      (m.listings.filter fun l => l.socket.table = table).map Listing.line := by
  rw [content, Text.lines_unlines_unwords]
  · rfl
  · intro line hline
    rcases List.mem_cons.mp hline with rfl | hline
    · exact ⟨m.header table, 0, rfl⟩
    · obtain ⟨l, -, rfl⟩ := List.mem_map.mp hline
      exact ⟨l.columns, l.trailing, rfl⟩

/-- The rows read from a table are those of the sockets it lists. -/
theorem mem_tableRows {m : Machine} {table : Table} {row : ConnectionKey × Process} :
    row ∈ tableRows (some (m.content table)) table.transport.protocol
        (buildInodeMap m.proc.entries) ↔
      ∃ l ∈ m.listings, l.socket.table = table ∧ l.socket.listedKey = row.1 ∧
        m.holder l.socket.inode = some row.2 := by
  rw [tableRows, Option.elim_some, lines_content, List.mem_filterMap]
  -- a line of the table is that of a listing, and its holder that of the inode
  constructor
  · rintro ⟨line, hline, hrow⟩
    obtain ⟨l, hl, rfl⟩ := List.mem_map.mp hline
    obtain ⟨hl, htable⟩ := List.mem_filter.mp hl
    have htable : l.socket.table = table := by simpa using htable
    rw [← htable, Socket.transport_table, Listing.parseLine_line, lookup_buildInodeMap,
      Option.map_eq_some_iff] at hrow
    obtain ⟨p, hp, rfl⟩ := hrow
    exact ⟨l, hl, htable, rfl, hp⟩
  · rintro ⟨l, hl, htable, hkey, hholder⟩
    refine ⟨l.line, List.mem_map.mpr ⟨l, List.mem_filter.mpr ⟨hl, by simpa using htable⟩, rfl⟩, ?_⟩
    rw [← htable, Socket.transport_table, Listing.parseLine_line, lookup_buildInodeMap, hholder,
      Option.map_some, hkey]

/-- The rows read from all tables are those of the sockets. -/
theorem mem_rows {m : Machine} {row : ConnectionKey × Process} :
    row ∈ m.proc.rows ↔ ∃ l ∈ m.listings, l.socket.listedKey = row.1 ∧
      m.holder l.socket.inode = some row.2 := by
  -- the rows of one table are the sockets that it lists
  have htable := fun table => @mem_tableRows m table row
  have htcp := htable .tcp
  have htcp6 := htable .tcp6
  have hudp := htable .udp
  have hudp6 := htable .udp6
  simp only [Table.transport, Transport.protocol] at htcp htcp6 hudp hudp6
  rw [ProcFs.rows, List.mem_append, List.mem_append, List.mem_append]
  simp only [proc] at htcp htcp6 hudp hudp6 ⊢
  rw [htcp, htcp6, hudp, hudp6]
  constructor
  · rintro (((⟨l, hl, -, h⟩ | ⟨l, hl, -, h⟩) | ⟨l, hl, -, h⟩) | ⟨l, hl, -, h⟩) <;>
      exact ⟨l, hl, h⟩
  · rintro ⟨l, hl, h⟩
    cases hlisted : l.socket.table with
    | tcp => exact Or.inl (Or.inl (Or.inl ⟨l, hl, hlisted, h⟩))
    | tcp6 => exact Or.inl (Or.inl (Or.inr ⟨l, hl, hlisted, h⟩))
    | udp => exact Or.inl (Or.inr ⟨l, hl, hlisted, h⟩)
    | udp6 => exact Or.inr ⟨l, hl, hlisted, h⟩

/-- Two sockets that are listed under one key are the same. -/
theorem eq_of_listedKey {m : Machine} {l l' : Listing} (hl : l ∈ m.listings)
    (hl' : l' ∈ m.listings) (h : l.socket.listedKey = l'.socket.listedKey) : l = l' :=
  List.inj_on_of_nodup_map m.distinct hl hl' (Socket.packetKey_of_listedKey h)

/-- The map built from the files has the rows of the sockets and no others. -/
theorem lookup_listed {m : Machine} {key : ConnectionKey} {p : Process} :
    (buildProcessMap m.proc).lookup key = some p ↔
      ∃ l ∈ m.listings, l.socket.listedKey = key ∧ m.holder l.socket.inode = some p := by
  rw [buildProcessMap_eq, lookup_processMap]
  constructor
  · exact fun h => mem_rows.mp (mem_of_lastOwner h)
  · rintro ⟨l, hl, rfl, hp⟩
    have hrow : (l.socket.listedKey, p) ∈ m.proc.rows := mem_rows.mpr ⟨l, hl, rfl, hp⟩
    obtain ⟨q, hq⟩ := exists_lastOwner hrow
    -- the last row under the key can only be the socket's own
    obtain ⟨l', hl', hkey, hq'⟩ := mem_rows.mp (mem_of_lastOwner hq)
    rw [eq_of_listedKey hl' hl hkey, hp, Option.some.injEq] at hq'
    rw [hq, hq']

end Machine

end RustNet.Host
