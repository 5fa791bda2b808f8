import RustNet.Foundations.Text
import RustNet.Host.Lookup
import RustNet.Network.Types.Octets

/-!
# The procfs lookup

The process map that `LinuxProcessLookup` builds on Linux: the descriptors of every process give
the processes of the socket inodes, and the four socket tables of `/proc/net` give the addresses.
A file is its text, and `none` when it cannot be read.

## Main results

* `buildInodeMap_eq`, `buildProcessMap_eq`: the loops insert row after row.
-/

namespace RustNet.Host

/-- `InodeProcessMap`: which process holds the socket with an inode. -/
abbrev InodeProcessMap := AList fun _ : UInt64 => Process

/-! ## Inodes -/

/-- `socket:[`, with which the link of a socket's descriptor starts. -/
def socketPrefix : List Char := ['s', 'o', 'c', 'k', 'e', 't', ':', '[']

/-- `extract_socket_inode`: the number between the brackets of a link to a socket. -/
def extractSocketInode (link : List Char) : Option UInt64 :=
  if socketPrefix <+: link ∧ link.getLast? = some ']' then
    (Text.fromStrRadix 10 64 (link.drop 8).dropLast).map UInt64.ofNat
  else none

/-- A directory of `/proc`: its name, its `comm` file and the links in its `fd` directory that can
be read. -/
structure ProcDir where
  fileName : List Char
  comm : Option (List Char)
  fds : Option (List (List Char))

/-- `unknown`, the name of a process whose name cannot be read. -/
def unknownComm : List Char := ['u', 'n', 'k', 'n', 'o', 'w', 'n']

/-- The process a directory of `/proc` belongs to, if it is a process's. -/
def ProcDir.process (entry : ProcDir) : Option Process :=
  match Text.fromStrRadix 10 32 entry.fileName with
  | none => none
  | some pid =>
    if pid = 0 then none
    else some (UInt32.ofNat pid, String.ofList (Text.trim (entry.comm.getD unknownComm)))

/-- The loop of `build_inode_map` over the descriptors of one process. -/
def insertLink (process : Process) (inodeMap : InodeProcessMap) (link : List Char) :
    InodeProcessMap :=
  match extractSocketInode link with
  | some inode => inodeMap.insert inode process
  | none => inodeMap

/-- One round of the loop of `build_inode_map`. -/
def insertDir (inodeMap : InodeProcessMap) (entry : ProcDir) : InodeProcessMap :=
  match entry.process with
  | none => inodeMap
  | some process => (entry.fds.getD []).foldl (insertLink process) inodeMap

/-- `build_inode_map`: the directories of the processes one after the other; of two processes with
one socket the later stays. -/
def buildInodeMap (entries : List ProcDir) : InodeProcessMap := entries.foldl insertDir ∅

/-- The socket inodes a directory names, with its process. -/
def ProcDir.descriptors (entry : ProcDir) : List (UInt64 × Process) :=
  match entry.process with
  | none => []
  | some process =>
    (entry.fds.getD []).filterMap fun link => (extractSocketInode link).map (·, process)

theorem insertLink_eq (process : Process) (inodeMap : InodeProcessMap) (link : List Char) :
    insertLink process inodeMap link =
      inodeMap.insertAll ((extractSocketInode link).map (·, process)).toList := by
  unfold insertLink
  cases extractSocketInode link <;> rfl

theorem insertDir_eq (inodeMap : InodeProcessMap) (entry : ProcDir) :
    insertDir inodeMap entry = inodeMap.insertAll entry.descriptors := by
  unfold insertDir ProcDir.descriptors
  cases entry.process with
  | none => rfl
  | some process =>
    simp only
    rw [AList.foldl_eq_insertAll (insertLink_eq process), List.filterMap_eq_flatMap_toList]

theorem buildInodeMap_eq (entries : List ProcDir) :
    buildInodeMap entries = AList.insertAll (entries.flatMap ProcDir.descriptors) ∅ :=
  AList.foldl_eq_insertAll insertDir_eq entries ∅

/-! ## Addresses -/

/-- `parse_hex_address`. The kernel writes ASCII, so that the length of a text is that of its
bytes. -/
def parseHexAddress (hexAddr : List Char) : Option SocketAddr :=
  match hexAddr.splitOn ':' with
  | [ipHex, portHex] => do
    let port ← Text.fromStrRadix 16 16 portHex
    if ipHex.length = 8 then
      let ipBytes ← Text.fromStrRadix 16 32 ipHex
      pure ⟨.v4 (.fromOctets (LittleEndian.bytes 4 ipBytes)), UInt16.ofNat port⟩
    else if ipHex.length = 32 then
      -- word by word
      let words ← (List.range 4).mapM fun i =>
        (Text.fromStrRadix 16 32 (Blocks.block 8 i ipHex)).map (LittleEndian.bytes 4)
      pure ⟨.v6 (.fromOctets words.flatten), UInt16.ofNat port⟩
    else none
  | _ => none

/-! ## Socket tables -/

/-- One line of a socket table: the key and the process to insert. -/
def parseLine (protocol : Protocol) (inodeMap : InodeProcessMap) (line : List Char) :
    Option (ConnectionKey × Process) := do
  let parts := Text.splitWhitespace line
  guard (10 ≤ parts.length)
  let localAddr ← parts[1]? >>= parseHexAddress
  let remoteAddr ← parts[2]? >>= parseHexAddress
  let inode ← parts[9]? >>= Text.fromStrRadix 10 64
  let process ← inodeMap.lookup (UInt64.ofNat inode)
  pure (⟨protocol, localAddr, remoteAddr⟩, process)

/-- One round of the loop of `parse_and_map`. -/
def insertLine (protocol : Protocol) (inodeMap : InodeProcessMap) (result : ConnectionProcessMap)
    (line : List Char) : ConnectionProcessMap :=
  match parseLine protocol inodeMap line with
  | some row => result.insert row.1 row.2
  | none => result

/-- `parse_and_map`: the first line is the header. -/
def parseAndMap (content : Option (List Char)) (protocol : Protocol) (inodeMap : InodeProcessMap)
    (result : ConnectionProcessMap) : ConnectionProcessMap :=
  match content with
  | none => result
  | some content => (Text.lines content).tail.foldl (insertLine protocol inodeMap) result

/-- The rows of a table that name a process. -/
def tableRows (content : Option (List Char)) (protocol : Protocol) (inodeMap : InodeProcessMap) :
    List (ConnectionKey × Process) :=
  (content.elim [] fun content => (Text.lines content).tail).filterMap
    (parseLine protocol inodeMap)

/-- What `build_process_map` reads: the directories of `/proc` and the tables of `/proc/net`. -/
structure ProcFs where
  entries : List ProcDir
  tcp : Option (List Char)
  tcp6 : Option (List Char)
  udp : Option (List Char)
  udp6 : Option (List Char)

/-- `build_process_map`: the four tables in the order of the source. A table that cannot be read
adds nothing. -/
def buildProcessMap (proc : ProcFs) : ConnectionProcessMap :=
  let inodeToProcess := buildInodeMap proc.entries
  let processMap := parseAndMap proc.tcp .tcp inodeToProcess ∅
  let processMap := parseAndMap proc.tcp6 .tcp inodeToProcess processMap
  let processMap := parseAndMap proc.udp .udp inodeToProcess processMap
  parseAndMap proc.udp6 .udp inodeToProcess processMap

theorem insertLine_eq (protocol : Protocol) (inodeMap : InodeProcessMap)
    (result : ConnectionProcessMap) (line : List Char) :
    insertLine protocol inodeMap result line =
      result.insertAll (parseLine protocol inodeMap line).toList := by
  unfold insertLine
  cases parseLine protocol inodeMap line <;> rfl

theorem parseAndMap_eq (content : Option (List Char)) (protocol : Protocol)
    (inodeMap : InodeProcessMap) (result : ConnectionProcessMap) :
    parseAndMap content protocol inodeMap result =
      result.insertAll (tableRows content protocol inodeMap) := by
  cases content with
  | none => rfl
  | some content =>
    rw [parseAndMap, AList.foldl_eq_insertAll (insertLine_eq protocol inodeMap), tableRows,
      List.filterMap_eq_flatMap_toList]
    rfl

/-- The rows of the four tables, in the order they are inserted in. -/
def ProcFs.rows (proc : ProcFs) : List (ConnectionKey × Process) :=
  let inodeToProcess := buildInodeMap proc.entries
  tableRows proc.tcp .tcp inodeToProcess ++ tableRows proc.tcp6 .tcp inodeToProcess ++
    tableRows proc.udp .udp inodeToProcess ++ tableRows proc.udp6 .udp inodeToProcess

theorem buildProcessMap_eq (proc : ProcFs) : buildProcessMap proc = processMap proc.rows := by
  simp only [buildProcessMap, parseAndMap_eq, processMap, ProcFs.rows, AList.insertAll,
    List.foldl_append]

end RustNet.Host
