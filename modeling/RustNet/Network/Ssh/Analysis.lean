import RustNet.Foundations.Access
import RustNet.Foundations.BigEndian
import RustNet.Foundations.Text
import RustNet.Network.LossyText
import RustNet.Network.Types.Application

/-!
# SSH payloads

`analyze_ssh`: the version banner among the lines of a payload, the state that the first SSH message
in it shows, and the names of algorithms. Who sent a banner is taken from the direction of the
packet.

The parser is a program over `Access`, in `Ssh.Program`, with a reading that checks its accesses and
one that does not. No payload that a slice can hold makes a check fail.

## Main definitions

* `Ssh.Program.parseSshBanner`, `Ssh.Program.isLikelySsh`, `Ssh.Program.analyzeSsh`;
* `Ssh.isLikelySsh`, `Ssh.analyzeSsh`, and those of `Ssh.Indexed`: their readings;
* `Ssh.banners`: the banners among the lines of a payload.

## Main results

* `Ssh.Indexed.isLikelySsh_eq`, `Ssh.Indexed.analyzeSsh_eq`: with checks they return, and return the
  same;
* `Ssh.analyzeSsh_clientSoftware`, `Ssh.analyzeSsh_serverSoftware`: the first banner of an outgoing
  packet is the client's, that of an incoming one the server's.
-/

namespace RustNet

namespace Ssh

/-! ## Banners -/

/-- `BannerInfo`: the version and the software that a line of identification names. -/
structure BannerInfo where
  version : SshVersion
  software : String

/-- `line.splitn(n, sep)`: at most `n` pieces of the line, the last of which keeps the separators
that are left. -/
def splitn (sep : Char) : ℕ → List Char → List (List Char)
  | 0, _ => []
  | 1, line => [line]
  | n + 2, line =>
    if sep ∈ line then line.takeWhile (· ≠ sep) :: splitn sep (n + 1) (line.dropWhile (· ≠ sep)).tail
    else [line]

/-- The match on the version of a banner; an unknown one is taken for the second. -/
def sshVersion (version : List Char) : SshVersion :=
  if version = "1.99".toList ∨ version = "2.0".toList then .v2
  else if "1.".toList.isPrefixOf version then .v1
  else .v2

/-- A banner is taken for the client's or the server's, unless that side has one already. -/
def assignBanner (isOutgoing : Bool) (info : SshInfo) (banner : BannerInfo) : SshInfo :=
  if isOutgoing then
    if info.clientSoftware.isNone then
      { info with clientSoftware := some banner.software, version := some banner.version }
    else info
  else
    if info.serverSoftware.isNone then
      { info with serverSoftware := some banner.software, version := some banner.version }
    else info

/-! ## Messages -/

/-- The match on `msg_type`: the messages that show a state. -/
def messageState (msgType : ℕ) : Option SshConnectionState :=
  if msgType = 20 ∨ msgType = 21 then some .keyExchange
  else if msgType = 50 ∨ msgType = 51 then some .authentication
  else if msgType = 52 ∨ (90 ≤ msgType ∧ msgType ≤ 127) then some .established
  else none

/-- `common_algos`: the names that the source looks for anywhere in the payload's text. -/
def commonAlgos : List String :=
  ["diffie-hellman-group14-sha256", "ecdh-sha2-nistp256", "aes128-ctr", "aes256-ctr", "aes128-gcm",
    "aes256-gcm", "ssh-rsa", "ssh-ed25519", "ecdsa-sha2-nistp256", "hmac-sha2-256",
    "hmac-sha2-512"]

/-- `parse_kexinit_algorithms`, with no algorithms for `None`. -/
def parseKexinitAlgorithms (payload : List UInt8) : List String :=
  commonAlgos.filter fun algo => Text.contains (fromUtf8Lossy payload) algo.toList

/-! ## Programs -/

namespace Program

open Access

variable {m : Type → Type} [Access m]

/-- `parse_ssh_banner`: the version up to the second hyphen, and the software behind it. -/
def parseSshBanner (line : List Char) : m (Option BannerInfo) := do
  if "SSH-".toList.isPrefixOf line = false then return none
  let parts := splitn '-' 3 line
  if parts.length < 2 then return none
  let version ← index parts 1
  if 3 ≤ parts.length then do
    let software ← index parts 2
    return some ⟨sshVersion version, String.ofList (Text.trim software)⟩
  else return some ⟨sshVersion version, "Unknown"⟩

/-- The banners among some lines, in order. -/
def bannersOf : List (List Char) → m (List BannerInfo)
  | [] => return []
  | line :: lines => do
    let banner? ← parseSshBanner line
    let banners ← bannersOf lines
    return banner?.toList ++ banners

/-- `is_valid_ssh_packet_at_offset`: the length, the padding and the type of a binary packet are in
the ranges that the protocol allows. -/
def isValidSshPacketAtOffset (payload : List UInt8) (offset : ℕ) : m Bool := do
  let headerEnd ← add offset 6
  if payload.length < headerEnd then return false
  let lengthBytes ← indices payload offset 4
  let packetLength := BigEndian.value lengthBytes
  let paddingLength ← index payload (offset + 4)
  let msgType ← index payload (offset + 5)
  if packetLength < 8 ∨ 35000 < packetLength then return false
  if paddingLength.toNat < 4 then return false
  if packetLength ≤ paddingLength.toNat + 1 then return false
  return (1 ≤ msgType.toNat && msgType.toNat ≤ 4) || (20 ≤ msgType.toNat && msgType.toNat ≤ 21) ||
    (50 ≤ msgType.toNat && msgType.toNat ≤ 52) || msgType.toNat == 80 ||
    (90 ≤ msgType.toNat && msgType.toNat ≤ 100)

/-- The body of the loop over the offsets. -/
def stateAt (payload : List UInt8) (i : ℕ) : m (Option SshConnectionState) := do
  let headerEnd ← add i 6
  if payload.length < headerEnd then return none
  if ← isValidSshPacketAtOffset payload i then do
    let msgType ← index payload (i + 5)
    return messageState msgType.toNat
  else return none

/-- The loop over the offsets of a payload: the first message that shows a state. -/
def packetState (payload : List UInt8) : m (Option SshConnectionState) :=
  (List.range (payload.length - 6)).findSomeM? (stateAt payload)

/-- `is_likely_ssh`: the payload begins with an identification of version 1 or 2, or with a binary
packet. -/
def isLikelySsh (payload : List UInt8) : m Bool := do
  if payload.length < 4 then return false
  -- "SSH-1." and "SSH-2."
  if List.isPrefixOf [0x53, 0x53, 0x48, 0x2D, 0x31, 0x2E] payload ||
      List.isPrefixOf [0x53, 0x53, 0x48, 0x2D, 0x32, 0x2E] payload then return true
  if payload.length < 6 then return false
  isValidSshPacketAtOffset payload 0

/-- `analyze_ssh`: the identifications among the lines, which are assigned by the payload's
direction, the state by the first binary packet that tells it, and the algorithms. -/
def analyzeSsh (payload : List UInt8) (isOutgoing : Bool) : m (Option SshInfo) := do
  if ← isLikelySsh payload then do
    let start : SshInfo := ⟨none, none, none, .banner, [], none⟩
    let banners ← bannersOf (Text.lines (fromUtf8Lossy payload))
    let info := banners.foldl (assignBanner isOutgoing) start
    let state ← packetState payload
    return some
      { info with
        connectionState := state.getD .banner
        algorithms := parseKexinitAlgorithms payload }
  else return none

end Program

/-- `is_valid_ssh_packet_at_offset`, with its indices read where they are: the answer when none of
them fails. -/
def isValidSshPacketAtOffset (payload : List UInt8) (offset : ℕ) : Bool :=
  Id.run (Program.isValidSshPacketAtOffset payload offset)

/-- The loop over the offsets of a payload: the first message that shows a state. -/
def packetState (payload : List UInt8) : Option SshConnectionState :=
  Id.run (Program.packetState payload)

/-- `is_likely_ssh`, with its indices read where they are: the answer when none of them fails. -/
def isLikelySsh (payload : List UInt8) : Bool := Id.run (Program.isLikelySsh payload)

/-- The banners among the lines of a payload. -/
def banners (payload : List UInt8) : List BannerInfo :=
  Id.run (Program.bannersOf (Text.lines (fromUtf8Lossy payload)))

/-- `analyze_ssh`, with its indices read where they are: the record when none of them fails. -/
def analyzeSsh (payload : List UInt8) (isOutgoing : Bool) : Option SshInfo :=
  Id.run (Program.analyzeSsh payload isOutgoing)

namespace Indexed

/-- `is_likely_ssh`, with its accesses checked. -/
def isLikelySsh (payload : List UInt8) : Checked Bool := Program.isLikelySsh payload

/-- `analyze_ssh`, with its accesses checked. -/
def analyzeSsh (payload : List UInt8) (isOutgoing : Bool) : Checked (Option SshInfo) :=
  Program.analyzeSsh payload isOutgoing

end Indexed

/-! ## Every access is in range -/

section Agreement

open Access

variable {payload : List UInt8}

theorem Program.agrees_bannersOf (lines : List (List Char)) :
    Agrees (bannersOf lines) (bannersOf lines) := by
  have hbanner (line : List Char) : Agrees (parseSshBanner line) (parseSshBanner line) := by
    refine Agrees.ite (fun _ => agrees_pure _) fun _ => ?_
    refine Agrees.ite (fun _ => agrees_pure _) fun htwo => (agrees_index (by omega)).bind ?_
    exact Agrees.ite (fun hthree => (agrees_index (by omega)).bind (agrees_pure _))
      fun _ => agrees_pure _
  induction lines with
  | nil => exact agrees_pure _
  | cons line lines ih => exact (hbanner line).bind (ih.bind (agrees_pure _))

theorem Program.agrees_isValidSshPacketAtOffset {offset : ℕ} (h : offset + 6 < 2 ^ 64) :
    Agrees (isValidSshPacketAtOffset payload offset) (isValidSshPacketAtOffset payload offset) := by
  refine (agrees_add h).bind (Agrees.ite (fun _ => agrees_pure _) fun hend => ?_)
  refine (agrees_indices (by omega)).bind ?_
  refine (agrees_index (by omega)).bind ((agrees_index (by omega)).bind ?_)
  refine Agrees.ite (fun _ => agrees_pure _) fun _ => ?_
  exact Agrees.ite (fun _ => agrees_pure _) fun _ => Agrees.ite (fun _ => agrees_pure _)
    fun _ => agrees_pure _

theorem Program.agrees_packetState (hlen : payload.length < 2 ^ 63) :
    Agrees (packetState payload) (packetState payload) := by
  refine agrees_findSomeM fun i hi => ?_
  have hlt := List.mem_range.mp hi
  refine (agrees_add (by omega)).bind (Agrees.ite (fun _ => agrees_pure _) fun _ => ?_)
  refine (agrees_isValidSshPacketAtOffset (by omega)).bind ?_
  exact Agrees.ite (fun _ => (agrees_index (by omega)).bind (agrees_pure _)) fun _ => agrees_pure _

/-- With its accesses checked, `is_likely_ssh` returns, and it returns the same. -/
theorem Indexed.isLikelySsh_eq (payload : List UInt8) :
    Indexed.isLikelySsh payload = pure (Ssh.isLikelySsh payload) := by
  show Agrees (Program.isLikelySsh payload) (Program.isLikelySsh payload)
  refine Agrees.ite (fun _ => agrees_pure _) fun _ => ?_
  refine Agrees.ite (fun _ => agrees_pure _) fun _ => ?_
  exact Agrees.ite (fun _ => agrees_pure _) fun _ =>
    Program.agrees_isValidSshPacketAtOffset (by decide)

/-- So does `analyze_ssh`. -/
theorem Indexed.analyzeSsh_eq (hlen : payload.length < 2 ^ 63) (isOutgoing : Bool) :
    Indexed.analyzeSsh payload isOutgoing = pure (Ssh.analyzeSsh payload isOutgoing) := by
  show Agrees (Program.analyzeSsh payload isOutgoing) (Program.analyzeSsh payload isOutgoing)
  have hlikely : Agrees (Program.isLikelySsh payload) (Program.isLikelySsh payload) :=
    Indexed.isLikelySsh_eq payload
  refine hlikely.bind (Agrees.ite (fun _ => ?_) fun _ => agrees_pure _)
  refine (Program.agrees_bannersOf _).bind ?_
  exact (Program.agrees_packetState hlen).bind (agrees_pure _)

end Agreement

/-! ## What looks like SSH -/

section Likely

variable {payload : List UInt8} {offset : ℕ}

/-- A packet declares no more bytes than a message may have. -/
theorem packetLength_le (h : isValidSshPacketAtOffset payload offset = true) :
    BigEndian.value ((payload.drop offset).take 4) ≤ 35000 := by
  simp only [isValidSshPacketAtOffset, Program.isValidSshPacketAtOffset, Id.run_bind,
    Access.run_add, Access.run_ite, Access.run_indices, Access.run_index, Id.run_pure] at h
  split_ifs at h with hshort hlength hpadding hfits
  exact Nat.not_lt.mp fun hlong => hlength (.inr hlong)

/-- What looks like SSH begins with a version, or with a packet. -/
theorem isLikelySsh_cases (h : isLikelySsh payload = true) :
    [0x53, 0x53, 0x48, 0x2D, 0x31, 0x2E] <+: payload ∨
      [0x53, 0x53, 0x48, 0x2D, 0x32, 0x2E] <+: payload ∨
      6 ≤ payload.length ∧ isValidSshPacketAtOffset payload 0 = true := by
  simp only [isLikelySsh, Program.isLikelySsh, Access.run_ite, Id.run_pure] at h
  split_ifs at h with hshort hversion hsix
  · rw [Bool.or_eq_true, List.isPrefixOf_iff_prefix, List.isPrefixOf_iff_prefix] at hversion
    exact hversion.imp_right Or.inl
  · exact .inr (.inr ⟨Nat.not_lt.mp hsix, h⟩)

end Likely

/-! ## Software -/

section Software

variable {payload : List UInt8} {isOutgoing : Bool} {info : SshInfo}

/-- The software of a payload's first banner. -/
def firstSoftware (payload : List UInt8) : Option String :=
  (banners payload).head?.map BannerInfo.software

theorem foldl_assignBanner_outgoing (info : SshInfo) (bs : List BannerInfo) :
    (bs.foldl (assignBanner true) info).clientSoftware =
        info.clientSoftware.or (bs.head?.map BannerInfo.software) ∧
      (bs.foldl (assignBanner true) info).serverSoftware = info.serverSoftware := by
  induction bs generalizing info with
  | nil => exact ⟨Option.or_none.symm, rfl⟩
  | cons b bs ih =>
    rw [List.foldl_cons, (ih _).1, (ih _).2, assignBanner, if_pos rfl]
    rcases hclient : info.clientSoftware with _ | software
    · exact ⟨rfl, rfl⟩
    · rw [Option.isNone_some, if_neg Bool.false_ne_true, hclient]
      exact ⟨rfl, rfl⟩

theorem foldl_assignBanner_incoming (info : SshInfo) (bs : List BannerInfo) :
    (bs.foldl (assignBanner false) info).serverSoftware =
        info.serverSoftware.or (bs.head?.map BannerInfo.software) ∧
      (bs.foldl (assignBanner false) info).clientSoftware = info.clientSoftware := by
  induction bs generalizing info with
  | nil => exact ⟨Option.or_none.symm, rfl⟩
  | cons b bs ih =>
    rw [List.foldl_cons, (ih _).1, (ih _).2, assignBanner, if_neg Bool.false_ne_true]
    rcases hserver : info.serverSoftware with _ | software
    · exact ⟨rfl, rfl⟩
    · rw [Option.isNone_some, if_neg Bool.false_ne_true, hserver]
      exact ⟨rfl, rfl⟩

/-- What looks like SSH is reported, with its banners, its state and its algorithms. -/
theorem analyzeSsh_eq_ite (payload : List UInt8) (isOutgoing : Bool) :
    analyzeSsh payload isOutgoing =
      if isLikelySsh payload then
        some
          { (banners payload).foldl (assignBanner isOutgoing) ⟨none, none, none, .banner, [], none⟩
            with
            connectionState := (packetState payload).getD .banner
            algorithms := parseKexinitAlgorithms payload }
      else none := by
  simp only [analyzeSsh, Program.analyzeSsh, Id.run_bind, Access.run_ite, Id.run_pure]
  rfl

/-- The first banner of an outgoing packet is taken for the client's. -/
theorem analyzeSsh_clientSoftware (h : analyzeSsh payload isOutgoing = some info) :
    info.clientSoftware = if isOutgoing then firstSoftware payload else none := by
  rw [analyzeSsh_eq_ite] at h
  split_ifs at h
  obtain rfl := Option.some.inj h
  cases isOutgoing with
  | true => exact (foldl_assignBanner_outgoing _ _).1
  | false => exact (foldl_assignBanner_incoming _ _).2

/-- The first banner of an incoming packet is taken for the server's. -/
theorem analyzeSsh_serverSoftware (h : analyzeSsh payload isOutgoing = some info) :
    info.serverSoftware = if isOutgoing then none else firstSoftware payload := by
  rw [analyzeSsh_eq_ite] at h
  split_ifs at h
  obtain rfl := Option.some.inj h
  cases isOutgoing with
  | true => exact (foldl_assignBanner_outgoing _ _).2
  | false => exact (foldl_assignBanner_incoming _ _).1

end Software

end Ssh

end RustNet
