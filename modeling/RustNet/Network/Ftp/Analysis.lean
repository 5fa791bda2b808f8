import RustNet.Foundations.Access
import RustNet.Foundations.Text
import RustNet.Network.Tls.HostName
import RustNet.Network.Types.Application

/-!
# FTP payloads

`is_ftp` decides whether a payload is claimed for FTP, `analyze_ftp` reads it. Both look at the
first line only: three digits with a blank or a dash behind them are a reply, and a known command
as the first word is a request. Everything the parser converts on the way is ASCII by then.

The functions with an index or a slice are programs over `Access`, in `Ftp.Program`: with checks
they are those of `Ftp.Indexed`, and without checks those of `Ftp`. No payload makes a check fail.

## Main definitions

* `Ftp.Program.isFtp`, `Ftp.Program.analyzeFtp`, and their readings `Ftp.isFtp`, `Ftp.analyzeFtp`
  and `Ftp.Indexed.isFtp`, `Ftp.Indexed.analyzeFtp`;
* `FtpInfo.WellFormed`: the fields of a command, or those of a reply.

## Main results

* `Ftp.Indexed.isFtp_eq`, `Ftp.Indexed.analyzeFtp_eq`: with checks they return, and return the same;
* `Ftp.isFtp_eq_isSome`: a payload is claimed exactly if it is read;
* `Ftp.analyzeFtp_wellFormed`: what is read is a command or a reply.
-/

namespace RustNet

/-- `u8::is_ascii_digit`: the bytes of `0` to `9`. -/
def isAsciiDigit (b : UInt8) : Bool := decide (0x30 ≤ b ∧ b ≤ 0x39)

/-- `u8::is_ascii_alphabetic`: the bytes of the letters, capital or not. -/
def isAsciiAlphabetic (b : UInt8) : Bool :=
  decide (0x41 ≤ b ∧ b ≤ 0x5A) || decide (0x61 ≤ b ∧ b ≤ 0x7A)

/-- `u8::to_ascii_uppercase`: other bytes stay as they are. -/
def toAsciiUppercase (b : UInt8) : UInt8 := if 0x61 ≤ b ∧ b ≤ 0x7A then b - 0x20 else b

namespace Ftp

/-- `MAX_SNIFF_BYTES`: the line is looked for in as many bytes. -/
def maxSniffBytes : ℕ := 1024

/-- `FTP_COMMANDS`, in the order of the source. -/
def ftpCommands : List String :=
  ["USER", "PASS", "ACCT", "CWD", "CDUP", "SMNT", "QUIT", "REIN",
    "PORT", "PASV", "TYPE", "STRU", "MODE",
    "RETR", "STOR", "STOU", "APPE", "ALLO", "REST", "RNFR", "RNTO", "ABOR", "DELE", "RMD", "MKD",
    "PWD", "LIST", "NLST", "SITE", "SYST", "STAT", "HELP", "NOOP",
    "FEAT", "OPTS",
    "EPSV", "EPRT",
    "AUTH", "PBSZ", "PROT", "CCC",
    "SIZE", "MDTM", "MLSD", "MLST"]

/-- `trim_matches` of the characters that are neither letters nor digits of ASCII. -/
def trimPunctuation (token : List Char) : List Char :=
  (token.dropWhile fun c => !c.isAlphanum).rdropWhile fun c => !c.isAlphanum

/-- `extract_software_token`: the first word of a greeting with a letter in it, or the greeting. -/
def extractSoftwareToken (message : String) : String :=
  let tokens := (Text.splitWhitespace message.toList).map trimPunctuation
  match tokens.find? fun token => token.any Char.isAlpha with
  | some token => String.ofList token
  | none => message

/-- The token, in capitals, is one of the commands: `FTP_COMMANDS.iter().any(..)`. -/
def isFtpCommand (upper : List UInt8) : Bool := ftpCommands.any fun cmd => nameBytes cmd == upper

/-- The arguments of a command: what follows the first whitespace of the trimmed line. -/
def commandArgs (line : List UInt8) : Option String :=
  ((fromUtf8 line).bind fun text =>
    let chars := Text.trim text.toList
    if chars.any Text.isWhitespace then
      some (String.ofList (Text.trim (chars.dropWhile fun c => !Text.isWhitespace c).tail))
    else none).filter fun args => !args.isEmpty

/-! ## Programs -/

namespace Program

open Access

variable {m : Type → Type} [Access m]

/-- `first_line`: without the line break and a carriage return before it. -/
def firstLine (payload : List UInt8) : m (List UInt8) := do
  let sniff ← sliceTo payload (min payload.length maxSniffBytes)
  match sniff.findIdx? (· == 0x0A) with
  | none => return sniff
  | some stop =>
    if 0 < stop then do
      let before ← sub stop 1
      let last ← index sniff before
      if last = 0x0D then sliceTo sniff before else sliceTo sniff stop
    else sliceTo sniff stop

/-- `first_token_upper`: the first word in upper case, or nothing if it cannot be a command. -/
def firstTokenUpper (line : List UInt8) : m (List UInt8) := do
  let tokenEnd := line.findIdx fun b => b == 0x20 || b == 0x09 || b == 0x0D
  let token ← sliceTo line tokenEnd
  if token.isEmpty || decide (6 < token.length) then return []
  if !token.all isAsciiAlphabetic then return []
  return token.map toAsciiUppercase

/-- The test for a reply that `is_ftp` and `analyze_ftp` both make: three digits and a blank or a
dash. -/
def startsWithReplyCode (line : List UInt8) : m Bool := do
  if line.length < 4 then return false
  let d₁ ← index line 0
  if isAsciiDigit d₁ = false then return false
  let d₂ ← index line 1
  if isAsciiDigit d₂ = false then return false
  let d₃ ← index line 2
  if isAsciiDigit d₃ = false then return false
  let sep ← index line 3
  return sep == 0x20 || sep == 0x2D

/-- `is_ftp`: the first line starts with a reply code, or its first token is a command. -/
def isFtp (payload : List UInt8) : m Bool := do
  let line ← firstLine payload
  if line.isEmpty = true then return false
  if ← startsWithReplyCode line then return true
  let upper ← firstTokenUpper line
  if upper.isEmpty = true then return false
  return isFtpCommand upper

/-- The branch of `analyze_ftp` for replies. -/
def analyzeReply (line : List UInt8) : m (Option FtpInfo) := do
  let codeBytes ← slice line 0 3
  match (fromUtf8 codeBytes).bind fun digits => Text.fromStrRadix 10 16 digits.toList with
  | none => return none
  | some code => do
    let sep ← index line 3
    let behind ← sliceFrom line 4
    -- a hyphen says that more lines of the reply follow
    let isContinuation := sep == 0x2D
    let message := (fromUtf8 behind).map fun text => String.ofList (Text.trim text.toList)
    return some
      { messageType := .response
        command := none
        args := none
        responseCode := some (UInt16.ofNat code)
        responseMessage := message
        username := none
        -- the greeting and the reply to SYST name the server
        serverSoftware :=
          if code = 220 ∧ isContinuation = false then message.map extractSoftwareToken else none
        systemType :=
          if code = 215 ∧ isContinuation = false then message.map extractSoftwareToken else none }

/-- `analyze_ftp`: the code and the text of a reply, or the command and its arguments. -/
def analyzeFtp (payload : List UInt8) : m (Option FtpInfo) := do
  let line ← firstLine payload
  if line.isEmpty = true then return none
  if ← startsWithReplyCode line then analyzeReply line
  else do
    let upper ← firstTokenUpper line
    if upper.isEmpty = true then return none
    if isFtpCommand upper = false then return none
    return (fromUtf8 upper).map fun command =>
      let args := commandArgs line
      { messageType := .request
        command := some command
        args := args
        responseCode := none
        responseMessage := none
        username := if command = "USER" then args else none
        serverSoftware := none
        systemType := none }

end Program

/-- `is_ftp`, read without checks. -/
def isFtp (payload : List UInt8) : Bool := Id.run (Program.isFtp payload)

/-- `analyze_ftp`, read without checks. -/
def analyzeFtp (payload : List UInt8) : Option FtpInfo := Id.run (Program.analyzeFtp payload)

namespace Indexed

/-- `is_ftp`, with its accesses checked. -/
def isFtp (payload : List UInt8) : Checked Bool := Program.isFtp payload

/-- `analyze_ftp`, with its accesses checked. -/
def analyzeFtp (payload : List UInt8) : Checked (Option FtpInfo) := Program.analyzeFtp payload

end Indexed

/-! ## Every access is in range -/

namespace Program

open Access

variable {line : List UInt8}

theorem agrees_firstLine (payload : List UInt8) :
    Agrees (firstLine payload) (firstLine payload) := by
  refine (agrees_sliceTo (Nat.min_le_left _ _)).bind ?_
  generalize payload.take (min payload.length maxSniffBytes) = sniff
  cases hfound : sniff.findIdx? (· == 0x0A) with
  | none => exact agrees_pure _
  | some stop =>
    have hlt : stop < sniff.length := (List.findIdx?_eq_some_iff_getElem.mp hfound).1
    refine Agrees.ite (fun hpos => ?_) fun _ => agrees_sliceTo hlt.le
    -- the byte before the line break
    have hbefore : stop - 1 < sniff.length := by omega
    refine (agrees_sub hpos).bind ((agrees_index hbefore).bind ?_)
    exact Agrees.ite (fun _ => agrees_sliceTo hbefore.le) fun _ => agrees_sliceTo hlt.le

theorem agrees_firstTokenUpper (line : List UInt8) :
    Agrees (firstTokenUpper line) (firstTokenUpper line) := by
  refine (agrees_sliceTo List.findIdx_le_length).bind ?_
  exact Agrees.ite (fun _ => agrees_pure _) fun _ => Agrees.ite (fun _ => agrees_pure _)
    fun _ => agrees_pure _

theorem agrees_startsWithReplyCode (line : List UInt8) :
    Agrees (startsWithReplyCode line) (startsWithReplyCode line) := by
  refine Agrees.ite (fun _ => agrees_pure _) fun hlength => ?_
  refine (agrees_index (by omega)).bind (Agrees.ite (fun _ => agrees_pure _) fun _ => ?_)
  refine (agrees_index (by omega)).bind (Agrees.ite (fun _ => agrees_pure _) fun _ => ?_)
  refine (agrees_index (by omega)).bind (Agrees.ite (fun _ => agrees_pure _) fun _ => ?_)
  exact (agrees_index (by omega)).bind (agrees_pure _)

/-- A reply has four bytes. -/
theorem four_le_of_startsWithReplyCode (h : Id.run (startsWithReplyCode line) = true) :
    4 ≤ line.length := by
  by_contra hshort
  unfold startsWithReplyCode at h
  rw [if_pos (Nat.not_le.mp hshort)] at h
  cases h

theorem agrees_analyzeReply (h : 4 ≤ line.length) :
    Agrees (analyzeReply line) (analyzeReply line) := by
  refine (agrees_slice (Nat.zero_le _) (by omega)).bind ?_
  dsimp only
  split
  · exact agrees_pure _
  · exact (agrees_index (by omega)).bind ((agrees_sliceFrom h).bind (agrees_pure _))

end Program

namespace Indexed

open Access

/-- With its accesses checked, `is_ftp` returns, and it returns the same. -/
theorem isFtp_eq (payload : List UInt8) : isFtp payload = pure (Ftp.isFtp payload) := by
  show Agrees (Program.isFtp payload) (Program.isFtp payload)
  refine (Program.agrees_firstLine payload).bind (Agrees.ite (fun _ => agrees_pure _) fun _ => ?_)
  refine (Program.agrees_startsWithReplyCode _).bind ?_
  refine Agrees.ite (fun _ => agrees_pure _) fun _ => ?_
  refine (Program.agrees_firstTokenUpper _).bind ?_
  exact Agrees.ite (fun _ => agrees_pure _) fun _ => agrees_pure _

/-- So does `analyze_ftp`. -/
theorem analyzeFtp_eq (payload : List UInt8) :
    analyzeFtp payload = pure (Ftp.analyzeFtp payload) := by
  show Agrees (Program.analyzeFtp payload) (Program.analyzeFtp payload)
  refine (Program.agrees_firstLine payload).bind (Agrees.ite (fun _ => agrees_pure _) fun _ => ?_)
  refine (Program.agrees_startsWithReplyCode _).bind ?_
  refine Agrees.ite (fun hreply => ?_) fun _ => ?_
  · exact Program.agrees_analyzeReply (Program.four_le_of_startsWithReplyCode hreply)
  · refine (Program.agrees_firstTokenUpper _).bind ?_
    exact Agrees.ite (fun _ => agrees_pure _) fun _ =>
      Agrees.ite (fun _ => agrees_pure _) fun _ => agrees_pure _

end Indexed

/-! ## The detector and the parser -/

theorem lt_of_isAsciiDigit {b : UInt8} (h : isAsciiDigit b = true) : b < 0x80 := by
  rw [isAsciiDigit, decide_eq_true_iff] at h
  exact UInt8.lt_of_le_of_lt h.2 (by decide)

/-- A digit is a digit as a character. -/
theorem isDigit_of_isAsciiDigit {b : UInt8} (h : isAsciiDigit b = true) :
    (Char.ofNat b.toNat).isDigit = true := by
  rw [isAsciiDigit, decide_eq_true_iff, UInt8.le_iff_toNat_le, UInt8.le_iff_toNat_le] at h
  obtain ⟨hlow, hhigh⟩ := h
  have hlow' : 48 ≤ b.toNat := hlow
  have hhigh' : b.toNat ≤ 57 := hhigh
  generalize b.toNat = n at hlow' hhigh'
  interval_cases n <;> decide

theorem lt_of_isAsciiAlphabetic {b : UInt8} (h : isAsciiAlphabetic b = true) :
    toAsciiUppercase b < 0x80 := by
  simp only [isAsciiAlphabetic, Bool.or_eq_true, decide_eq_true_iff, UInt8.le_iff_toNat_le] at h
  rw [toAsciiUppercase, UInt8.lt_iff_toNat_lt]
  simp only [UInt8.le_iff_toNat_le]
  split_ifs with hlower
  · rw [UInt8.toNat_sub_of_le _ _ (UInt8.le_iff_toNat_le.mpr (hlower.1.trans' (by decide)))]
    exact (Nat.sub_le _ _).trans_lt (hlower.2.trans_lt (by decide))
  · have hupper := h.resolve_right hlower
    exact hupper.2.trans_lt (by decide)

/-- What is compared with the commands is ASCII. -/
theorem lt_of_mem_firstTokenUpper {line : List UInt8} {b : UInt8}
    (h : b ∈ Id.run (Program.firstTokenUpper line)) : b < 0x80 := by
  simp only [Program.firstTokenUpper, Id.run_bind, Access.run_ite, Id.run_pure] at h
  split_ifs at h with hlength hletters
  · cases h
  · cases h
  · obtain ⟨a, ha, rfl⟩ := List.mem_map.mp h
    rw [Bool.not_eq_true', Bool.not_eq_false] at hletters
    exact lt_of_isAsciiAlphabetic (List.all_eq_true.mp hletters a ha)

/-- A reply begins with three digits. -/
theorem exists_digits_of_startsWithReplyCode {line : List UInt8}
    (h : Id.run (Program.startsWithReplyCode line) = true) :
    ∃ d₁ d₂ d₃ rest, line = d₁ :: d₂ :: d₃ :: rest ∧
      ∀ b ∈ [d₁, d₂, d₃], isAsciiDigit b = true := by
  have hlength := Program.four_le_of_startsWithReplyCode h
  match line, hlength with
  | d₁ :: d₂ :: d₃ :: sep :: rest, _ =>
    refine ⟨d₁, d₂, d₃, sep :: rest, rfl, ?_⟩
    simp only [Program.startsWithReplyCode, Id.run_bind, Access.run_ite, Access.run_index,
      Id.run_pure] at h
    split_ifs at h with hshort h₁ h₂ h₃
    rw [Bool.not_eq_false] at h₁ h₂ h₃
    rw [List.forall_mem_cons, List.forall_mem_cons, List.forall_mem_singleton]
    exact ⟨h₁, h₂, h₃⟩

/-- The code of a reply is read. -/
theorem exists_replyCode {line : List UInt8}
    (h : Id.run (Program.startsWithReplyCode line) = true) :
    ∃ digits code, fromUtf8 (line.take 3) = some digits ∧
      Text.fromStrRadix 10 16 digits.toList = some code := by
  obtain ⟨d₁, d₂, d₃, rest, rfl, hdigits⟩ := exists_digits_of_startsWithReplyCode h
  have hcode : ∃ n, Text.fromStrRadix 10 16 (asciiText [d₁, d₂, d₃]).toList = some n := by
    apply Text.exists_fromStrRadix_digits
    · simp [asciiText]
    · intro c hc
      rw [asciiText, String.toList_ofList] at hc
      obtain ⟨b, hb, rfl⟩ := List.mem_map.mp hc
      exact isDigit_of_isAsciiDigit (hdigits b hb)
    · simp [asciiText]
  obtain ⟨code, hcode⟩ := hcode
  exact ⟨_, code, fromUtf8_ascii fun b hb => lt_of_isAsciiDigit (hdigits b hb), hcode⟩

/-- A reply is reported with its code. -/
theorem exists_analyzeReply {line : List UInt8}
    (h : Id.run (Program.startsWithReplyCode line) = true) :
    ∃ info, Id.run (Program.analyzeReply line) = some info ∧ info.messageType = .response ∧
      info.responseCode.isSome = true ∧ info.command = none ∧ info.args = none := by
  obtain ⟨digits, code, hdigits, hcode⟩ := exists_replyCode h
  have hread : (fromUtf8 ((line.drop 0).take (3 - 0))).bind (fun digits =>
      Text.fromStrRadix 10 16 digits.toList) = some code := by
    rw [List.drop_zero, hdigits, Option.bind_some, hcode]
  simp only [Program.analyzeReply, Id.run_bind, Access.run_slice, hread]
  exact ⟨_, rfl, rfl, rfl, rfl, rfl⟩

/-- **A payload is claimed as FTP exactly if it is read as FTP.** The gate looks at the first token
or the reply code, and the analysis, which takes the line apart, turns away nothing that the gate
lets through. The payload is any sequence of bytes, text or not. -/
theorem isFtp_eq_isSome (payload : List UInt8) :
    isFtp payload = (analyzeFtp payload).isSome := by
  simp only [isFtp, analyzeFtp, Program.isFtp, Program.analyzeFtp, Id.run_bind, Access.run_ite,
    Id.run_pure]
  split_ifs with hempty hreply hupper hcommand
  · rfl
  · -- the conversions of a reply code do not fail
    obtain ⟨info, hinfo, -⟩ := exists_analyzeReply hreply
    rw [hinfo]
    rfl
  · rfl
  · exact hcommand
  · -- nor does that of a command
    have htext : fromUtf8 (Id.run (Program.firstTokenUpper (Id.run (Program.firstLine payload)))) =
        some _ := fromUtf8_ascii fun b hb => lt_of_mem_firstTokenUpper hb
    rw [htext]
    simpa using hcommand

end Ftp

/-! ## What is read -/

/-- A command has its own fields only, and so has a reply. -/
def FtpInfo.WellFormed (info : FtpInfo) : Prop :=
  match info.messageType with
  | .request => info.command.isSome ∧ info.responseCode = none ∧ info.responseMessage = none
  | .response => info.responseCode.isSome ∧ info.command = none ∧ info.args = none

/-- What is read is a command or a reply. -/
theorem Ftp.analyzeFtp_wellFormed {payload : List UInt8} {info : FtpInfo}
    (h : analyzeFtp payload = some info) : info.WellFormed := by
  simp only [analyzeFtp, Program.analyzeFtp, Id.run_bind, Access.run_ite, Id.run_pure] at h
  split_ifs at h with hempty hreply hupper hcommand
  · obtain ⟨reply, hanalyzed, htype, hcode, hcommand, hargs⟩ := exists_analyzeReply hreply
    obtain rfl := Option.some.inj (hanalyzed.symm.trans h)
    unfold FtpInfo.WellFormed
    rw [htype]
    exact ⟨hcode, hcommand, hargs⟩
  · obtain ⟨command, -, rfl⟩ := Option.map_eq_some_iff.mp h
    exact ⟨rfl, rfl, rfl⟩

end RustNet
