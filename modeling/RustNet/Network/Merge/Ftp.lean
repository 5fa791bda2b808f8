import RustNet.Network.Ftp.Analysis
import RustNet.Network.Merge.Results
import RustNet.Network.Types.Texts

/-!
# The dialogue of an FTP connection

The command and its arguments, the code of a reply and its text are to follow the latest message.
The merge replaces each of the four where the new message has it, and leaves it where it has not:
a command without arguments keeps those of an earlier one, and a reply whose text is not UTF-8 the
text of an earlier reply.

## Main definitions

* `FtpArrival`: a packet whose FTP information, if it has any, comes from `analyze_ftp`;
* `LatestWins`: what the record is to show after the last message.

## Main results

* `latestWins_iff`: the record shows the last message exactly if nothing is left over from the
  ones before.
-/

namespace RustNet

open Ftp

/-- A packet whose FTP information comes from the analysis of its payload. -/
structure FtpArrival extends Arrival where
  analyzed : ∀ info, parsed.dpiResult = some ⟨.ftp info⟩ →
    ∃ payload, analyzeFtp payload = some info

/-- The FTP record of a connection. -/
def Connection.ftpInfo (conn : Connection) : Option FtpInfo :=
  conn.dpiInfo.bind fun info => info.application.ftp?

/-- The FTP messages among the packets, in order. -/
def ftpMessages (arrivals : List Arrival) : List FtpInfo :=
  (dpiResults arrivals).filterMap fun result => result.application.ftp?

/-- The first result is an FTP message, so that the connection is one of FTP. -/
def IsFtpConnection (arrivals : List Arrival) : Prop :=
  ((dpiResults arrivals).head?.bind fun result => result.application.ftp?).isSome = true

/-- Where the last message has no arguments or no text, none before it had any. -/
def NothingLeftOver (messages : List FtpInfo) : Prop :=
  ∀ (before : List FtpInfo) (last : FtpInfo), messages = before ++ [last] →
    (last.messageType = .request → last.args = none → ∀ m ∈ before, m.args = none) ∧
      (last.messageType = .response → last.responseMessage = none →
        ∀ m ∈ before, m.responseMessage = none)

section Track

variable [DeepPacketInspection]

/-- The record of the packets. -/
def ftpRecord (first : FtpArrival) (rest : List FtpArrival) : Option FtpInfo :=
  (track first.toArrival (rest.map FtpArrival.toArrival)).ftpInfo

/-- What the record is to show after the last message. -/
structure LatestWins (first : FtpArrival) (rest : List FtpArrival) : Prop where
  /-- After a command, that command with its arguments. -/
  command : ∀ (record : FtpInfo) (before : List FtpInfo) (last : FtpInfo),
    ftpRecord first rest = some record →
      ftpMessages ((first :: rest).map FtpArrival.toArrival) = before ++ [last] →
        last.messageType = .request → record.command = last.command ∧ record.args = last.args
  /-- After a reply, its code and text. -/
  reply : ∀ (record : FtpInfo) (before : List FtpInfo) (last : FtpInfo),
    ftpRecord first rest = some record →
      ftpMessages ((first :: rest).map FtpArrival.toArrival) = before ++ [last] →
        last.messageType = .response →
          record.responseCode = last.responseCode ∧ record.responseMessage = last.responseMessage
  /-- A command is displayed with its own arguments. -/
  display : ∀ (record : FtpInfo) (before : List FtpInfo) (last : FtpInfo),
    ftpRecord first rest = some record →
      ftpMessages ((first :: rest).map FtpArrival.toArrival) = before ++ [last] →
        last.messageType = .request → record.display = last.display

/-! ## The record after the last message -/

variable {first : FtpArrival} {rest : List FtpArrival} {record last : FtpInfo}
  {before : List FtpInfo}

omit [DeepPacketInspection] in
/-- Every message is one that was read. -/
theorem wellFormed_of_mem_ftpMessages {arrivals : List FtpArrival} {message : FtpInfo}
    (h : message ∈ ftpMessages (arrivals.map FtpArrival.toArrival)) : message.WellFormed := by
  obtain ⟨⟨application⟩, hresult, hmessage⟩ := List.mem_filterMap.mp h
  obtain ⟨arrival, harrival, hfound⟩ := List.mem_filterMap.mp hresult
  obtain ⟨a, -, rfl⟩ := List.mem_map.mp harrival
  cases application with
  | ftp info =>
    obtain rfl := Option.some.inj hmessage
    obtain ⟨payload, hpayload⟩ := a.analyzed info hfound
    exact analyzeFtp_wellFormed hpayload
  | _ => cases hmessage

omit [DeepPacketInspection] in
theorem wellFormed_last {arrivals : List FtpArrival}
    (h : ftpMessages (arrivals.map FtpArrival.toArrival) = before ++ [last]) : last.WellFormed := by
  apply wellFormed_of_mem_ftpMessages
  rw [h]
  simp

/-- The record is merged from the messages, if the first result is one. -/
theorem ftpRecord_eq_some (h : ftpRecord first rest = some record) :
    IsFtpConnection ((first :: rest).map FtpArrival.toArrival) ∧
      ∃ i later, ftpMessages ((first :: rest).map FtpArrival.toArrival) = i :: later ∧
        record = later.foldl mergeFtpInfo i := by
  rw [ftpRecord, Connection.ftpInfo, track_of_proj ftp?_mergeApplication, ← List.map_cons] at h
  obtain ⟨i, hi, rfl⟩ := Option.map_eq_some_iff.mp h
  exact ⟨Option.isSome_iff_exists.mpr ⟨i, hi⟩, i, _, filterMap_eq_cons_of_head? hi, rfl⟩

/-- An FTP connection has a record. -/
theorem exists_ftpRecord (h : IsFtpConnection ((first :: rest).map FtpArrival.toArrival)) :
    ∃ record, ftpRecord first rest = some record := by
  rw [ftpRecord, Connection.ftpInfo, track_of_proj ftp?_mergeApplication, ← List.map_cons]
  obtain ⟨i, hi⟩ := Option.isSome_iff_exists.mp h
  exact ⟨_, Option.map_eq_some_iff.mpr ⟨i, hi, rfl⟩⟩

/-- A field that follows the latest message is the last message's, or else an earlier one's. -/
theorem field_ftpRecord {β : Type} (field : FtpInfo → Option β)
    (hfield : ∀ old new, field (mergeFtpInfo old new) = (field new).or (field old))
    (hrecord : ftpRecord first rest = some record)
    (hlast : ftpMessages ((first :: rest).map FtpArrival.toArrival) = before ++ [last]) :
    field record = (field last).or (before.reverse.findSome? field) := by
  obtain ⟨-, i, later, hmessages, rfl⟩ := ftpRecord_eq_some hrecord
  -- the messages backwards, from the last on
  rw [foldl_of_latest hfield, ← hmessages, hlast, List.reverse_append, List.reverse_singleton,
    List.singleton_append, List.findSome?_cons]
  cases field last <;> rfl

/-- It is the last message's own exactly if that has one, or no message before it had. -/
theorem field_ftpRecord_eq_iff {β : Type} {field : FtpInfo → Option β}
    (hfield : ∀ old new, field (mergeFtpInfo old new) = (field new).or (field old))
    (hrecord : ftpRecord first rest = some record)
    (hlast : ftpMessages ((first :: rest).map FtpArrival.toArrival) = before ++ [last]) :
    field record = field last ↔ (field last = none → ∀ m ∈ before, field m = none) := by
  rw [field_ftpRecord field hfield hrecord hlast]
  cases field last with
  | none => simp [List.findSome?_eq_none_iff]
  | some x => simp

theorem messageType_ftpRecord (hrecord : ftpRecord first rest = some record)
    (hlast : ftpMessages ((first :: rest).map FtpArrival.toArrival) = before ++ [last]) :
    record.messageType = last.messageType :=
  Option.some.inj
    (field_ftpRecord (fun info => some info.messageType) (fun _ _ => rfl) hrecord hlast)

/-- **The record shows the last message exactly if nothing is left over from the ones before.** The
messages are those of any sequence of packets of a connection. The merge keeps the arguments and the
text that were there where the new message has none, so they are shown with a command, or a code,
that they do not belong to. -/
theorem latestWins_iff (first : FtpArrival) (rest : List FtpArrival) :
    LatestWins first rest ↔
      (IsFtpConnection ((first :: rest).map FtpArrival.toArrival) →
        NothingLeftOver (ftpMessages ((first :: rest).map FtpArrival.toArrival))) := by
  constructor
  · intro h hftp before last hlast
    obtain ⟨record, hrecord⟩ := exists_ftpRecord hftp
    refine ⟨fun hrequest => ?_, fun hresponse => ?_⟩
    · exact (field_ftpRecord_eq_iff (fun _ _ => rfl) hrecord hlast).mp
        (h.command record before last hrecord hlast hrequest).2
    · exact (field_ftpRecord_eq_iff (fun _ _ => rfl) hrecord hlast).mp
        (h.reply record before last hrecord hlast hresponse).2
  · intro h
    have hcommand : ∀ (record : FtpInfo) (before : List FtpInfo) (last : FtpInfo),
        ftpRecord first rest = some record →
          ftpMessages ((first :: rest).map FtpArrival.toArrival) = before ++ [last] →
            last.messageType = .request →
              record.command = last.command ∧ record.args = last.args := by
      intro record before last hrecord hlast hrequest
      have hread := wellFormed_last hlast
      rw [FtpInfo.WellFormed, hrequest] at hread
      constructor
      · -- a command names itself
        refine (field_ftpRecord_eq_iff (fun _ _ => rfl) hrecord hlast).mpr fun hnone => ?_
        simp [hnone] at hread
      · exact (field_ftpRecord_eq_iff (fun _ _ => rfl) hrecord hlast).mpr
          ((h (ftpRecord_eq_some hrecord).1 before last hlast).1 hrequest)
    refine ⟨hcommand, fun record before last hrecord hlast hresponse => ⟨?_, ?_⟩,
      fun record before last hrecord hlast hrequest => ?_⟩
    · -- and a reply has a code
      have hread := wellFormed_last hlast
      rw [FtpInfo.WellFormed, hresponse] at hread
      refine (field_ftpRecord_eq_iff (fun _ _ => rfl) hrecord hlast).mpr fun hnone => ?_
      simp [hnone] at hread
    · exact (field_ftpRecord_eq_iff (fun _ _ => rfl) hrecord hlast).mpr
        ((h (ftpRecord_eq_some hrecord).1 before last hlast).2 hresponse)
    · obtain ⟨hname, hargs⟩ := hcommand record before last hrecord hlast hrequest
      simp only [FtpInfo.display, messageType_ftpRecord hrecord hlast, hrequest, hname, hargs]

end Track

/-! ## Arguments of another command -/

/-- A packet to port 21 with this message. -/
def sampleFtpArrival (payload : List UInt8) (info : FtpInfo)
    (h : analyzeFtp payload = some info) : FtpArrival where
  parsed :=
    { ParsedPacket.ofTcp (.lan 1 5000) (.lan 2 21)
        { seq := 1
          ack := 1
          window := 512
          flags := ⟨false, false, false, true, true, false⟩
          payloadLen := 10 } true 62 with
      dpiResult := some ⟨.ftp info⟩ }
  now := ⟨0⟩
  clock := .constant 0
  analyzed info' h' := by
    injection h' with h'
    injection h' with h'
    injection h' with h'
    exact ⟨payload, h' ▸ h⟩

/-- A command, with arguments or without. -/
def sampleCommand (command : String) (args : Option String) : FtpInfo :=
  ⟨.request, some command, args, none, none, none, none, none⟩

theorem analyzeFtp_retr :
    analyzeFtp (nameBytes "RETR a.iso\r\n") = some (sampleCommand "RETR" (some "a.iso")) := by
  rfl

theorem analyzeFtp_noop :
    analyzeFtp (nameBytes "NOOP\r\n") = some (sampleCommand "NOOP" none) := by
  rfl

/-- A download, and then a command without arguments, which is shown with the name of the file. -/
theorem not_latestWins_noop :
    letI : DeepPacketInspection := .silent
    ftpRecord (sampleFtpArrival _ _ analyzeFtp_retr) [sampleFtpArrival _ _ analyzeFtp_noop] =
        some (sampleCommand "NOOP" (some "a.iso")) ∧
      (sampleCommand "NOOP" (some "a.iso")).display = "FTP NOOP a.iso" ∧
      ¬ LatestWins (sampleFtpArrival _ _ analyzeFtp_retr)
        [sampleFtpArrival _ _ analyzeFtp_noop] := by
  let _ : DeepPacketInspection := .silent
  have hrecord : ftpRecord (sampleFtpArrival _ _ analyzeFtp_retr)
      [sampleFtpArrival _ _ analyzeFtp_noop] = some (sampleCommand "NOOP" (some "a.iso")) := rfl
  refine ⟨hrecord, by decide, fun h => ?_⟩
  have hargs := (h.command _ [sampleCommand "RETR" (some "a.iso")] (sampleCommand "NOOP" none)
    hrecord rfl rfl).2
  cases hargs

end RustNet
