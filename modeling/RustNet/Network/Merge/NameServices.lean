import RustNet.Network.Merge.Results
import RustNet.Network.Types.Octets

/-!
# The names of DNS, mDNS and LLMNR connections

DNS, mDNS and LLMNR have records of the same shape: a message is a query or a response, and may have
a name. Messages that follow the first are merged for DNS only. For mDNS and LLMNR `merge_dpi_info`
has no arm, so that what the first message says is all that is ever recorded.

## Main definitions

* `NameService`, `NameInfo`: the three protocols, and what their records have in common;
* `RecordsNames`: what the record of a connection is to say about its messages.

## Main results

* `Connection.nameInfo_track`: the record is the fold of the protocol's own merge;
* `recordsNames_iff`: it says what it is to say for DNS, and for mDNS and LLMNR exactly if the first
  message says it already.
-/

namespace RustNet

/-- The protocols that look up names. -/
inductive NameService
  | dns | mdns | llmnr
deriving DecidableEq

/-- What a message says, or a record. -/
structure NameInfo where
  queryName : Option String
  isResponse : Bool
deriving DecidableEq

namespace NameService

/-- What an application record says, if it is one of the protocol. -/
def info? : NameService → ApplicationProtocol → Option NameInfo
  | .dns, .dns info => some ⟨info.queryName, info.isResponse⟩
  | .mdns, .mdns info => some ⟨info.queryName, info.isResponse⟩
  | .llmnr, .llmnr info => some ⟨info.queryName, info.isResponse⟩
  | _, _ => none

/-- What `merge_dpi_info` does with another message of the same protocol. -/
def merge : NameService → NameInfo → NameInfo → NameInfo
  | .dns, old, new => ⟨old.queryName.or new.queryName, old.isResponse || new.isResponse⟩
  -- the arm that keeps the existing protocol
  | .mdns, old, _ => old
  | .llmnr, old, _ => old

/-- The messages of the protocol, in order. -/
def messages (service : NameService) (arrivals : List Arrival) : List NameInfo :=
  (dpiResults arrivals).filterMap fun result => service.info? result.application

/-- The first result, where it is a message of the protocol. -/
def firstMessage (service : NameService) (arrivals : List Arrival) : Option NameInfo :=
  (dpiResults arrivals).head?.bind fun result => service.info? result.application

end NameService

/-- The record of a connection of the protocol. -/
def Connection.nameInfo (service : NameService) (conn : Connection) : Option NameInfo :=
  conn.dpiInfo.bind fun info => service.info? info.application

/-! ## The record of a connection -/

namespace NameService

variable {service : NameService} {arrivals : List Arrival}

/-- The messages of a connection start with its first. -/
theorem messages_of_firstMessage {info : NameInfo}
    (h : service.firstMessage arrivals = some info) :
    service.messages arrivals =
      info :: (dpiResults arrivals).tail.filterMap fun result =>
        service.info? result.application :=
  filterMap_eq_cons_of_head? h

theorem messages_append (l₁ l₂ : List Arrival) :
    service.messages (l₁ ++ l₂) = service.messages l₁ ++ service.messages l₂ := by
  simp [messages, dpiResults_append]

theorem firstMessage_append {l₁ : List Arrival} {info : NameInfo}
    (h : service.firstMessage l₁ = some info) (l₂ : List Arrival) :
    service.firstMessage (l₁ ++ l₂) = some info :=
  head?_bind_dpiResults_append h l₂

/-- The merge for DNS collects the responses and the names. -/
theorem foldl_merge_dns (info : NameInfo) (news : List NameInfo) :
    news.foldl NameService.dns.merge info =
      ⟨(info :: news).findSome? NameInfo.queryName, (info :: news).any NameInfo.isResponse⟩ := by
  induction news generalizing info with
  | nil => cases h : info.queryName <;> simp [← h]
  | cons new news ih =>
    rw [List.foldl_cons, ih]
    cases h : info.queryName <;> simp [merge, h, Bool.or_assoc, List.findSome?_cons]

/-- The other two keep what they have. -/
theorem foldl_merge_of_ne (hservice : service ≠ .dns) (info : NameInfo) (news : List NameInfo) :
    news.foldl service.merge info = info := by
  have hmerge : ∀ old new, service.merge old new = old := by
    cases service with
    | dns => exact absurd rfl hservice
    | mdns => exact fun _ _ => rfl
    | llmnr => exact fun _ _ => rfl
  induction news with
  | nil => rfl
  | cons new news ih => rw [List.foldl_cons, hmerge, ih]

section Track

variable [DeepPacketInspection]

theorem info?_mergeApplication (service : NameService) (old new : ApplicationProtocol) :
    service.info? (mergeApplication old new) =
      (service.info? old).map fun i => (service.info? new).elim i (service.merge i) := by
  cases service <;> cases old <;> cases new <;> rfl

end Track

end NameService

section Track

variable [DeepPacketInspection] {service : NameService} {first : Arrival} {rest : List Arrival}

/-- The record is merged from the messages, if the first result is one. -/
theorem Connection.nameInfo_track (service : NameService) (first : Arrival) (rest : List Arrival) :
    (track first rest).nameInfo service =
      (service.firstMessage (first :: rest)).map fun info =>
        (service.messages (first :: rest)).tail.foldl service.merge info := by
  rw [Connection.nameInfo, track_of_proj service.info?_mergeApplication]
  cases h : service.firstMessage (first :: rest) with
  | none => rw [show (dpiResults (first :: rest)).head?.bind _ = none from h]; rfl
  | some info =>
    rw [show (dpiResults (first :: rest)).head?.bind _ = some info from h,
      NameService.messages_of_firstMessage h]
    rfl

/-- What the record of a connection of the protocol is to say, after every packet. -/
structure RecordsNames (service : NameService) (first : Arrival) (rest : List Arrival) : Prop where
  /-- Once there was a response, it says so. -/
  isResponse : ∀ l₁ l₂, rest = l₁ ++ l₂ → ∀ info, (track first l₁).nameInfo service = some info →
    (∃ message ∈ service.messages (first :: l₁), message.isResponse = true) →
      info.isResponse = true
  /-- The first name that was seen is recorded. -/
  queryName : ∀ l₁ l₂, rest = l₁ ++ l₂ → ∀ info, (track first l₁).nameInfo service = some info →
    ∀ name, (service.messages (first :: l₁)).findSome? NameInfo.queryName = some name →
      info.queryName = some name

/-- The first message of a connection is a response if any of its messages is, and has a name if any
of them has. -/
def FirstMessageTells (service : NameService) (arrivals : List Arrival) : Prop :=
  ∀ info, service.firstMessage arrivals = some info → ∀ message ∈ service.messages arrivals,
    (message.isResponse = true → info.isResponse = true) ∧
      (message.queryName.isSome = true → info.queryName.isSome = true)

theorem recordsNames_dns (first : Arrival) (rest : List Arrival) :
    RecordsNames .dns first rest := by
  -- the record collects the responses and the names of all messages
  have hrecord : ∀ l info, (track first l).nameInfo .dns = some info →
      info = ⟨(NameService.dns.messages (first :: l)).findSome? NameInfo.queryName,
        (NameService.dns.messages (first :: l)).any NameInfo.isResponse⟩ := by
    intro l info hinfo
    rw [Connection.nameInfo_track] at hinfo
    obtain ⟨firstInfo, hfirst, rfl⟩ := Option.map_eq_some_iff.mp hinfo
    rw [NameService.messages_of_firstMessage hfirst, List.tail_cons, NameService.foldl_merge_dns]
  constructor
  · intro l₁ _ _ info hinfo hresponse
    rw [hrecord l₁ info hinfo]
    exact List.any_eq_true.mpr hresponse
  · intro l₁ _ _ info hinfo name hname
    rw [hrecord l₁ info hinfo]
    exact hname

/-- What was said first is all that is recorded. -/
theorem nameInfo_of_ne_dns (hservice : service ≠ .dns) (first : Arrival) (rest : List Arrival) :
    (track first rest).nameInfo service = service.firstMessage (first :: rest) := by
  rw [Connection.nameInfo_track]
  simp [NameService.foldl_merge_of_ne hservice]

theorem recordsNames_iff_firstMessageTells (hservice : service ≠ .dns) :
    RecordsNames service first rest ↔ FirstMessageTells service (first :: rest) := by
  constructor
  · intro h info hinfo message hmessage
    have htracked : (track first rest).nameInfo service = some info := by
      rw [nameInfo_of_ne_dns hservice, hinfo]
    refine ⟨fun hresponse => ?_, fun hname => ?_⟩
    · exact h.isResponse rest [] (List.append_nil rest).symm info htracked
        ⟨message, hmessage, hresponse⟩
    · have hsome : ((service.messages (first :: rest)).findSome? NameInfo.queryName).isSome := by
        rw [List.findSome?_isSome_iff]
        exact ⟨message, hmessage, hname⟩
      obtain ⟨name, hfound⟩ := Option.isSome_iff_exists.mp hsome
      rw [h.queryName rest [] (List.append_nil rest).symm info htracked name hfound]
      rfl
  · intro h
    -- what is recorded on the way is the first message, whose words cover all that follow
    have hrecord : ∀ l₁ l₂, rest = l₁ ++ l₂ → ∀ info,
        (track first l₁).nameInfo service = some info →
          service.firstMessage (first :: l₁) = some info ∧
            ∀ message ∈ service.messages (first :: l₁),
              (message.isResponse = true → info.isResponse = true) ∧
                (message.queryName.isSome = true → info.queryName.isSome = true) := by
      rintro l₁ l₂ rfl info hinfo
      rw [nameInfo_of_ne_dns hservice] at hinfo
      refine ⟨hinfo, fun message hmessage => ?_⟩
      rw [← List.cons_append] at h
      refine h info (NameService.firstMessage_append hinfo l₂) message ?_
      rw [NameService.messages_append]
      exact List.mem_append_left _ hmessage
    constructor
    · rintro l₁ l₂ hrest info hinfo ⟨message, hmessage, hresponse⟩
      exact ((hrecord l₁ l₂ hrest info hinfo).2 message hmessage).1 hresponse
    · intro l₁ l₂ hrest info hinfo name hname
      obtain ⟨hfirst, htells⟩ := hrecord l₁ l₂ hrest info hinfo
      obtain ⟨message, hmessage, hfound⟩ := List.exists_of_findSome?_eq_some hname
      have hsome := (htells message hmessage).2 (by rw [hfound]; rfl)
      obtain ⟨recorded, hrecorded⟩ := Option.isSome_iff_exists.mp hsome
      -- the first message comes first among the messages
      rw [NameService.messages_of_firstMessage hfirst, List.findSome?_cons, hrecorded] at hname
      rw [hrecorded]
      exact hname

/-- **Responses and names are recorded for DNS, and for mDNS and LLMNR exactly if the first message
is a response as soon as any is, and has a name as soon as any has.** For DNS the records are
merged; for the other two the merge has no arm, and the first record stays as it is. -/
theorem recordsNames_iff (service : NameService) (first : Arrival) (rest : List Arrival) :
    RecordsNames service first rest ↔
      service = .dns ∨ FirstMessageTells service (first :: rest) := by
  by_cases hservice : service = .dns
  · subst hservice
    exact iff_of_true (recordsNames_dns first rest) (Or.inl rfl)
  · rw [recordsNames_iff_firstMessageTells hservice, or_iff_right hservice]

end Track

/-! ## A response that is not recorded -/

/-- An mDNS packet of port 5353 with this information. -/
def sampleMdnsArrival (info : MdnsInfo) : Arrival where
  parsed := .ofUdp (.lan 1 5353) ⟨.v4 ⟨#v[224, 0, 0, 251]⟩, 5353⟩ (some ⟨.mdns info⟩) true 90
  now := ⟨0⟩
  clock := .constant 0

/-- A host asks for a name, and then announces its own. -/
def sampleMdnsQuery : MdnsInfo := ⟨some "printer.local", some .A, false, []⟩

@[inherit_doc sampleMdnsQuery]
def sampleMdnsResponse : MdnsInfo := ⟨some "host.local", some .A, true, [.v4 (.new 10 0 0 1)]⟩

/-- The response leaves the record that of a query. -/
theorem not_recordsNames_mdns :
    letI : DeepPacketInspection := .silent
    (track (sampleMdnsArrival sampleMdnsQuery) [sampleMdnsArrival sampleMdnsResponse]).nameInfo
        .mdns = some ⟨some "printer.local", false⟩ ∧
      ¬ RecordsNames .mdns (sampleMdnsArrival sampleMdnsQuery)
        [sampleMdnsArrival sampleMdnsResponse] := by
  let _ : DeepPacketInspection := .silent
  have htracked : (track (sampleMdnsArrival sampleMdnsQuery)
      [sampleMdnsArrival sampleMdnsResponse]).nameInfo .mdns =
        some ⟨some "printer.local", false⟩ := rfl
  refine ⟨htracked, fun h => ?_⟩
  have hresponse := h.isResponse [sampleMdnsArrival sampleMdnsResponse] [] rfl _ htracked
    ⟨⟨some "host.local", true⟩, List.mem_cons_of_mem _ List.mem_cons_self, rfl⟩
  cases hresponse

end RustNet
