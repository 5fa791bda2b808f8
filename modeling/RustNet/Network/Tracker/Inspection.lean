import RustNet.Network.Parser.Padding
import RustNet.Network.Tracker.Basic

/-!
# The limit of deep packet inspection

`ParserConfig` has a limit of packets per connection to inspect, and `should_perform_dpi` to ask
whether a packet is within it. The parser knows no connection, the tracker does not inspect, and
nothing calls `should_perform_dpi`.

That a packet is inspected is observed by parsing it with an inspection that recognises everything:
the packet then has an inspection result exactly if one of the entry points was called.

## Main definitions

* `PacketParser.inspects`: inspection is executed on a frame;
* `CountedTracker`: the tracker, and how many of its packets each connection has that count.

## Main results

* `inspects_eq`: inspection is executed on every TCP and UDP payload, if it is enabled;
* `inspectionLimited_iff`: the limit is kept exactly if inspection is off or no connection has more
  packets with a payload;
* `atMost_of_consulted`: it would be kept if `should_perform_dpi` were asked.
-/

namespace RustNet

/-- An inspection that recognises everything, so that its result shows whether a packet was
inspected. -/
@[reducible]
def DeepPacketInspection.probe : DeepPacketInspection where
  analyzeTcpPacket _ _ _ _ := some ⟨.https ⟨none⟩⟩
  analyzeUdpPacket _ _ _ _ := some ⟨.https ⟨none⟩⟩
  tryExtractTlsFromReassembler reassembler _ := (none, reassembler)

/-! ## One frame -/

/-- The datagram has bytes behind its TCP or UDP header. -/
def Datagram.hasPayload (d : Datagram) : Bool :=
  if d.protocolNum = 6 then
    decide (20 ≤ d.transportData.length ∧ d.tcpHeaderLen < d.transportData.length)
  else if d.protocolNum = 17 then decide (8 < d.transportData.length)
  else false

/-- An entry point that recognises everything gives a result for every payload. -/
theorem Datagram.isSome_inspect (d : Datagram) (localIps : Finset IpAddr) (config : ParserConfig)
    (result : DpiResult) (payload : List UInt8) :
    (d.inspect localIps config (fun _ _ _ _ => some result) payload).isSome =
      (config.enableDpi && decide (payload ≠ [])) := by
  unfold Datagram.inspect
  split_ifs with h
  · exact h.symm
  · exact (Bool.eq_false_of_not_eq_true h).symm

namespace PacketParser

variable (parser : PacketParser) (frame : List UInt8)

/-- The parser executes inspection on the frame. -/
def inspects : Bool :=
  (@parsePacket .probe parser frame).any fun parsed => parsed.dpiResult.isSome

/-- The frame carries a TCP or UDP payload. -/
def carriesPayload : Bool :=
  ((parser.ipPayload? frame).bind fun ip =>
    Datagram.ofIp ip.version ip.linkLen ip.ipData none none).any Datagram.hasPayload

/-- A datagram is inspected if it has a payload. -/
theorem inspects_transport (version : IpVersion) (d : Datagram) :
    ((@parseTransport .probe parser version d).any fun parsed => parsed.dpiResult.isSome) =
      (parser.config.enableDpi && d.hasPayload) := by
  have hreading := @parseTransport_reading .probe parser version d
  have hany : ((@parseTransport .probe parser version d).any
      fun parsed => parsed.dpiResult.isSome) =
        (@Datagram.reading? d parser.localIps .probe parser.config version).any
          fun reading => reading.dpiResult.isSome := by
    rw [← hreading, Option.any_map]
    rfl
  rw [hany, Datagram.reading?, Datagram.hasPayload]
  by_cases htcp : d.protocolNum = 6
  · rw [if_pos htcp, if_pos htcp]
    by_cases hlen : d.transportData.length < 20
    · simp [hlen]
    · rw [if_neg hlen, Option.any_some]
      refine (d.isSome_inspect parser.localIps _ _ _).trans ?_
      simp [Nat.le_of_not_lt hlen]
  by_cases hudp : d.protocolNum = 17
  · rw [if_neg htcp, if_pos hudp, if_neg htcp, if_pos hudp]
    by_cases hlen : d.transportData.length < 8
    · simp [hlen, hlen.le]
    · rw [if_neg hlen, Option.any_some]
      refine (d.isSome_inspect parser.localIps _ _ _).trans ?_
      simp
  -- other protocols have no entry point
  · rw [if_neg htcp, if_neg hudp, if_neg htcp, if_neg hudp, Bool.and_false]
    by_cases hlen : d.transportData.length = 0
    · simp [hlen]
    · rw [if_neg hlen, Option.any_map]
      simp [Datagram.plainReading]

/-- An ARP packet is not inspected. -/
theorem dpiResult_arp {headerLen : ℕ} {processName : Option String} {processId : Option UInt32}
    {parsed : ParsedPacket}
    (h : parser.parseArpPacketWithOffset frame headerLen processName processId = some parsed) :
    parsed.dpiResult = none := by
  unfold parseArpPacketWithOffset at h
  dsimp only at h
  split at h
  · exact absurd h (by simp)
  · split at h
    · exact absurd h (by simp)
    · obtain ⟨operation, -, rfl⟩ := Option.map_eq_some_iff.mp h
      rfl

/-- Inspection is executed on every TCP and UDP payload, if it is enabled. -/
theorem inspects_eq :
    parser.inspects frame = (parser.config.enableDpi && parser.carriesPayload frame) := by
  unfold inspects carriesPayload
  cases hip : parser.ipPayload? frame with
  | some ip =>
    rw [@parsePacket_of_ipPayload .probe _ _ _ hip, Option.bind_some]
    show ((Datagram.ofIp ip.version ip.linkLen ip.ipData none none).bind
      (@parseTransport .probe parser ip.version)).any (fun parsed => parsed.dpiResult.isSome) = _
    cases Datagram.ofIp ip.version ip.linkLen ip.ipData none none with
    | none => simp
    | some d => exact parser.inspects_transport ip.version d
  | none =>
    -- there is no payload, or it is an ARP packet
    rw [Option.bind_none, Option.any_none, Bool.and_false]
    unfold parsePacket
    cases hpayload : parser.linkPayload? frame with
    | none => rfl
    | some payload =>
      rw [ipPayload?, hpayload] at hip
      cases payload with
      | framed version offset => cases hip
      | raw version start => cases hip
      | arp headerLen =>
        rw [Option.bind_some]
        cases hparsed : parser.parseArpPacketWithOffset frame headerLen none none with
        | none => simp [parseLinkPayload, hparsed]
        | some parsed =>
          have hnone := parser.dpiResult_arp frame hparsed
          simp [parseLinkPayload, hparsed, hnone]

end PacketParser

/-! ## The packets of a connection -/

/-- A frame that a packet processor handles, a sweep of the cleanup thread, or a clear. -/
inductive FrameEvent
  | frame (data : List UInt8) (now : SystemTime) (clock : ClockReading)
  | cleanup (now : SystemTime) (order : IterOrder String) (clock : ClockReading)
  | clear

/-- The tracker, and how many packets that count the connection under each key has had since it was
created, for the specification only. -/
structure CountedTracker where
  tracker : ConnectionTracker
  count : String → ℕ

namespace CountedTracker

/-- Before the first frame: an empty tracker, and no packet counted for any key. -/
def start (config : TrackerConfig) : CountedTracker := ⟨.withConfig config, fun _ => 0⟩

/-- No connection in the active table has had more than `limit` packets that count. -/
def AtMost (limit : ℕ) (s : CountedTracker) : Prop :=
  ∀ key ∈ s.tracker.connections, s.count key ≤ limit

section Steps

variable [DeepPacketInspection] (parser : PacketParser) (counts : List UInt8 → Bool)

/-- The packets that count before a packet with this outcome. -/
def before (s : CountedTracker) (outcome : IngestOutcome) : ℕ :=
  if outcome.created then 0 else s.count outcome.key

/-- A packet is ingested, and counts for the connection it is filed under if `counted`. -/
def ingest (s : CountedTracker) (parsed : ParsedPacket) (counted : Bool) (now : SystemTime)
    (clock : ClockReading) : CountedTracker :=
  let (tracker, outcome) := s.tracker.ingestAt parsed now clock
  if outcome.dropped then { s with tracker := tracker }
  else
    { tracker := tracker
      count := Function.update s.count outcome.key
        (s.before outcome + if counted then 1 else 0) }

/-- One step. A frame that does not parse is left out. -/
def step (s : CountedTracker) : FrameEvent → CountedTracker
  | .frame data now clock =>
    match parser.parsePacket data with
    | none => s
    | some parsed => s.ingest parsed (counts data) now clock
  | .cleanup now order clock =>
    { s with tracker := (s.tracker.cleanup now order clock).1 }
  | .clear => { s with tracker := s.tracker.clear }

variable {parser counts} {s : CountedTracker}

/-- A dropped packet leaves the counts and adds no connection; any other counts for the connection
it is filed under, and adds no further one. -/
theorem ingest_cases (s : CountedTracker) (parsed : ParsedPacket) (counted : Bool)
    (now : SystemTime) (clock : ClockReading) :
    ((s.ingest parsed counted now clock).count = s.count ∧
        (s.ingest parsed counted now clock).tracker.connections = s.tracker.connections) ∨
      ∃ outcome, (s.tracker.ingestAt parsed now clock).2 = outcome ∧
        (outcome.created = false → outcome.key ∈ s.tracker.connections) ∧
        (s.ingest parsed counted now clock).count = Function.update s.count outcome.key
          (s.before outcome + if counted then 1 else 0) ∧
        ∀ key ∈ (s.ingest parsed counted now clock).tracker.connections,
          key = outcome.key ∨ key ∈ s.tracker.connections := by
  have hconnections := s.tracker.ingestAt_connections parsed now clock
  have hfull := s.tracker.ingestAt_dropped_iff parsed now clock
  have hcreated := s.tracker.ingestAt_created_iff parsed now clock
  unfold ingest
  dsimp only
  split
  · rename_i hdropped
    rw [if_pos (hfull.mp hdropped)] at hconnections
    exact Or.inl ⟨rfl, hconnections⟩
  · rename_i hdropped
    have hroom := mt hfull.mpr hdropped
    rw [if_neg hroom] at hconnections
    refine Or.inr ⟨_, rfl, ?_, rfl, ?_⟩
    -- there was room, so that a key that was not created was there before
    · intro hold
      by_contra hnew
      rw [s.tracker.ingestAt_key] at hnew
      rw [hcreated.mpr ⟨hnew, hroom⟩] at hold
      cases hold
    · intro key hkey
      rw [s.tracker.ingestAt_key]
      rw [hconnections] at hkey
      exact AList.mem_upsert.mp hkey

/-- If nothing counts, every limit is kept. -/
theorem always_atMost_of_none (limit : ℕ) (config : TrackerConfig) (events : List FrameEvent) :
    Run.Always (step parser fun _ => false) (AtMost limit) (start config) events := by
  -- no count ever leaves zero
  have hzero : Run.Always (step parser fun _ => false) (fun s => ∀ key, s.count key = 0)
      (start config) events := by
    apply Run.always_of_step _ fun _ => rfl
    intro s e hs key
    cases e with
    | frame data now clock =>
      unfold step
      dsimp only
      split
      · exact hs key
      · rename_i parsed hparsed
        rcases s.ingest_cases parsed false now clock with ⟨hcount, -⟩ | ⟨outcome, -, -, hcount, -⟩
        · rw [hcount, hs key]
        · have hbefore : s.before outcome = 0 := by
            unfold before
            split_ifs
            · rfl
            · exact hs _
          rw [hcount, hbefore]
          by_cases hkey : key = outcome.key
          · simp [hkey]
          · rw [Function.update_of_ne hkey, hs key]
    | cleanup now order clock => exact hs key
    | clear => exact hs key
  exact hzero.mono fun s hs key _ => (hs key).trans_le (Nat.zero_le limit)

/-- A packet that counts has been asked for: `should_perform_dpi` is true of the packets that the
connection has had before. -/
def Consulted (parser : PacketParser) (counts : List UInt8 → Bool) (s : CountedTracker) :
    FrameEvent → Prop
  | .frame data now clock => counts data = true → ∀ parsed, parser.parsePacket data = some parsed →
      parser.config.shouldPerformDpi (s.before (s.tracker.ingestAt parsed now clock).2) = true
  | _ => True

/-- A step whose packet has been asked for keeps the limit. -/
theorem atMost_step {e : FrameEvent} (hs : s.AtMost parser.config.dpiPacketLimit)
    (he : Consulted parser counts s e) :
    (step parser counts s e).AtMost parser.config.dpiPacketLimit := by
  cases e with
  | frame data now clock =>
    unfold step
    dsimp only
    split
    · exact hs
    rename_i parsed hparsed
    intro key hkey
    rcases s.ingest_cases parsed (counts data) now clock with
      ⟨hcount, hsame⟩ | ⟨outcome, houtcome, hold, hcount, hkeys⟩
    · rw [hsame] at hkey
      rw [hcount]
      exact hs key hkey
    rw [hcount]
    by_cases heq : key = outcome.key
    · rw [heq, Function.update_self]
      -- a new connection starts from zero, any other from a count within the limit
      have hbefore : s.before outcome ≤ parser.config.dpiPacketLimit := by
        unfold before
        split_ifs with hcreated
        · exact Nat.zero_le _
        · exact hs _ (hold (Bool.eq_false_of_not_eq_true hcreated))
      split_ifs with hcounts
      · have hasked := he hcounts parsed hparsed
        rw [houtcome] at hasked
        simp [ParserConfig.shouldPerformDpi] at hasked
        omega
      · exact hbefore
    · rw [Function.update_of_ne heq]
      exact hs key ((hkeys key hkey).resolve_left heq)
  | cleanup now order clock =>
    -- the counts stay, and no key is added
    intro key hkey
    simp only [step, ConnectionTracker.cleanup_connections] at hkey
    obtain ⟨conn, hconn, -⟩ := AList.mem_retain.mp hkey
    exact hs key (AList.mem_of_lookup hconn)
  | clear =>
    intro key hkey
    exact absurd hkey (AList.notMem_empty key)

/-- The limit would be kept if `should_perform_dpi` were asked. -/
theorem atMost_of_consulted (config : TrackerConfig) {events : List FrameEvent}
    (h : Run.Along (step parser counts) (Consulted parser counts) (start config) events) :
    Run.Always (step parser counts) (AtMost parser.config.dpiPacketLimit) (start config) events :=
  Run.always_of_along (fun _ _ hs he => atMost_step hs he)
    (fun key hkey => absurd hkey (AList.notMem_empty key)) h

variable (parser)

/-- Inspection is executed on at most `dpiPacketLimit` packets of every connection exactly if it is
disabled, or no connection ever has more packets with a TCP or UDP payload. The run is of frames of
any bytes, of cleanups and of clears. The limit is checked by `should_perform_dpi`, which only a log
message calls. -/
theorem inspectionLimited_iff (config : TrackerConfig) (events : List FrameEvent) :
    Run.Always (step parser parser.inspects) (AtMost parser.config.dpiPacketLimit) (start config)
        events ↔
      parser.config.enableDpi = false ∨
        Run.Always (step parser parser.carriesPayload) (AtMost parser.config.dpiPacketLimit)
          (start config) events := by
  -- the switch is all that is asked: the limit is not
  cases henable : parser.config.enableDpi with
  | false =>
    have hinspects : parser.inspects = fun _ => false := by
      ext frame
      rw [parser.inspects_eq, henable, Bool.false_and]
    rw [hinspects]
    exact iff_of_true (always_atMost_of_none _ config events) (Or.inl rfl)
  | true =>
    have hinspects : parser.inspects = parser.carriesPayload := by
      ext frame
      rw [parser.inspects_eq, henable, Bool.true_and]
    rw [hinspects]
    simp

end Steps

instance (limit : ℕ) (s : CountedTracker) : Decidable (s.AtMost limit) :=
  decidable_of_iff (∀ key ∈ s.tracker.connections.keys, s.count key ≤ limit) <| by
    simp only [AtMost, AList.mem_keys]

/-- A UDP datagram with one byte of data, from `10.0.0.1` to `10.0.0.2`. -/
def samplePayloadFrame : List UInt8 :=
  [0x45, 0, 0, 29, 0, 1, 0, 0, 64, 17, 0, 0, 10, 0, 0, 1, 10, 0, 0, 2,
    0x9c, 0x40, 0, 53, 0, 9, 0, 0, 1]

/-- Eleven datagrams of one flow. -/
def sampleFrames : List FrameEvent :=
  List.replicate 11 (.frame samplePayloadFrame ⟨0⟩ (.constant 0))

/-- All eleven are inspected, and the limit is ten. -/
theorem sampleFrames_not_limited :
    letI : DeepPacketInspection := .silent
    let parser := sampleParser 101
    ¬ Run.Always (step parser parser.inspects) (AtMost parser.config.dpiPacketLimit)
      (start .default) sampleFrames := by
  decide +kernel

end CountedTracker

end RustNet
