import RustNet.Network.Tcp.Analytics

/-!
# Shifted sequence numbers

TCP numbers have no beginning: adding one offset to the sequence numbers of a direction, and to the
acknowledgements that answer it, gives the same exchange. The analysis adds modulo 2^32, but it
compares numbers as if they did not wrap, and takes zero for "nothing seen yet"; both depend on
where the numbers lie.

A trace is analysed alike under a shift as long as no segment meets one of the two: `OrderKept` says
so of one segment, in the state before it.

## Main results

* `TcpAnalytics.sameSide_iff_of_ne_zero`: away from zero the condition is exact for a segment;
* `TcpAnalytics.shifted_analyze`: a segment whose order is kept keeps the two analyses shifted;
* `TcpAnalytics.counts_shift`: a trace whose segments all keep their order is counted alike.
-/

namespace RustNet

/-- What is added to the sequence numbers of each direction. -/
structure Offsets where
  outgoing : UInt32
  incoming : UInt32
deriving DecidableEq

namespace Segment

/-- A segment with shifted numbers: its own by its direction's offset, the one it acknowledges by
the other's. -/
def shift (o : Offsets) (s : Segment) : Segment :=
  { s with header := { s.header with
      seq := s.header.seq + if s.isOutgoing then o.outgoing else o.incoming
      ack := s.header.ack + if s.isOutgoing then o.incoming else o.outgoing } }

variable {o : Offsets} {s : Segment}

@[simp]
theorem sends_shift : (s.shift o).Sends ↔ s.Sends := Iff.rfl

@[simp]
theorem receives_shift : (s.shift o).Receives ↔ s.Receives := Iff.rfl

@[simp]
theorem acknowledges_shift : (s.shift o).Acknowledges ↔ s.Acknowledges := Iff.rfl

@[simp]
theorem consumed_shift : (s.shift o).consumed = s.consumed := rfl

theorem seq_shift_of_sends (h : s.Sends) : (s.shift o).seq = s.seq + o.outgoing := by
  simp [shift, seq, h.1]

theorem seq_shift_of_receives (h : s.Receives) : (s.shift o).seq = s.seq + o.incoming := by
  simp [shift, seq, h.1]

theorem ack_shift_of_acknowledges (h : s.Acknowledges) :
    (s.shift o).header.ack = s.header.ack + o.outgoing := by
  simp [shift, h.1]

end Segment

namespace TcpAnalytics

/-- Retransmissions, out-of-order segments and fast retransmits counted so far. -/
def counts (a : TcpAnalytics) : UInt64 × UInt64 × UInt64 :=
  (a.retransmitCount, a.outOfOrderCount, a.fastRetransmitCount)

/-- A number compares with the expected one as their shifted copies do: it is the expected one, or
neither copy of the expected one is zero and the shift keeps their order. -/
def SameSide (offset expected seq : UInt32) : Prop :=
  seq = expected ∨
    expected ≠ 0 ∧ expected + offset ≠ 0 ∧ (seq < expected ↔ seq + offset < expected + offset)

instance (offset expected seq : UInt32) : Decidable (SameSide offset expected seq) :=
  inferInstanceAs (Decidable (_ ∨ _))

/-- A segment keeps its order under the shift, after the segments `before` and the analytics `a`:
with what its direction expects, wherever it expects anything; and a repeated acknowledgement is
zero in neither copy. -/
structure OrderKept (o : Offsets) (before : List Segment) (a : TcpAnalytics) (s : Segment) :
    Prop where
  outbound : s.Sends → (∃ b ∈ before, b.Sends) → SameSide o.outgoing a.lastSeqOutbound s.seq
  inbound : s.Receives → (∃ b ∈ before, b.Receives) → SameSide o.incoming a.lastSeqInbound s.seq
  ack : s.Acknowledges → (∃ b ∈ before, b.Acknowledges) → s.header.ack = a.lastAckReceived →
    a.lastAckReceived ≠ 0 ∧ a.lastAckReceived + o.outgoing ≠ 0

instance (o : Offsets) (before : List Segment) (a : TcpAnalytics) (s : Segment) :
    Decidable (OrderKept o before a s) :=
  decidable_of_iff
    ((s.Sends → (∃ b ∈ before, b.Sends) → SameSide o.outgoing a.lastSeqOutbound s.seq) ∧
      (s.Receives → (∃ b ∈ before, b.Receives) → SameSide o.incoming a.lastSeqInbound s.seq) ∧
      (s.Acknowledges → (∃ b ∈ before, b.Acknowledges) → s.header.ack = a.lastAckReceived →
        a.lastAckReceived ≠ 0 ∧ a.lastAckReceived + o.outgoing ≠ 0))
    ⟨fun h => ⟨h.1, h.2.1, h.2.2⟩, fun h => ⟨h.outbound, h.inbound, h.ack⟩⟩

/-! ## Shifted analyses -/

/-- A remembered number and its shifted copy; both are zero before anything was seen. -/
def Moved (seen : Prop) (offset x x' : UInt32) : Prop :=
  seen ∧ x' = x + offset ∨ ¬ seen ∧ x = 0 ∧ x' = 0

/-- The analytics of a trace and of its shifted copy. -/
structure Shifted (o : Offsets) (before : List Segment) (a a' : TcpAnalytics) : Prop where
  outbound : Moved (∃ b ∈ before, b.Sends) o.outgoing a.lastSeqOutbound a'.lastSeqOutbound
  inbound : Moved (∃ b ∈ before, b.Receives) o.incoming a.lastSeqInbound a'.lastSeqInbound
  ack : Moved (∃ b ∈ before, b.Acknowledges) o.outgoing a.lastAckReceived a'.lastAckReceived
  duplicateAckCount : a'.duplicateAckCount = a.duplicateAckCount
  /-- An acknowledgement that is zero in one of the copies was not repeated. -/
  unrepeated : a.lastAckReceived = 0 ∨ a'.lastAckReceived = 0 → a.duplicateAckCount = 0
  counts : a'.counts = a.counts

section Step

variable {o : Offsets} {before : List Segment} {a a' : TcpAnalytics} {s : Segment}

/-- One more segment is seen when it is of the kind, or one before was. -/
theorem exists_mem_concat_iff {P : Segment → Prop} :
    (∃ b ∈ before ++ [s], P b) ↔ (∃ b ∈ before, P b) ∨ P s := by
  simp [or_and_right, exists_or]

/-- Both copies of a segment are below the expected number, or neither is. -/
theorem SameSide.lt_iff {offset expected seq : UInt32} (h : SameSide offset expected seq) :
    seq < expected ↔ seq + offset < expected + offset := by
  rcases h with rfl | ⟨-, -, hiff⟩
  · exact iff_of_false (UInt32.lt_irrefl _) (UInt32.lt_irrefl _)
  · exact hiff

/-- Both copies of a segment are counted as late, or neither. -/
theorem SameSide.late_iff {offset expected seq : UInt32} (h : SameSide offset expected seq) :
    expected + offset ≠ 0 ∧ seq + offset < expected + offset ↔ expected ≠ 0 ∧ seq < expected := by
  rcases h with rfl | ⟨hne, hne', hiff⟩
  · exact iff_of_false (fun hand => UInt32.lt_irrefl _ hand.2) fun hand => UInt32.lt_irrefl _ hand.2
  · exact and_congr (iff_of_true hne' hne) hiff.symm

/-- Away from zero nothing less will do: a segment that both copies count, or neither, is on the same
side. -/
theorem sameSide_iff_of_ne_zero {offset expected seq : UInt32} (hne : expected ≠ 0)
    (hne' : expected + offset ≠ 0) :
    SameSide offset expected seq ↔
      (expected + offset ≠ 0 ∧ seq + offset < expected + offset ↔ expected ≠ 0 ∧ seq < expected) := by
  constructor
  · exact SameSide.late_iff
  · rw [and_iff_right hne, and_iff_right hne']
    exact fun hiff => Or.inr ⟨hne, hne', hiff.symm⟩

/-- What was seen before a segment is moved. -/
theorem Moved.of_seen {seen : Prop} {offset x x' : UInt32} (h : Moved seen offset x x')
    (hseen : seen) : x' = x + offset :=
  (h.resolve_right fun hnot => hnot.1 hseen).2

theorem Moved.of_not_seen {seen : Prop} {offset x x' : UInt32} (h : Moved seen offset x x')
    (hseen : ¬ seen) : x = 0 ∧ x' = 0 :=
  (h.resolve_left fun hand => hseen hand.1).2

/-- A number that a segment leaves alone stays moved. -/
theorem Moved.concat_of_not {P : Segment → Prop} {offset x x' : UInt32}
    (h : Moved (∃ b ∈ before, P b) offset x x') (hs : ¬ P s) :
    Moved (∃ b ∈ before ++ [s], P b) offset x x' := by
  rw [exists_mem_concat_iff, or_iff_left hs]
  exact h

/-- A record of the next number in one direction, which the segments `P` of the direction move when
they stand to the expected number as `moves` says: the copies stay copies, if a segment at the
expected number moves them and the shift does not matter to `moves`. -/
theorem moved_expected {P : Segment → Prop} [DecidablePred P] (moves : UInt32 → UInt32 → Prop)
    [DecidableRel moves] {offset x x' consumed : UInt32}
    (h : Moved (∃ b ∈ before, P b) offset x x')
    (hs : P s → (∃ b ∈ before, P b) → SameSide offset x s.seq)
    (hself : ∀ seq, moves seq seq)
    (hmoves : ∀ seq expected, SameSide offset expected seq →
      (moves (seq + offset) (expected + offset) ↔ moves seq expected)) :
    Moved (∃ b ∈ before ++ [s], P b) offset
      (if P s ∧ (x = 0 ∨ moves s.seq x) then s.seq + consumed else x)
      (if P s ∧ (x' = 0 ∨ moves (s.seq + offset) x') then s.seq + offset + consumed else x') := by
  by_cases hP : P s
  · refine Or.inl ⟨exists_mem_concat_iff.mpr (Or.inr hP), ?_⟩
    by_cases hseen : ∃ b ∈ before, P b
    -- the records are apart by the shift, and the segment stands to both alike
    · rw [h.of_seen hseen]
      have hside := hs hP hseen
      have hiff := hmoves s.seq x hside
      rcases hside with rfl | ⟨hne, hne', -⟩
      · rw [if_pos ⟨hP, Or.inr (hself _)⟩, if_pos ⟨hP, Or.inr (hself _)⟩]
        ac_rfl
      · simp only [hP, hne, hne', false_or, true_and, hiff]
        split_ifs
        · ac_rfl
        · rfl
    -- the first segment of the direction: both records are still zero and are set
    · obtain ⟨hzero, hzero'⟩ := h.of_not_seen hseen
      rw [if_pos ⟨hP, Or.inl hzero'⟩, if_pos ⟨hP, Or.inl hzero⟩]
      ac_rfl
  · rw [if_neg fun hand => hP hand.1, if_neg fun hand => hP hand.1]
    exact h.concat_of_not hP

/-- The copies count a late segment of a direction alike: both of it, or neither. -/
theorem late_shift_iff {P : Segment → Prop} {offset x x' : UInt32}
    (h : Moved (∃ b ∈ before, P b) offset x x')
    (hs : P s → (∃ b ∈ before, P b) → SameSide offset x s.seq) :
    P s ∧ x' ≠ 0 ∧ s.seq + offset < x' ↔ P s ∧ x ≠ 0 ∧ s.seq < x := by
  refine and_congr_right fun hP => ?_
  by_cases hseen : ∃ b ∈ before, P b
  · rw [h.of_seen hseen]
    exact (hs hP hseen).late_iff
  · obtain ⟨hzero, hzero'⟩ := h.of_not_seen hseen
    exact iff_of_false (fun hand => hand.1 hzero') fun hand => hand.1 hzero

/-- The first record after a segment: the copies stay copies, and count alike. -/
theorem outbound_analyze (h : Moved (∃ b ∈ before, b.Sends) o.outgoing a.lastSeqOutbound
      a'.lastSeqOutbound)
    (hs : s.Sends → (∃ b ∈ before, b.Sends) → SameSide o.outgoing a.lastSeqOutbound s.seq) :
    Moved (∃ b ∈ before ++ [s], b.Sends) o.outgoing (a.analyze s).lastSeqOutbound
        (a'.analyze (s.shift o)).lastSeqOutbound ∧
      (a'.Retransmits (s.shift o) ↔ a.Retransmits s) := by
  rw [analyze_lastSeqOutbound, analyze_lastSeqOutbound]
  simp only [Retransmits, Segment.sends_shift, Segment.consumed_shift]
  by_cases hsends : s.Sends
  · rw [Segment.seq_shift_of_sends hsends]
    refine ⟨moved_expected (fun seq expected => seq = expected) h hs (fun _ => rfl)
      fun seq expected _ => ?_, late_shift_iff h hs⟩
    exact UInt32.add_left_inj o.outgoing
  · rw [if_neg fun hand => hsends hand.1, if_neg fun hand => hsends hand.1]
    exact ⟨h.concat_of_not hsends, iff_of_false (fun hand => hsends hand.1)
      fun hand => hsends hand.1⟩

/-- The second record after a segment. -/
theorem inbound_analyze (h : Moved (∃ b ∈ before, b.Receives) o.incoming a.lastSeqInbound
      a'.lastSeqInbound)
    (hs : s.Receives → (∃ b ∈ before, b.Receives) → SameSide o.incoming a.lastSeqInbound s.seq) :
    Moved (∃ b ∈ before ++ [s], b.Receives) o.incoming (a.analyze s).lastSeqInbound
        (a'.analyze (s.shift o)).lastSeqInbound ∧
      (a'.OutOfOrder (s.shift o) ↔ a.OutOfOrder s) := by
  rw [analyze_lastSeqInbound, analyze_lastSeqInbound]
  simp only [OutOfOrder, Segment.receives_shift, Segment.consumed_shift]
  by_cases hreceives : s.Receives
  · rw [Segment.seq_shift_of_receives hreceives]
    refine ⟨moved_expected (fun seq expected => expected ≤ seq) h hs UInt32.le_refl
      fun seq expected hside => ?_, late_shift_iff h hs⟩
    rw [← UInt32.not_lt, ← UInt32.not_lt, hside.lt_iff]
  · rw [if_neg fun hand => hreceives hand.1, if_neg fun hand => hreceives hand.1]
    exact ⟨h.concat_of_not hreceives, iff_of_false (fun hand => hreceives hand.1)
      fun hand => hreceives hand.1⟩

/-- An acknowledgement repeats the last one in both copies or in neither. -/
theorem repeats_shift_iff (h : Shifted o before a a') (hs : OrderKept o before a s) :
    a'.Repeats (s.shift o) ↔ a.Repeats s := by
  simp only [Repeats, Segment.acknowledges_shift]
  refine and_congr_right fun hacks => ?_
  rw [Segment.ack_shift_of_acknowledges hacks]
  by_cases hseen : ∃ b ∈ before, b.Acknowledges
  · rw [h.ack.of_seen hseen, UInt32.add_left_inj]
    constructor
    · exact fun hand => ⟨(hs.ack hacks hseen hand.2).1, hand.2⟩
    · exact fun hand => ⟨(hs.ack hacks hseen hand.2).2, hand.2⟩
  · obtain ⟨hzero, hzero'⟩ := h.ack.of_not_seen hseen
    exact iff_of_false (fun hand => hand.1 hzero') fun hand => hand.1 hzero

/-- The last acknowledgement after a segment. -/
theorem ack_analyze (h : Shifted o before a a') :
    Moved (∃ b ∈ before ++ [s], b.Acknowledges) o.outgoing (a.analyze s).lastAckReceived
      (a'.analyze (s.shift o)).lastAckReceived := by
  rw [analyze_lastAckReceived, analyze_lastAckReceived]
  simp only [Segment.acknowledges_shift]
  by_cases hacks : s.Acknowledges
  · rw [if_pos hacks, if_pos hacks]
    exact Or.inl ⟨exists_mem_concat_iff.mpr (Or.inr hacks),
      Segment.ack_shift_of_acknowledges hacks⟩
  · rw [if_neg hacks, if_neg hacks]
    exact h.ack.concat_of_not hacks

/-- An acknowledgement that is not a repeat leaves no repeats behind: either it clears them, or the
last one was zero and there were none. -/
theorem duplicateAckCount_of_not_repeats (hacks : s.Acknowledges) (hrepeats : ¬ a.Repeats s)
    (hzero : a.lastAckReceived = 0 → a.duplicateAckCount = 0) :
    (a.analyze s).duplicateAckCount = 0 := by
  rw [analyze_duplicateAckCount, if_neg hrepeats]
  split_ifs with hclear
  · rfl
  · exact hzero (not_not.mp fun hne => hclear ⟨hacks, hne⟩)

/-- How often it was repeated, after a segment. -/
theorem duplicateAckCount_analyze (h : Shifted o before a a') (hs : OrderKept o before a s) :
    (a'.analyze (s.shift o)).duplicateAckCount = (a.analyze s).duplicateAckCount := by
  have hiff := repeats_shift_iff h hs
  -- the tests agree at both offsets, so the counts go up or fall back together
  by_cases hrepeats : a.Repeats s
  · rw [analyze_duplicateAckCount, analyze_duplicateAckCount, if_pos hrepeats,
      if_pos (hiff.mpr hrepeats), h.duplicateAckCount]
  · by_cases hacks : s.Acknowledges
    · have hacks' : (s.shift o).Acknowledges := hacks
      have hzero' : a'.lastAckReceived = 0 → a'.duplicateAckCount = 0 := fun hz =>
        h.duplicateAckCount.trans (h.unrepeated (Or.inr hz))
      rw [duplicateAckCount_of_not_repeats hacks hrepeats fun hz => h.unrepeated (Or.inl hz),
        duplicateAckCount_of_not_repeats hacks' (mt hiff.mp hrepeats) hzero']
    · rw [analyze_duplicateAckCount, analyze_duplicateAckCount, if_neg hrepeats,
        if_neg (mt hiff.mp hrepeats), if_neg fun hand => hacks hand.1,
        if_neg fun hand => hacks hand.1, h.duplicateAckCount]

/-- A repeat is zero in neither copy, and whatever is not a repeat leaves no repeats behind. -/
theorem unrepeated_analyze (h : Shifted o before a a') (hs : OrderKept o before a s)
    (hzero : (a.analyze s).lastAckReceived = 0 ∨ (a'.analyze (s.shift o)).lastAckReceived = 0) :
    (a.analyze s).duplicateAckCount = 0 := by
  by_cases hacks : s.Acknowledges
  · by_cases hrepeats : a.Repeats s
    -- a repeat is one of a number that is not zero, at both offsets
    · obtain ⟨-, hne', heq'⟩ := (repeats_shift_iff h hs).mpr hrepeats
      obtain ⟨-, hne, heq⟩ := hrepeats
      rw [analyze_lastAckReceived, if_pos hacks, heq, analyze_lastAckReceived,
        if_pos (show (s.shift o).Acknowledges from hacks), heq'] at hzero
      exact absurd hzero (not_or.mpr ⟨hne, hne'⟩)
    · exact duplicateAckCount_of_not_repeats hacks hrepeats fun hz => h.unrepeated (Or.inl hz)
  · rw [analyze_lastAckReceived, if_neg hacks, analyze_lastAckReceived,
      if_neg (show ¬ (s.shift o).Acknowledges from hacks)] at hzero
    rw [analyze_duplicateAckCount, if_neg fun hand => hacks hand.1,
      if_neg fun hand => hacks hand.1]
    exact h.unrepeated hzero

/-- A segment that keeps its order keeps the two analyses shifted. -/
theorem shifted_analyze (h : Shifted o before a a') (hs : OrderKept o before a s) :
    Shifted o (before ++ [s]) (a.analyze s) (a'.analyze (s.shift o)) := by
  obtain ⟨houtbound, hretransmits⟩ := outbound_analyze h.outbound hs.outbound
  obtain ⟨hinbound, houtOfOrder⟩ := inbound_analyze h.inbound hs.inbound
  have hdup := duplicateAckCount_analyze h hs
  have hfast : a'.FastRetransmits (s.shift o) ↔ a.FastRetransmits s :=
    and_congr (repeats_shift_iff h hs) (by rw [h.duplicateAckCount])
  refine ⟨houtbound, hinbound, ack_analyze h, hdup, unrepeated_analyze h hs, ?_⟩
  have hcounts := h.counts
  simp only [counts, Prod.mk.injEq] at hcounts
  simp only [counts, analyze_retransmitCount, analyze_outOfOrderCount, analyze_fastRetransmitCount,
    hretransmits, houtOfOrder, hfast, hcounts]

end Step

/-! ## Traces -/

/-- The segments so far beside their analysis. -/
def besideTrace (x : List Segment × TcpAnalytics) (s : Segment) : List Segment × TcpAnalytics :=
  (x.1 ++ [s], x.2.analyze s)

theorem foldl_besideTrace (x : List Segment × TcpAnalytics) (l : List Segment) :
    l.foldl besideTrace x = (x.1 ++ l, l.foldl analyze x.2) := by
  induction l generalizing x with
  | nil => rw [List.append_nil]; rfl
  | cons s l ih =>
    rw [List.foldl_cons, ih, besideTrace, List.append_assoc, List.singleton_append,
      List.foldl_cons]

/-- Every segment of a trace keeps its order under the shift. -/
def InOrderUnder (o : Offsets) (l : List Segment) : Prop :=
  ∀ before s after, l = before ++ s :: after → OrderKept o before (before.foldl analyze .new) s

/-- Whether a trace keeps its order can be read off along the trace. -/
theorem inOrderUnder_iff_along {o : Offsets} {l : List Segment} :
    InOrderUnder o l ↔ Run.Along besideTrace (fun x s => OrderKept o x.1 x.2 s) ([], .new) l := by
  rw [Run.along_iff_forall_split]
  simp only [foldl_besideTrace, List.nil_append]
  exact Iff.rfl

instance (o : Offsets) (l : List Segment) : Decidable (InOrderUnder o l) :=
  decidable_of_iff _ inOrderUnder_iff_along.symm

/-- After every part of a trace that keeps its order, the analyses of the two copies are shifted. -/
theorem InOrderUnder.shifted {o : Offsets} {l : List Segment} (h : InOrderUnder o l) :
    ∀ before after, l = before ++ after →
      Shifted o before (before.foldl analyze .new)
        ((before.map (Segment.shift o)).foldl analyze .new) := by
  intro before
  induction before using List.reverseRecOn with
  | nil =>
    -- nothing was seen, and both copies remember zeros
    intro after hl
    exact ⟨Or.inr ⟨by simp, rfl, rfl⟩, Or.inr ⟨by simp, rfl, rfl⟩, Or.inr ⟨by simp, rfl, rfl⟩, rfl,
      fun _ => rfl, rfl⟩
  | append_singleton before s ih =>
    intro after hl
    rw [List.append_assoc] at hl
    rw [List.map_append, List.foldl_append, List.foldl_append]
    exact shifted_analyze (ih _ hl) (h before s after hl)

/-- After every part of a trace that keeps its order, the two copies are counted alike. The trace
has segments of both directions, each direction with an offset of its own, modulo `2 ^ 32`; `h` asks
of every segment that it stands to the expected number as its copy does, in the state before it. -/
theorem counts_shift {o : Offsets} {l : List Segment} (h : InOrderUnder o l) :
    ∀ before after, l = before ++ after →
      ((before.map (Segment.shift o)).foldl analyze .new).counts =
        (before.foldl analyze .new).counts :=
  fun before after hl => (h.shifted before after hl).counts

/-- A segment and its retransmission. -/
def repeatTrace : List Segment :=
  [sampleTcpSegment true 100 100 (sampleFlags false false true),
    sampleTcpSegment true 100 100 (sampleFlags false false true)]

/-- The retransmission is counted, but no longer when the first segment's numbers wrap. -/
theorem repeatTrace_wraps_not_counted :
    (repeatTrace.foldl analyze .new).counts = (1, 0, 0) ∧
      ((repeatTrace.map (Segment.shift ⟨0xffffff6a, 0⟩)).foldl analyze .new).counts = (0, 0, 0) := by
  decide +kernel

/-- It is counted in both copies when the shift keeps it clear of the wrap. -/
theorem repeatTrace_shift_counted :
    InOrderUnder ⟨1000, 2000⟩ repeatTrace ∧
      ((repeatTrace.map (Segment.shift ⟨1000, 2000⟩)).foldl analyze .new).counts =
        (repeatTrace.foldl analyze .new).counts := by
  have hkept : InOrderUnder ⟨1000, 2000⟩ repeatTrace := by decide +kernel
  exact ⟨hkept, counts_shift hkept repeatTrace [] (List.append_nil _).symm⟩

end TcpAnalytics

end RustNet
