import Mathlib.Data.UInt
import RustNet.Network.Tcp.Analytics

/-!
# Duplicate acknowledgements

Three duplicate acknowledgements in a row count as a fast retransmit. The analysis takes every
incoming segment for one that repeats the last acknowledgement number, whatever else the segment
does; in a download, whose segments carry data and all acknowledge the same request, the third
repetition counts too.

## Main definitions

* `Segment.Pure`: no data, no SYN and no FIN;
* `Segment.RepeatsLast`: the segment has the acknowledgement number of the last one that had one;
* `TcpAnalytics.CountsPureOnly`: along a trace nothing but pure duplicates is counted.

## Main results

* `TcpAnalytics.repeats_iff`: what the analysis takes for a duplicate, in terms of the trace;
* `TcpAnalytics.countsPureOnly_iff`: pure duplicates alone are counted exactly if there are no other
  repetitions.
-/

namespace RustNet

/-- The last acknowledgement number that came in. -/
def lastAck (trace : List Segment) : Option UInt32 :=
  (trace.filter fun s => decide s.Acknowledges).getLast?.map fun s => s.header.ack

namespace Segment

/-- The segment has no data, no SYN and no FIN. -/
structure Pure (s : Segment) : Prop where
  no_payload : s.header.payloadLen = 0
  no_syn : s.header.flags.syn = false
  no_fin : s.header.flags.fin = false

/-- Behind `before`, the segment repeats the last acknowledgement number. -/
def RepeatsLast (before : List Segment) (s : Segment) : Prop :=
  s.Acknowledges ∧ lastAck before = some s.header.ack

end Segment

namespace TcpAnalytics

/-- Wherever the trace is cut, the next segment takes part in no fast retransmit unless it is a pure
duplicate: it is not counted as one, nor as a repetition on the way to one. -/
def CountsPureOnly (trace : List Segment) : Prop :=
  ∀ before s after, trace = before ++ s :: after → ¬ (s.RepeatsLast before ∧ s.Pure) →
    ((before.foldl analyze .new).analyze s).fastRetransmitCount =
        (before.foldl analyze .new).fastRetransmitCount ∧
      (s.RepeatsLast before → ((before.foldl analyze .new).analyze s).duplicateAckCount =
        (before.foldl analyze .new).duplicateAckCount)

/-- All segments of the trace that repeat an acknowledgement number other than zero are pure. -/
def PureRepeats (trace : List Segment) : Prop :=
  ∀ before s after, trace = before ++ s :: after → s.RepeatsLast before → s.header.ack ≠ 0 → s.Pure

section Trace

variable {before : List Segment} {s : Segment}

theorem lastAck_append_singleton (before : List Segment) (s : Segment) :
    lastAck (before ++ [s]) = if s.Acknowledges then some s.header.ack else lastAck before := by
  rw [lastAck, List.filter_append]
  split_ifs with hs
  · rw [List.filter_singleton, decide_eq_true hs, cond_true, List.getLast?_concat, Option.map_some]
  · rw [List.filter_singleton, decide_eq_false hs, cond_false, List.append_nil, lastAck]

/-- Zero stands for "no acknowledgement yet". -/
theorem lastAckReceived_eq (before : List Segment) :
    (before.foldl analyze .new).lastAckReceived = (lastAck before).getD 0 := by
  induction before using List.reverseRecOn with
  | nil => rfl
  | append_singleton before s ih =>
    rw [List.foldl_append, List.foldl_cons, List.foldl_nil, analyze_lastAckReceived, ih,
      lastAck_append_singleton]
    split_ifs <;> rfl

/-- The analysis takes a segment for a duplicate if it repeats a number other than zero. -/
theorem repeats_iff :
    (before.foldl analyze .new).Repeats s ↔ s.RepeatsLast before ∧ s.header.ack ≠ 0 := by
  rw [Repeats, Segment.RepeatsLast, lastAckReceived_eq, and_assoc]
  refine and_congr_right fun _ => ?_
  rcases lastAck before with _ | ack
  · exact iff_of_false (fun h => h.1 rfl) fun h => absurd h.1.symm (Option.some_ne_none _)
  · rw [Option.getD_some, Option.some_inj, eq_comm (a := s.header.ack)]
    constructor
    · rintro ⟨hne, rfl⟩
      exact ⟨rfl, hne⟩
    · rintro ⟨rfl, hne⟩
      exact ⟨hne, rfl⟩

/-- What the analysis takes for a duplicate is counted as a repetition. -/
theorem duplicateAckCount_ne_of_repeats {a : TcpAnalytics} (h : a.Repeats s) :
    (a.analyze s).duplicateAckCount ≠ a.duplicateAckCount := by
  rw [analyze_duplicateAckCount, if_pos h]
  exact fun heq => absurd (add_eq_left.mp heq) (by decide)

theorem fastRetransmitCount_of_not_repeats {a : TcpAnalytics} (h : ¬ a.Repeats s) :
    (a.analyze s).fastRetransmitCount = a.fastRetransmitCount := by
  rw [analyze_fastRetransmitCount, if_neg fun hfast => h hfast.1]
  exact UInt64.add_zero _

/-- A number that is taken for "nothing seen yet" is never counted. -/
theorem duplicateAckCount_of_repeats_zero (h : s.RepeatsLast before) (hack : s.header.ack = 0) :
    ((before.foldl analyze .new).analyze s).duplicateAckCount =
      (before.foldl analyze .new).duplicateAckCount := by
  have hseen : (before.foldl analyze .new).lastAckReceived = 0 := by
    rw [lastAckReceived_eq, h.2, Option.getD_some, hack]
  rw [analyze_duplicateAckCount, if_neg fun hrepeats => hrepeats.2.1 hseen,
    if_neg fun hother => hother.2 hseen]

/-- Along a trace, nothing but pure duplicates is counted exactly if there are no other segments
that repeat an acknowledgement number. -/
theorem countsPureOnly_iff (trace : List Segment) : CountsPureOnly trace ↔ PureRepeats trace := by
  refine forall₄_congr fun before s after _ => ?_
  constructor
  · intro h hrepeats hack
    -- a repeat that is no duplicate must not be counted, and is
    by_contra hpure
    have hcount := (h fun hdup => hpure hdup.2).2 hrepeats
    exact duplicateAckCount_ne_of_repeats (repeats_iff.mpr ⟨hrepeats, hack⟩) hcount
  · intro h hdup
    have hack : s.RepeatsLast before → s.header.ack = 0 := fun hrepeats => by
      by_contra hne
      exact hdup ⟨hrepeats, h hrepeats hne⟩
    refine ⟨fastRetransmitCount_of_not_repeats fun hrepeats => ?_, fun hrepeats => ?_⟩
    · obtain ⟨hrepeats, hne⟩ := repeats_iff.mp hrepeats
      exact hne (hack hrepeats)
    · exact duplicateAckCount_of_repeats_zero hrepeats (hack hrepeats)

end Trace

/-! ## A download -/

/-- A segment of a download that carries 1000 bytes. -/
def downloadSegment (seq : UInt32) : Segment where
  header := ⟨seq, 500, 8192, sampleFlags false false true, 1000⟩
  isOutgoing := false

/-- Four segments in order, all with the acknowledgement number of the request. -/
def download : List Segment :=
  [downloadSegment 1000, downloadSegment 2000, downloadSegment 3000, downloadSegment 4000]

/-- They count as a fast retransmit. -/
theorem not_countsPureOnly_download :
    (∀ s ∈ download, s.isOutgoing = false ∧ 0 < s.header.payloadLen) ∧
      (download.foldl analyze .new).fastRetransmitCount = 1 ∧ ¬ CountsPureOnly download := by
  refine ⟨by decide, by decide, fun h => ?_⟩
  have hdata : ¬ (downloadSegment 4000).Pure := fun hpure => absurd hpure.no_payload (by decide)
  have hcount := (h [downloadSegment 1000, downloadSegment 2000, downloadSegment 3000]
    (downloadSegment 4000) [] rfl fun hdup => hdata hdup.2).1
  exact absurd hcount (by decide)

end TcpAnalytics

end RustNet
