import RustNet.Network.Tcp.Analytics

/-!
# Retransmissions behind a gap

A sender repeats itself when it sends below the highest number it has reached. The analysis compares
with the number it expects next, which an outgoing gap leaves where it is (the incoming check moves
it past the gap). So from the first segment that goes beyond the highest end without starting at it,
the analysis measures by the end before that segment, the *held* end.

Over traces whose numbers do not wrap, this module says exactly which traces are counted right.

## Main results

* `TcpAnalytics.expects_held`: as long as no segment falls between the two ends, the analysis
  expects the held end;
* `TcpAnalytics.counted_iff_below_highest`: every segment after the first is counted exactly when it
  is below the highest end, if and only if no segment starts between the held and the highest end.
-/

namespace RustNet

namespace Segment

/-- The number behind the segment, for segments whose numbers do not wrap. -/
def stop (s : Segment) : ℕ := s.seq.toNat + s.consumed.toNat

/-- An outgoing segment that takes up sequence numbers and does not wrap. -/
def PlainData (s : Segment) : Prop := s.Sends ∧ s.stop < 2 ^ 32

instance (s : Segment) : Decidable s.PlainData := inferInstanceAs (Decidable (_ ∧ _))

end Segment

/-- The highest end of some segments. -/
def highestEnd : List Segment → ℕ
  | [] => 0
  | s :: l => max s.stop (highestEnd l)

/-- How far outgoing segments have come. -/
structure Coverage where
  /-- The highest end. -/
  highest : ℕ
  /-- The highest end before the first segment beyond it that does not start at it, once there is
  one. -/
  gapAt : Option ℕ

namespace Coverage

/-- The coverage of one segment. -/
def first (s : Segment) : Coverage := ⟨s.stop, none⟩

/-- The coverage after one more segment. -/
def next (c : Coverage) (s : Segment) : Coverage where
  highest := max c.highest s.stop
  gapAt := c.gapAt.or (if s.seq.toNat ≠ c.highest ∧ c.highest < s.stop then some c.highest else none)

/-- The end before the first gap, or the highest end. -/
def held (c : Coverage) : ℕ := c.gapAt.getD c.highest

/-- The end before a gap is below the segment that left the gap. -/
def Ordered (c : Coverage) : Prop := ∀ n, c.gapAt = some n → n < c.highest

theorem held_le_highest {c : Coverage} (h : c.Ordered) : c.held ≤ c.highest := by
  rcases hgap : c.gapAt with _ | n
  · rw [held, hgap, Option.getD_none]
  · rw [held, hgap, Option.getD_some]
    exact (h n hgap).le

theorem ordered_next {c : Coverage} {s : Segment} (h : c.Ordered) : (c.next s).Ordered := by
  intro n hn
  rcases hgap : c.gapAt with _ | m
  · simp only [next, hgap, Option.none_or] at hn ⊢
    split_ifs at hn with hbeyond
    rw [← Option.some.inj hn]
    omega
  · simp only [next, hgap, Option.some_or, Option.some.injEq] at hn ⊢
    have := h m hgap
    omega

/-- A segment below the held end, and one beyond the highest end that leaves a gap, leave the held
end where it is. -/
theorem held_next_of_ne {c : Coverage} {s : Segment}
    (hs : s.seq.toNat < c.held ∨ c.highest ≤ s.seq.toNat ∧ s.seq.toNat ≠ c.held) :
    (c.next s).held = c.held := by
  rcases hgap : c.gapAt with _ | n
  · simp only [held, hgap, Option.getD_none] at hs
    by_cases hbeyond : s.seq.toNat ≠ c.highest ∧ c.highest < s.stop
    · simp only [held, next, hgap, Option.none_or, if_pos hbeyond, Option.getD_some,
        Option.getD_none]
    · simp only [held, next, hgap, Option.none_or, if_neg hbeyond, Option.getD_none]
      omega
  · simp only [held, next, hgap, Option.some_or, Option.getD_some]

/-- A segment that starts at the highest end, where it is the held end, moves both. -/
theorem held_next_of_eq {c : Coverage} {s : Segment} (h : c.Ordered)
    (hs : s.seq.toNat = c.held) (hhighest : c.highest ≤ s.seq.toNat) (hstop : s.seq.toNat < s.stop) :
    (c.next s).held = s.stop := by
  rcases hgap : c.gapAt with _ | n
  · simp only [held, hgap, Option.getD_none] at hs
    simp only [held, next, hgap, Option.none_or, hs, ne_eq, not_true_eq_false, false_and, if_false,
      Option.getD_none]
    omega
  · -- a gap keeps the held end below the highest
    have hlt := h n hgap
    simp only [held, hgap, Option.getD_some] at hs
    omega

end Coverage

namespace TcpAnalytics

/-- The analysis expects the held end. -/
structure Expects (a : TcpAnalytics) (c : Coverage) : Prop where
  lastSeqOutbound : a.lastSeqOutbound.toNat = c.held
  held_pos : 0 < c.held
  ordered : c.Ordered

variable {a : TcpAnalytics} {c : Coverage} {s : Segment}

/-- A data segment is counted exactly when it is below the held end. -/
theorem events_retransmit_iff (h : a.Expects c) (hs : s.PlainData) :
    (a.events s).1 = 1 ↔ s.seq.toNat < c.held := by
  -- zero stands for nothing sent yet, and something is held
  have hseen : a.lastSeqOutbound ≠ 0 := by
    intro hzero
    have hheld := h.lastSeqOutbound
    rw [hzero, UInt32.toNat_zero] at hheld
    exact h.held_pos.ne hheld
  have hcounted : (a.events s).1 = 1 ↔ a.Retransmits s := by
    rw [events_eq]
    by_cases hretransmits : a.Retransmits s
    · rw [if_pos hretransmits]
      exact iff_of_true rfl hretransmits
    · rw [if_neg hretransmits]
      exact iff_of_false (by simp) hretransmits
  rw [hcounted, Retransmits, ← h.lastSeqOutbound, ← UInt32.lt_iff_toNat_lt]
  exact ⟨fun hr => hr.2.2, fun hlt => ⟨hs.1, hseen, hlt⟩⟩

theorem stop_eq (hs : s.PlainData) : (s.seq + s.consumed).toNat = s.stop := by
  rw [UInt32.toNat_add, Nat.mod_eq_of_lt]
  · rfl
  · exact hs.2

theorem seq_lt_stop (hs : s.PlainData) : s.seq.toNat < s.stop := by
  have hpos : 0 < s.consumed.toNat := UInt32.lt_iff_toNat_lt.mp hs.1.2
  unfold Segment.stop
  omega

/-- The first data segment is expected to be continued. -/
theorem expects_first (hs : s.PlainData) : (analyze .new s).Expects (.first s) where
  lastSeqOutbound := by
    rw [analyze_lastSeqOutbound, if_pos ⟨hs.1, Or.inl rfl⟩, stop_eq hs]
    rfl
  held_pos := (Nat.zero_le _).trans_lt (seq_lt_stop hs)
  ordered := by
    intro n hn
    exact absurd hn (by simp [Coverage.first])

/-- As long as no segment falls between the two ends, the analysis expects the held end. -/
theorem expects_held (h : a.Expects c) (hs : s.PlainData)
    (hoff : ¬ (c.held ≤ s.seq.toNat ∧ s.seq.toNat < c.highest)) :
    (a.analyze s).Expects (c.next s) := by
  have hle := c.held_le_highest h.ordered
  -- the two spellings of the held end
  have hzero : a.lastSeqOutbound = 0 ↔ c.held = 0 := by
    rw [← h.lastSeqOutbound, ← UInt32.toNat_inj, UInt32.toNat_zero]
  have hstart : s.seq = a.lastSeqOutbound ↔ s.seq.toNat = c.held := by
    rw [← h.lastSeqOutbound, UInt32.toNat_inj]
  by_cases heq : s.seq.toNat = c.held
  · -- in order: both move to the segment's end
    have hnext : (c.next s).held = s.stop :=
      Coverage.held_next_of_eq h.ordered heq (by omega) (seq_lt_stop hs)
    refine ⟨?_, ?_, Coverage.ordered_next h.ordered⟩
    · rw [analyze_lastSeqOutbound, if_pos ⟨hs.1, Or.inr (hstart.mpr heq)⟩, stop_eq hs, hnext]
    · rw [hnext]
      exact (Nat.zero_le _).trans_lt (seq_lt_stop hs)
  · -- a repeat or a gap: both stay
    have hnext : (c.next s).held = c.held := Coverage.held_next_of_ne (by omega)
    have hstays : ¬ (s.Sends ∧ (a.lastSeqOutbound = 0 ∨ s.seq = a.lastSeqOutbound)) := by
      rintro ⟨-, hnone | hsame⟩
      · exact h.held_pos.ne' (hzero.mp hnone)
      · exact heq (hstart.mp hsame)
    refine ⟨?_, ?_, Coverage.ordered_next h.ordered⟩
    · rw [analyze_lastSeqOutbound, if_neg hstays, hnext, h.lastSeqOutbound]
    · rw [hnext]
      exact h.held_pos

end TcpAnalytics

/-! ## Traces -/

/-- The coverage of a trace that starts with `first`. -/
def coverage (first : Segment) (l : List Segment) : Coverage := l.foldl Coverage.next (.first first)

theorem Coverage.highest_foldl (c : Coverage) (l : List Segment) :
    (l.foldl Coverage.next c).highest = max c.highest (highestEnd l) := by
  induction l generalizing c with
  | nil => exact (max_eq_left (Nat.zero_le _)).symm
  | cons s l ih => rw [List.foldl_cons, ih, highestEnd, next, max_assoc]

/-- The coverage keeps the highest end. -/
theorem coverage_highest (first : Segment) (l : List Segment) :
    (coverage first l).highest = highestEnd (first :: l) :=
  Coverage.highest_foldl (.first first) l

namespace TcpAnalytics

/-- The analytics and the coverage, side by side. -/
def besideCoverage (x : TcpAnalytics × Coverage) (s : Segment) : TcpAnalytics × Coverage :=
  (x.1.analyze s, x.2.next s)

theorem foldl_besideCoverage (x : TcpAnalytics × Coverage) (l : List Segment) :
    l.foldl besideCoverage x = (l.foldl analyze x.1, l.foldl Coverage.next x.2) := by
  induction l generalizing x with
  | nil => rfl
  | cons s l ih => exact ih (besideCoverage x s)

/-- Every segment after the first is counted exactly when it is below the highest end, if and only
if no segment starts between the held and the highest end. The segments are outgoing ones with data
whose numbers do not wrap (`hfirst`, `hrest`), in any order. The held end is the one that the
analysis goes by. -/
theorem counted_iff_below_highest {first : Segment} {rest : List Segment}
    (hfirst : first.PlainData) (hrest : ∀ s ∈ rest, s.PlainData) :
    (∀ before s after, rest = before ++ s :: after →
        ((((first :: before).foldl analyze .new).events s).1 = 1 ↔
          s.seq.toNat < highestEnd (first :: before))) ↔
      ∀ before s after, rest = before ++ s :: after →
        ¬ ((coverage first before).held ≤ s.seq.toNat ∧
          s.seq.toNat < highestEnd (first :: before)) := by
  have hagree : ∀ (x : TcpAnalytics × Coverage) (s : Segment), x.1.Expects x.2 → s.PlainData →
      (¬ (x.2.held ≤ s.seq.toNat ∧ s.seq.toNat < x.2.highest) ↔
        ((x.1.events s).1 = 1 ↔ s.seq.toNat < x.2.highest)) := by
    intro x s hx hs
    have hle := Coverage.held_le_highest hx.ordered
    rw [events_retransmit_iff hx hs]
    omega
  have hkeep : ∀ (x : TcpAnalytics × Coverage) (s : Segment), x.1.Expects x.2 → s.PlainData →
      ¬ (x.2.held ≤ s.seq.toNat ∧ s.seq.toNat < x.2.highest) →
        (besideCoverage x s).1.Expects (besideCoverage x s).2 := by
    intro x s hx hs hoff
    exact expects_held hx hs hoff
  -- both sides are guards on one run, which agree while the analysis expects the held end
  have hstart : Expects (analyze .new first, Coverage.first first).1
      (analyze .new first, Coverage.first first).2 := expects_first hfirst
  have hcongr := Run.along_congr hagree hkeep hstart hrest
  rw [Run.along_iff_forall_split, Run.along_iff_forall_split] at hcongr
  simp only [foldl_besideCoverage] at hcongr
  simp only [← coverage_highest]
  exact hcongr.symm

/-- A gap of 100 numbers, then the segment behind it once more. -/
def gapTrace : List Segment :=
  [sampleTcpSegment true 100 100 (sampleFlags false false true),
    sampleTcpSegment true 300 100 (sampleFlags false false true),
    sampleTcpSegment true 300 100 (sampleFlags false false true)]

/-- The repeated segment is below the highest end and not counted: the analysis still expects 200,
where the gap began. -/
theorem gapTrace_repeat_not_counted :
    ∃ first second repeated, gapTrace = [first, second, repeated] ∧
      (∀ s ∈ gapTrace, s.PlainData) ∧
      repeated.seq.toNat < highestEnd [first, second] ∧
      (([first, second].foldl analyze .new).events repeated).1 = 0 := by
  refine ⟨_, _, _, rfl, ?_, ?_, ?_⟩ <;> decide +kernel

/-- A repeated segment without a gap before it is counted. -/
theorem repeat_counted :
    let first := sampleTcpSegment true 100 100 (sampleFlags false false true)
    (((first :: []).foldl analyze .new).events first).1 = 1 ↔
      first.seq.toNat < highestEnd (first :: []) := by
  intro first
  have hfirst : first.PlainData := by decide +kernel
  have hrest : ∀ s ∈ [first], s.PlainData := by
    intro s hs
    rw [List.mem_singleton.mp hs]
    exact hfirst
  refine (counted_iff_below_highest hfirst hrest).mpr ?_ [] first [] rfl
  rintro before s after hsplit ⟨hheld, -⟩
  rcases before with _ | ⟨b, before⟩
  · obtain ⟨rfl, -⟩ := List.cons.inj hsplit
    exact absurd hheld (by decide +kernel)
  · exact absurd (List.cons.inj hsplit).2 (by simp)

end TcpAnalytics

end RustNet
