import RustNet.Network.Tracker.RoundTrip

/-!
# Averaging round-trip times

`take_average_rtt` averages the stored samples in its window and leaves them where they are. The
samples are numbered in the order they are recorded, for the specification only: what is stored are
the last ones, so the numbers follow from how many there are. Since the clock does not go back, the
samples in a window are the newest of those stored.

## Main definitions

* `AveragedRtts`: the tracker, how many samples it has recorded, and the newest sample that an
  average has counted;
* `AveragedRtts.Contributes`: a sample is counted by an average;
* `AveragedRtts.CountedOnce`: no sample is counted by two averages of a run.

## Main results

* `stored_of_stored_next`: a number stands for the same sample as long as it is stored;
* `countedOnce_iff`: no sample is counted twice exactly if every window starts after the newest
  sample that an average has counted, or that sample is no longer stored.
-/

namespace RustNet

/-- A run of the tracker with the averages taken from it. -/
structure AveragedRtts where
  tracker : RttTracker
  /-- How many samples were recorded; they are numbered from zero. -/
  added : ℕ
  /-- The newest sample that an average has counted. -/
  counted : Option ℕ

namespace AveragedRtts

/-- Before the first operation: no sample is held and none has been counted. -/
def start : AveragedRtts := ⟨.new, 0, none⟩

variable (s : AveragedRtts) (e : Instant × RttOp)

/-- The number of the oldest sample stored. -/
def first : ℕ := s.added - s.tracker.recentRtts.length

/-- The sample with a number, if it is stored. -/
def stored (n : ℕ) : Option (Instant × ℕ) :=
  if s.first ≤ n then s.tracker.recentRtts[n - s.first]? else none

/-- The operation takes an average over a window that reaches back to the time `since`. -/
def Reaches (e : Instant × RttOp) (since : Instant) : Prop :=
  match e.2 with
  | .takeAverage windowSecs => e.1.nanos - Duration.fromSecs windowSecs ≤ since.nanos
  | _ => False

instance (since : Instant) : Decidable (Reaches e since) := by
  unfold Reaches
  split <;> infer_instance

theorem Reaches.mono {e : Instant × RttOp} {since since' : Instant} (h : Reaches e since)
    (hle : since.nanos ≤ since'.nanos) : Reaches e since' := by
  obtain ⟨now, op⟩ := e
  cases op with
  | takeAverage windowSecs => exact le_trans (b := since.nanos) h hle
  | _ => exact h

/-- The operation is an average that counts sample `n`. -/
def Contributes (n : ℕ) : Prop := ∃ sample ∈ s.stored n, Reaches e sample.1

/-- One operation; an average that counts a sample counts the newest one stored. -/
def next (s : AveragedRtts) (e : Instant × RttOp) : AveragedRtts where
  tracker := s.tracker.after e
  added := if (s.tracker.returns e).isSome then s.added + 1 else s.added
  counted :=
    if s.tracker.recentRtts.getLast?.any fun sample => decide (Reaches e sample.1) then
      some (s.added - 1)
    else s.counted

/-- No sample contributes to two averages. -/
def CountedOnce (s : AveragedRtts) (events : List (Instant × RttOp)) : Prop :=
  ∀ before e between e' after, events = before ++ e :: between ++ e' :: after →
    ∀ n, (before.foldl next s).Contributes e n →
      ¬ ((before ++ e :: between).foldl next s).Contributes e' n

/-- The newest sample that an average has counted is not stored any more, or out of reach. -/
def FreshWindow (s : AveragedRtts) (e : Instant × RttOp) : Prop :=
  ∀ n ∈ s.counted, ∀ sample ∈ s.stored n, ¬ Reaches e sample.1

instance : Decidable (s.FreshWindow e) := by
  unfold FreshWindow
  infer_instance

/-! ## The stored samples -/

theorem stored_eq_some_iff {n : ℕ} {sample : Instant × ℕ} :
    s.stored n = some sample ↔ s.first ≤ n ∧ s.tracker.recentRtts[n - s.first]? = some sample := by
  unfold stored
  by_cases hfirst : s.first ≤ n
  · rw [if_pos hfirst, and_iff_right hfirst]
  · rw [if_neg hfirst]
    exact iff_of_false nofun fun h => hfirst h.1

/-- The samples that an average counts are those that contribute to it. -/
theorem mem_samplesWithin_iff {windowSecs : ℕ} {now : Instant} {sample : Instant × ℕ} :
    sample ∈ s.tracker.samplesWithin windowSecs now ↔
      ∃ n, s.stored n = some sample ∧ Reaches (now, .takeAverage windowSecs) sample.1 := by
  rw [RttTracker.samplesWithin, List.mem_filter, decide_eq_true_iff, exists_and_right]
  refine and_congr_left fun _ => ?_
  rw [List.mem_iff_getElem?]
  constructor
  · rintro ⟨i, hi⟩
    refine ⟨s.first + i, s.stored_eq_some_iff.mpr ⟨Nat.le_add_right _ _, ?_⟩⟩
    rwa [Nat.add_sub_cancel_left]
  · rintro ⟨n, hn⟩
    exact ⟨n - s.first, (s.stored_eq_some_iff.mp hn).2⟩

/-- Samples are recorded at the end, and the oldest one makes room; only clearing takes all. -/
theorem after_recentRtts (t : RttTracker) (e : Instant × RttOp) :
    (t.after e).recentRtts = match t.returns e with
      | some rtt =>
        (if t.maxRecentRtts ≤ t.recentRtts.length then t.recentRtts.tail else t.recentRtts) ++
          [(e.1, rtt)]
      | none => if e.2 = .clear then [] else t.recentRtts := by
  obtain ⟨now, op⟩ := e
  cases op with
  | synAck key =>
    show (t.recordSynAck key now).1.recentRtts = match (t.recordSynAck key now).2 with
      | some rtt => _
      | none => _
    unfold RttTracker.recordSynAck
    cases t.pendingSyns.lookup key with
    | some since => rfl
    | none => rfl
  | _ => rfl

/-- The samples are stored in the order of their times, and have numbers. -/
structure InOrder (s : AveragedRtts) : Prop where
  length_le : s.tracker.recentRtts.length ≤ s.added
  sorted : s.tracker.recentRtts.Pairwise fun a b => a.1.nanos ≤ b.1.nanos
  counted_lt : ∀ n ∈ s.counted, n < s.added

variable {s e}

/-- A newer sample than one that contributes contributes too. -/
theorem Contributes.mono (hs : s.InOrder) {m n : ℕ} (h : s.Contributes e m) (hle : m ≤ n)
    (hlt : n < s.added) : s.Contributes e n := by
  obtain ⟨older, hm, hreach⟩ := h
  obtain ⟨hfirst, hget⟩ := s.stored_eq_some_iff.mp hm
  have hlength := hs.length_le
  have hbound : n - s.first < s.tracker.recentRtts.length := by
    unfold first at hfirst ⊢
    omega
  obtain ⟨newer, hnewer⟩ : ∃ newer, s.tracker.recentRtts[n - s.first]? = some newer :=
    ⟨_, List.getElem?_eq_getElem hbound⟩
  refine ⟨newer, s.stored_eq_some_iff.mpr ⟨hfirst.trans hle, hnewer⟩, ?_⟩
  -- the newer sample has the later time
  have htime : older.1.nanos ≤ newer.1.nanos := by
    rcases (Nat.sub_le_sub_right hle s.first).eq_or_lt with heq | hlt'
    · rw [heq, hnewer] at hget
      rw [Option.some.inj hget]
    · obtain ⟨hi, rfl⟩ := List.getElem?_eq_some_iff.mp hget
      obtain ⟨hj, rfl⟩ := List.getElem?_eq_some_iff.mp hnewer
      exact List.pairwise_iff_getElem.mp hs.sorted _ _ hi hj hlt'
  exact hreach.mono htime

/-- The newest sample stored is the last one recorded. -/
theorem stored_pred {sample : Instant × ℕ} (hs : s.InOrder)
    (h : s.tracker.recentRtts.getLast? = some sample) : s.stored (s.added - 1) = some sample := by
  have hlength := hs.length_le
  have hpos : s.tracker.recentRtts.length ≠ 0 := by
    intro hzero
    rw [List.eq_nil_of_length_eq_zero hzero] at h
    cases h
  rw [stored_eq_some_iff, List.getLast?_eq_getElem?] at *
  unfold first
  refine ⟨by omega, ?_⟩
  rw [← h]
  congr 1
  omega

theorem Contributes.lt (hs : s.InOrder) {n : ℕ} (h : s.Contributes e n) : n < s.added := by
  obtain ⟨sample, hn, -⟩ := h
  obtain ⟨hfirst, hget⟩ := s.stored_eq_some_iff.mp hn
  obtain ⟨hbound, -⟩ := List.getElem?_eq_some_iff.mp hget
  have hlength := hs.length_le
  unfold first at hfirst hbound
  omega

/-- What an average counts: the newest sample if it counts any. -/
theorem counted_next (hs : s.InOrder) (e : Instant × RttOp) :
    ((∃ n, s.Contributes e n) ∧ s.Contributes e (s.added - 1) ∧
        (s.next e).counted = some (s.added - 1)) ∨
      (∀ n, ¬ s.Contributes e n) ∧ (s.next e).counted = s.counted := by
  cases hlast : s.tracker.recentRtts.getLast? with
  | none =>
    refine Or.inr ⟨?_, by rw [next, hlast]; rfl⟩
    rintro n ⟨sample, hn, -⟩
    have hget := (s.stored_eq_some_iff.mp hn).2
    rw [List.getLast?_eq_none_iff.mp hlast] at hget
    cases hget
  | some last =>
    have hstored := stored_pred hs hlast
    by_cases hreach : Reaches e last.1
    · refine Or.inl ⟨⟨_, last, hstored, hreach⟩, ⟨last, hstored, hreach⟩, ?_⟩
      rw [next, hlast]
      exact if_pos (decide_eq_true hreach)
    · refine Or.inr ⟨fun n hn => ?_, ?_⟩
      -- an older sample in reach would bring the newest into reach
      · have hlt := hn.lt hs
        obtain ⟨sample, hsample, hsampleReach⟩ := hn.mono hs (Nat.le_sub_one_of_lt hlt)
          (Nat.sub_one_lt_of_lt hlt)
        rw [hstored] at hsample
        obtain rfl := Option.some.inj hsample
        exact hreach hsampleReach
      · rw [next, hlast]
        refine if_neg ?_
        rw [Option.any_some, decide_eq_true_iff]
        exact hreach

/-- What is stored after an operation are the newest of the samples stored before, and the one it
records. -/
theorem recentRtts_after_cases (t : RttTracker) (e : Instant × RttOp) :
    (∃ rtt k, t.returns e = some rtt ∧
        (t.after e).recentRtts = t.recentRtts.drop k ++ [(e.1, rtt)]) ∨
      t.returns e = none ∧ ∃ k, (t.after e).recentRtts = t.recentRtts.drop k := by
  rw [after_recentRtts]
  cases t.returns e with
  | some rtt =>
    dsimp only
    split
    · exact Or.inl ⟨rtt, 1, rfl, by rw [List.drop_one]⟩
    · exact Or.inl ⟨rtt, 0, rfl, rfl⟩
  | none =>
    dsimp only
    split
    · exact Or.inr ⟨rfl, t.recentRtts.length, List.drop_length.symm⟩
    · exact Or.inr ⟨rfl, 0, rfl⟩

/-- As long as a sample is stored, its number stands for it. -/
theorem stored_of_stored_next (hs : s.InOrder) {n : ℕ} (hn : n < s.added) {sample : Instant × ℕ}
    (h : (s.next e).stored n = some sample) : s.stored n = some sample := by
  obtain ⟨hfirst, hget⟩ := (s.next e).stored_eq_some_iff.mp h
  have hlength := hs.length_le
  -- the numbers of the samples kept end where they ended before
  obtain ⟨k, hkept, hget⟩ : ∃ k, (s.next e).first = s.added - (s.tracker.recentRtts.drop k).length ∧
      (s.tracker.recentRtts.drop k)[n - (s.next e).first]? = some sample := by
    rcases recentRtts_after_cases s.tracker e with ⟨rtt, k, hreturns, hrecent⟩ |
      ⟨hreturns, k, hrecent⟩
    · have hnext : (s.next e).first = s.added - (s.tracker.recentRtts.drop k).length := by
        show (if (s.tracker.returns e).isSome then s.added + 1 else s.added) -
          (s.tracker.after e).recentRtts.length = _
        rw [hrecent, hreturns, List.length_append]
        simp
      refine ⟨k, hnext, ?_⟩
      have hdrop := (List.drop_sublist k s.tracker.recentRtts).length_le
      have hindex : n - (s.next e).first < (s.tracker.recentRtts.drop k).length := by omega
      have hget' : (s.tracker.recentRtts.drop k ++ [(e.1, rtt)])[n - (s.next e).first]? =
          some sample := hrecent ▸ hget
      rwa [List.getElem?_append_left hindex] at hget'
    · refine ⟨k, ?_, hrecent ▸ hget⟩
      show (if (s.tracker.returns e).isSome then s.added + 1 else s.added) -
        (s.tracker.after e).recentRtts.length = _
      rw [hrecent, hreturns]
      simp
  rw [List.length_drop] at hkept
  rw [List.getElem?_drop] at hget
  have hstart : s.first = s.added - s.tracker.recentRtts.length := rfl
  refine s.stored_eq_some_iff.mpr ⟨by omega, ?_⟩
  rw [← hget]
  congr 1
  omega

/-- An operation that comes after the recorded samples keeps them in order. -/
theorem inOrder_next (hs : s.InOrder)
    (hlate : ∀ sample ∈ s.tracker.recentRtts, sample.1.nanos ≤ e.1.nanos) :
    (s.next e).InOrder := by
  have hlength := hs.length_le
  have hadded : (s.next e).added = if (s.tracker.returns e).isSome then s.added + 1 else s.added :=
    rfl
  have hgrows : s.added ≤ (s.next e).added := by
    rw [hadded]
    split <;> omega
  have hcounted : ∀ n ∈ (s.next e).counted, n < (s.next e).added := by
    intro n hn
    rcases counted_next hs e with ⟨-, hnewest, heq⟩ | ⟨-, heq⟩
    · rw [heq] at hn
      obtain rfl := Option.some.inj hn
      exact (hnewest.lt hs).trans_le hgrows
    · rw [heq] at hn
      exact (hs.counted_lt n hn).trans_le hgrows
  -- what is kept is a suffix of what was stored, and a new sample stands behind it
  rcases recentRtts_after_cases s.tracker e with ⟨rtt, k, hreturns, hrecent⟩ |
    ⟨hreturns, k, hrecent⟩
  · have hkept := List.drop_sublist k s.tracker.recentRtts
    refine ⟨?_, ?_, hcounted⟩
    · have hkeptLength := hkept.length_le
      rw [hadded, hreturns, Option.isSome_some, if_pos rfl]
      show (s.tracker.after e).recentRtts.length ≤ s.added + 1
      rw [hrecent, List.length_append, List.length_singleton]
      omega
    · show (s.tracker.after e).recentRtts.Pairwise _
      rw [hrecent, List.pairwise_append]
      refine ⟨hs.sorted.sublist hkept, List.pairwise_singleton _ _, fun sample hsample new hnew => ?_⟩
      rw [List.mem_singleton.mp hnew]
      exact hlate sample (hkept.subset hsample)
  · have hkept : (s.next e).tracker.recentRtts.Sublist s.tracker.recentRtts :=
      hrecent ▸ List.drop_sublist k s.tracker.recentRtts
    exact ⟨(hkept.length_le.trans hlength).trans hgrows, hs.sorted.sublist hkept, hcounted⟩

/-! ## Runs -/

/-- Over a run in the order of time the samples are in order, and each has the time of one of the
operations. -/
theorem inOrder_foldl {l : List (Instant × RttOp)}
    (hl : l.Pairwise fun a b => a.1.nanos ≤ b.1.nanos) :
    (l.foldl next start).InOrder ∧
      ∀ sample ∈ (l.foldl next start).tracker.recentRtts, ∃ e ∈ l, e.1 = sample.1 := by
  -- the last operation of a run comes after all samples of the run before it
  induction l using List.reverseRecOn with
  | nil => exact ⟨⟨Nat.le_refl 0, List.Pairwise.nil, nofun⟩, nofun⟩
  | append_singleton l e ih =>
    rw [List.pairwise_append] at hl
    obtain ⟨horder, htimes⟩ := ih hl.1
    rw [List.foldl_append, List.foldl_cons, List.foldl_nil]
    refine ⟨inOrder_next horder fun sample hsample => ?_, fun sample hsample => ?_⟩
    · obtain ⟨e', he', htime⟩ := htimes sample hsample
      rw [← htime]
      exact hl.2.2 e' he' e (List.mem_singleton_self e)
    · rcases recentRtts_after_cases (l.foldl next start).tracker e with
        ⟨rtt, k, -, hrecent⟩ | ⟨-, k, hrecent⟩
      · have hmem : sample ∈ (l.foldl next start).tracker.recentRtts.drop k ++ [(e.1, rtt)] :=
          hrecent ▸ hsample
        rcases List.mem_append.mp hmem with hold | hnew
        · obtain ⟨e', he', htime⟩ := htimes sample (List.mem_of_mem_drop hold)
          exact ⟨e', List.mem_append_left _ he', htime⟩
        · refine ⟨e, by simp, ?_⟩
          rw [List.mem_singleton.mp hnew]
      · have hold : sample ∈ (l.foldl next start).tracker.recentRtts.drop k := hrecent ▸ hsample
        obtain ⟨e', he', htime⟩ := htimes sample (List.mem_of_mem_drop hold)
        exact ⟨e', List.mem_append_left _ he', htime⟩

/-- The newest counted sample was counted by an average of the run, and no average counted a newer
one. -/
theorem counted_foldl {l : List (Instant × RttOp)}
    (hl : l.Pairwise fun a b => a.1.nanos ≤ b.1.nanos) :
    (∀ n ∈ (l.foldl next start).counted, ∃ before e after, l = before ++ e :: after ∧
        (before.foldl next start).Contributes e n) ∧
      ∀ before e after n, l = before ++ e :: after → (before.foldl next start).Contributes e n →
        ∃ m ∈ (l.foldl next start).counted, n ≤ m := by
  induction l using List.reverseRecOn with
  | nil => exact ⟨nofun, fun before e after n h => by simp at h⟩
  | append_singleton l e₀ ih =>
    have hl' := (List.pairwise_append.mp hl).1
    obtain ⟨hcounted, hnewest⟩ := ih hl'
    obtain ⟨horder, -⟩ := inOrder_foldl hl'
    rw [List.foldl_append, List.foldl_cons, List.foldl_nil]
    rcases counted_next horder e₀ with ⟨-, hlast, hnext⟩ | ⟨hnone, hnext⟩ <;> rw [hnext]
    -- the last operation counts the newest sample stored
    · refine ⟨fun n hn => ?_, fun before e after n h hn => ⟨_, rfl, ?_⟩⟩
      · obtain rfl := Option.some.inj hn
        exact ⟨l, e₀, [], rfl, hlast⟩
      · rcases Run.cut_append_singleton h with ⟨rfl, rfl, rfl⟩ | ⟨rest, rfl, rfl⟩
        · exact Nat.le_sub_one_of_lt (hn.lt horder)
        · obtain ⟨m, hm, hle⟩ := hnewest before e rest n rfl hn
          exact hle.trans (Nat.le_sub_one_of_lt (horder.counted_lt m hm))
    -- the last operation counts nothing
    · refine ⟨fun n hn => ?_, fun before e after n h hn => ?_⟩
      · obtain ⟨before, e, after, rfl, hbefore⟩ := hcounted n hn
        exact ⟨before, e, after ++ [e₀], by simp, hbefore⟩
      · rcases Run.cut_append_singleton h with ⟨rfl, rfl, rfl⟩ | ⟨rest, rfl, rfl⟩
        · exact absurd hn (hnone n)
        · exact hnewest before e rest n rfl hn

/-- When the clock does not go back (`hevents`), no sample contributes to two averages exactly if
the window of each average starts after the newest sample counted before, or that sample is not
stored any more. `take_average_rtt` reads the samples and leaves them where they are, so two windows
that overlap share them. -/
theorem countedOnce_iff {events : List (Instant × RttOp)}
    (hevents : events.Pairwise fun a b => a.1.nanos ≤ b.1.nanos) :
    start.CountedOnce events ↔ Run.Along next FreshWindow start events := by
  rw [Run.along_iff_forall_split]
  constructor
  · rintro h before e after rfl n hn sample hsample hreach
    have hbefore := (List.pairwise_append.mp hevents).1
    obtain ⟨before, e', between, rfl, hcounted⟩ := (counted_foldl hbefore).1 n hn
    refine h before e' between e after (by simp) n hcounted ⟨sample, hsample, hreach⟩
  · rintro h before e between e' after rfl n hn hn'
    have hbefore := (List.pairwise_append.mp hevents).1
    -- of the samples counted the newest decides, since the clock is ordered
    obtain ⟨m, hm, hle⟩ := (counted_foldl hbefore).2 before e between n rfl hn
    obtain ⟨horder, -⟩ := inOrder_foldl hbefore
    obtain ⟨sample, hsample, hreach⟩ := hn'.mono horder hle (horder.counted_lt m hm)
    exact h _ e' after rfl m hm sample hsample hreach

/-- One sample, and an average over the last minute in each of the next two seconds. -/
def averagedTwice : List (Instant × RttOp) :=
  let key : ConnectionKey := ⟨.lan 1 5000, .lan 2 443⟩
  [(⟨0⟩, .syn key), (⟨20000000⟩, .synAck key), (⟨1000000000⟩, .takeAverage 60),
    (⟨2000000000⟩, .takeAverage 60)]

/-- Both averages count it. -/
theorem averagedTwice_not_countedOnce :
    averagedTwice.Pairwise (fun a b => a.1.nanos ≤ b.1.nanos) ∧
      (((averagedTwice.take 2).foldl next start).tracker.takeAverageRtt 60 ⟨1000000000⟩).2 =
        some 20 ∧
      (((averagedTwice.take 3).foldl next start).tracker.takeAverageRtt 60 ⟨2000000000⟩).2 =
        some 20 ∧
      ¬ start.CountedOnce averagedTwice := by
  refine ⟨by decide +kernel, by decide +kernel, by decide +kernel, fun h => ?_⟩
  have hsample : ∀ s : AveragedRtts, s.stored 0 = some (⟨20000000⟩, 20000000) →
      ∀ now, Reaches (now, .takeAverage 60) ⟨20000000⟩ → s.Contributes (now, .takeAverage 60) 0 :=
    fun _ hstored _ hreach => ⟨_, hstored, hreach⟩
  exact h (averagedTwice.take 2) _ [] _ [] rfl 0 (hsample _ (by decide +kernel) _ (by decide))
    (hsample _ (by decide +kernel) _ (by decide))

/-- Windows of a second, taken a second apart, count it once. -/
theorem averagedApart_countedOnce :
    let key : ConnectionKey := ⟨.lan 1 5000, .lan 2 443⟩
    start.CountedOnce [(⟨0⟩, .syn key), (⟨20000000⟩, .synAck key), (⟨1000000000⟩, .takeAverage 1),
      (⟨2000000000⟩, .takeAverage 1)] :=
  (countedOnce_iff (by decide +kernel)).mpr (by decide +kernel)

end AveragedRtts

end RustNet
