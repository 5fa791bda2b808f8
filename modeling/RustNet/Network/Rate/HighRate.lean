import Mathlib.Algebra.Order.BigOperators.Group.List
import Mathlib.Data.List.Chain
import Mathlib.Tactic.NormNum
import RustNet.Network.Rate.Window

/-!
# The rate of a connection that is never idle

A counter that rises with every update, and updates that have been arriving for a second and more.
A rate is measured only where the samples kept span a second, and no more than 20,000 are kept:
with more updates than that in a second, the busiest connections have a rate of zero.

## Main definitions

* `Rising`: the events with which the counter of a direction rises;
* `Arriving`: updates without interruption, for a second and up to now.

## Main results

* `exists_recent`: an update that no rule but the cap takes out of the window;
* `rateAt_pos_iff`: the rate is above zero exactly if the newest 20,000 updates span a second.
-/

namespace RustNet

open RateTracker

/-- The nanoseconds of a second. -/
def second : ℤ := 1000000000

/-- When an event updates the counters. -/
def RateEvent.time : RateEvent → Option ℤ
  | update now _ _ => some now.nanos
  | prune => none

/-- When the updates came, in their order. Prunings have no time of their own. -/
def updateTimes (events : List RateEvent) : List ℤ := events.filterMap RateEvent.time

/-- In order, and the counter of the direction rises. -/
def Rising (d : RateDirection) (t : RateTracker) (event : RateEvent) : Prop :=
  t.InOrder event ∧ ∀ count ∈ event.count d, d.last t < count

/-- Updates without interruption, for a second and up to now: from one that came a second before
the last or earlier, no two are more than a second apart, nor is the last one from now. -/
def Arriving (times : List ℤ) (now : ℤ) : Prop :=
  ∃ before first rest last, times = before ++ first :: rest ∧ times.getLast? = some last ∧
    (first :: rest).IsChain (fun a b => b ≤ a + second) ∧ first + second ≤ last ∧
    last ≤ now ∧ now ≤ last + second

/-- A second or more from the first to the last. -/
def SpansSecond (times : List ℤ) : Prop :=
  ∃ first last, times.head? = some first ∧ times.getLast? = some last ∧ first + second ≤ last

/-! ## Updates in the window -/

section Times

variable {times : List ℤ} {now : ℤ} {cap : ℕ}

/-- A list in which something holds is split at the last place where it does. -/
theorem exists_last_split {α : Type*} {p : α → Prop} {l : List α} (h : ∃ a ∈ l, p a) :
    ∃ before a after, l = before ++ a :: after ∧ p a ∧ ∀ b ∈ after, ¬ p b := by
  induction l with
  | nil =>
    obtain ⟨a, ha, -⟩ := h
    cases ha
  -- the last one of the tail, if there is any, else the head
  | cons a l ih =>
    by_cases hl : ∃ b ∈ l, p b
    · obtain ⟨before, b, after, rfl, hb, hafter⟩ := ih hl
      exact ⟨a :: before, b, after, rfl, hb, hafter⟩
    · push Not at hl
      obtain ⟨b, hb, hpb⟩ := h
      rcases List.mem_cons.mp hb with rfl | hb
      · exact ⟨[], b, l, rfl, hpb, hl⟩
      · exact absurd hpb (hl b hb)

/-- Where the newest span a second, one of them came between two seconds and one before the last. -/
theorem exists_recent (harriving : Arriving times now)
    (hspan : SpansSecond (SlidingWindow.newest cap times)) :
    ∃ before u after last, times = before ++ u :: after ∧ after.length < cap ∧
      times.getLast? = some last ∧ last ≤ u + 2 * second ∧ u + second ≤ last := by
  obtain ⟨before, first, rest, last, htimes, hlast, hchain, hfirst, -, -⟩ := harriving
  obtain ⟨oldest, newest, holdest, hnewest, hspan⟩ := hspan
  have hmem : oldest ∈ SlidingWindow.newest cap times := List.mem_of_head? holdest
  have hnewest' : newest = last := by
    rw [SlidingWindow.newest, List.getLast?_drop] at hnewest
    split_ifs at hnewest
    exact Option.some.inj (hnewest.symm.trans hlast)
  subst hnewest'
  -- the last update a second before the last or earlier
  obtain ⟨before', u, after, hsplit, hu, hafter⟩ := exists_last_split
    (p := fun u => u + second ≤ newest)
    ⟨oldest, (SlidingWindow.newest_suffix cap times).subset hmem, hspan⟩
  refine ⟨before', u, after, newest, hsplit, ?_, hlast, ?_, hu⟩
  · -- it is one of the newest, since the oldest of those does not come after it
    by_contra hlen
    refine hafter oldest ?_ hspan
    rw [hsplit, SlidingWindow.newest] at hmem
    refine (List.IsSuffix.subset ?_) hmem
    refine List.suffix_of_suffix_length_le (List.drop_suffix _ _)
      ((List.suffix_cons u after).trans (List.suffix_append before' _)) ?_
    simp only [List.length_drop, List.length_append, List.length_cons]
    omega
  · -- the next one is within a second of it, and of the last
    have hsuffix : u :: after <:+ first :: rest := by
      have hstretch : first :: rest <:+ times := ⟨before, htimes.symm⟩
      have hend : u :: after <:+ times := ⟨before', hsplit.symm⟩
      rcases List.suffix_or_suffix_of_suffix hend hstretch with h | h
      · exact h
      rcases List.suffix_cons_iff.mp h with h | h
      · exact h ▸ List.suffix_rfl
      · exact absurd hfirst (hafter first (h.subset List.mem_cons_self))
    cases after with
    | nil =>
      rw [hsplit, List.getLast?_append_cons] at hlast
      obtain rfl := Option.some.inj hlast
      simp [second] at hu
    | cons next after =>
      have hnext := hafter next List.mem_cons_self
      have hgap := (List.isChain_cons_cons.mp (hchain.suffix hsuffix)).1
      omega

end Times

/-! ## Runs of a rising counter -/

section Runs

variable {t : RateTracker} {d : RateDirection} {event : RateEvent} {events : List RateEvent}
  {now : Instant}

theorem inOrder_of_rising (h : Run.Along step (Rising d) t events) :
    Run.Along step InOrder t events :=
  h.mono fun _ _ => And.left

theorem map_time_pushed (t : RateTracker) (events : List RateEvent) :
    (t.pushed events).map (fun sample => sample.timestamp.nanos) = updateTimes events := by
  induction events generalizing t with
  | nil => rfl
  | cons event events ih =>
    rw [pushed_cons, List.map_append, ih]
    cases event with
    | update now bytesSent bytesReceived =>
      rw [pushedBy_update]
      rfl
    | prune => rfl

/-- An update of a rising counter pushes a sample with bytes. -/
theorem delta_pos_of_mem_pushed (h : Run.Along step (Rising d) t events) :
    ∀ sample ∈ t.pushed events, 0 < (d.delta sample).toNat := by
  induction events generalizing t with
  | nil => simp
  | cons event events ih =>
    intro sample hsample
    rw [pushed_cons, List.mem_append] at hsample
    rcases hsample with hsample | hsample
    · have hsum := last_add_sum_pushedBy d h.1.1
      cases event with
      -- a prune pushes nothing
      | prune => cases hsample
      | update now bytesSent bytesReceived =>
        rw [pushedBy_update] at hsample hsum
        obtain rfl := List.mem_singleton.mp hsample
        rw [List.map_singleton, List.sum_singleton, last_step] at hsum
        have hrise := h.1.2
        cases d with
        | outgoing =>
          have := UInt64.lt_iff_toNat_lt.mp (hrise bytesSent rfl)
          simp only [RateEvent.count, Option.getD_some] at hsum
          omega
        | incoming =>
          have := UInt64.lt_iff_toNat_lt.mp (hrise bytesReceived rfl)
          simp only [RateEvent.count, Option.getD_some] at hsum
          omega
    · exact ih h.2 sample hsample

theorem one_le_asSecs_iff {n : ℤ} : 1 ≤ Duration.asSecs n.toNat ↔ second ≤ n := by
  unfold Duration.asSecs second
  rw [le_div_iff₀ (by norm_num)]
  constructor
  · intro h
    have : (1000000000 : ℕ) ≤ n.toNat := by exact_mod_cast (one_mul (1000000000 : ℚ) ▸ h)
    omega
  · intro h
    have : (1000000000 : ℕ) ≤ n.toNat := by omega
    rw [one_mul]
    exact_mod_cast this

theorem asSecs_le_asSecs {m n : ℕ} (h : m ≤ n) : Duration.asSecs m ≤ Duration.asSecs n := by
  unfold Duration.asSecs
  gcongr

theorem lastUpdate_run (t : RateTracker) (events : List RateEvent) :
    (events.foldl step t).lastUpdate.nanos =
      (updateTimes events).getLast?.getD t.lastUpdate.nanos := by
  induction events generalizing t with
  | nil => rfl
  | cons event events ih =>
    rw [List.foldl_cons, ih]
    cases event with
    | prune => rfl
    | update now bytesSent bytesReceived =>
      show _ = ((now.nanos :: updateTimes events).getLast?).getD _
      rw [List.getLast?_cons]
      rfl

/-! ## When the rate is above zero -/

/-- A tracker with the counts of its connection, and a window of ten seconds. -/
theorem keeps_new (created : Instant) (bytesSent bytesReceived : UInt64) :
    ((new created).initializeWithCounts bytesSent bytesReceived).Keeps [] :=
  keeps_start (Duration.fromSecs 10) created bytesSent bytesReceived

/-- The oldest of samples in order. -/
theorem head?_le {l : List RateSample} {oldest sample : RateSample}
    (h : l.Pairwise fun a b => a.timestamp.nanos ≤ b.timestamp.nanos)
    (holdest : l.head? = some oldest) (hsample : sample ∈ l) :
    oldest.timestamp.nanos ≤ sample.timestamp.nanos := by
  obtain ⟨rest, rfl⟩ := List.head?_eq_some_iff.mp holdest
  rcases List.mem_cons.mp hsample with rfl | hsample
  · exact le_rfl
  · exact (List.pairwise_cons.mp h).1 sample hsample

theorem exists_head?_of_mem {α : Type*} {l : List α} {a : α} (h : a ∈ l) :
    ∃ first, l.head? = some first :=
  ⟨_, List.head?_eq_some_head (List.ne_nil_of_mem h)⟩

theorem getLast?_of_suffix {α : Type*} {l l' : List α} {a : α} (h : l <:+ l')
    (ha : l.getLast? = some a) : l'.getLast? = some a := by
  obtain ⟨before, rfl⟩ := h
  rw [List.getLast?_append, ha, Option.some_or]

/-- A rate is above zero only where the newest samples span a second. -/
theorem spansSecond_of_rateAt_pos {pushed : List RateSample} (hkeeps : t.Keeps pushed)
    (hpos : 0 < d.rateAt t now) :
    SpansSecond (SlidingWindow.newest t.maxSamples
      (pushed.map fun sample => sample.timestamp.nanos)) := by
  -- where none is measured it is zero
  have hmeasures : t.Measures now := by
    by_contra hmeasures
    exact hpos.ne' (rateAt_eq_zero d hmeasures)
  obtain ⟨oldest, newest, holdest, hnewest, -, hspan⟩ := hmeasures
  have hspan : second ≤ newest.timestamp.nanos - oldest.timestamp.nanos :=
    one_le_asSecs_iff.mp hspan
  have hkept : t.samples <:+ SlidingWindow.newest t.maxSamples pushed := by
    refine List.suffix_of_suffix_length_le hkeeps.holds.suffix
      (SlidingWindow.newest_suffix _ _) ?_
    rw [SlidingWindow.length_newest]
    exact le_min hkeeps.holds.suffix.length_le hkeeps.holds.length_le
  have hmem : oldest ∈ SlidingWindow.newest t.maxSamples pushed :=
    hkept.subset (List.mem_of_head? holdest)
  obtain ⟨first, hfirst⟩ := exists_head?_of_mem hmem
  have hle := head?_le
    (hkeeps.pairwise.sublist (SlidingWindow.newest_suffix t.maxSamples pushed).sublist) hfirst hmem
  refine ⟨first.timestamp.nanos, newest.timestamp.nanos, ?_, ?_, by omega⟩
  · rw [← SlidingWindow.map_newest, List.head?_map, hfirst]
    rfl
  · rw [← SlidingWindow.map_newest, List.getLast?_map, getLast?_of_suffix hkept hnewest]
    rfl

/-- Where they do, and updates have been arriving, a rate is measured. -/
theorem measures_of_spansSecond {pushed : List RateSample} (hkeeps : t.Keeps pushed)
    (hwindow : t.windowDuration = Duration.fromSecs 10)
    (hlast : ∀ last ∈ (pushed.map fun sample => sample.timestamp.nanos).getLast?,
      t.lastUpdate.nanos = last)
    (harriving : Arriving (pushed.map fun sample => sample.timestamp.nanos) now.nanos)
    (hspan : SpansSecond (SlidingWindow.newest t.maxSamples
      (pushed.map fun sample => sample.timestamp.nanos))) :
    t.Measures now := by
  obtain ⟨before, u, after, last, hsplit, hlen, hlast', hrecent, hu⟩ :=
    exists_recent harriving hspan
  obtain ⟨-, -, -, _, -, hlast'', -, -, hle, hnow⟩ := harriving
  obtain rfl := Option.some.inj (hlast'.symm.trans hlast'')
  have hcutoff : t.cutoff = last - 10000000000 := by
    rw [cutoff, hwindow, hlast last hlast']
    rfl
  obtain ⟨before', rest, rfl, -, hrest⟩ := List.map_eq_append_iff.mp hsplit
  obtain ⟨sample, after', rfl, rfl, rfl⟩ := List.map_eq_cons_iff.mp hrest
  -- the update between two seconds and one before the last is in the window
  have hkept : sample :: after' <:+ t.samples :=
    hkeeps.holds.suffix_of_le rfl (by rwa [List.length_map] at hlen) (by
      rw [hcutoff]
      unfold second at hrecent
      omega)
  have hmem : sample ∈ t.samples := hkept.subset List.mem_cons_self
  obtain ⟨oldest, holdest⟩ := exists_head?_of_mem hmem
  obtain ⟨newest, hnewest⟩ : ∃ newest, t.samples.getLast? = some newest :=
    ⟨_, getLast?_of_suffix hkept (List.getLast?_eq_some_getLast (List.cons_ne_nil _ _))⟩
  have hnanos : newest.timestamp.nanos = last := by
    rw [List.getLast?_map, getLast?_of_suffix hkeeps.holds.suffix hnewest] at hlast'
    exact Option.some.inj hlast'
  have holdest_le := head?_le (hkeeps.pairwise.sublist hkeeps.holds.suffix.sublist) holdest hmem
  -- the newest sample is no older than a second, and a second is within the window
  refine ⟨oldest, newest, holdest, hnewest, ?_, one_le_asSecs_iff.mpr (by omega)⟩
  calc Duration.asSecs (now.durationSince newest.timestamp)
      ≤ Duration.asSecs (Duration.fromSecs 1) := asSecs_le_asSecs (by
        rw [Instant.durationSince, hnanos, Duration.fromSecs]
        unfold second at hnow
        omega)
    _ ≤ Duration.asSecs t.windowDuration * (11 / 10) := by
        rw [hwindow]
        decide +kernel

/-- **The rate is above zero exactly if the newest 20,000 updates span a second.** They are all that
the tracker keeps.

The counts at the start are any. The updates come in order and each raises the counter of the
direction (`hrising`); they come without interruption for a second or more, up to `now`
(`harriving`). -/
theorem rateAt_pos_iff (d : RateDirection) (created : Instant) (bytesSent bytesReceived : UInt64)
    (events : List RateEvent) (now : Instant)
    (hrising : Run.Along step (Rising d)
      ((new created).initializeWithCounts bytesSent bytesReceived) events)
    (harriving : Arriving (updateTimes events) now.nanos) :
    0 < d.rateAt (events.foldl step ((new created).initializeWithCounts bytesSent bytesReceived))
        now ↔
      SpansSecond (SlidingWindow.newest 20000 (updateTimes events)) := by
  set origin := (new created).initializeWithCounts bytesSent bytesReceived with horigin
  have hkeeps := (keeps_new created bytesSent bytesReceived).run (inOrder_of_rising hrising)
  rw [List.nil_append, ← horigin] at hkeeps
  have hcap : (events.foldl step origin).maxSamples = 20000 := maxSamples_run origin events
  rw [← map_time_pushed origin events] at harriving ⊢
  rw [← hcap]
  constructor
  · intro hpos
    exact spansSecond_of_rateAt_pos hkeeps hpos
  · intro hspan
    have hmeasures := measures_of_spansSecond hkeeps (windowDuration_run origin events)
      (fun last hlast => by
        rw [lastUpdate_run, ← map_time_pushed origin, Option.mem_def.mp hlast, Option.getD_some])
      harriving hspan
    obtain ⟨oldest, newest, holdest, hnewest, -, hspan⟩ := id hmeasures
    have hlt := sum_samples_lt d hkeeps.holds.suffix (inOrder_of_rising hrising)
    rw [rateAt_eq_of_measures d hlt holdest hnewest hmeasures]
    -- every sample kept has bytes, and there is one
    have hsum : 0 < ((events.foldl step origin).samples.map
        fun sample => (d.delta sample).toNat).sum := by
      refine List.sum_pos _ (fun n hn => ?_) ?_
      · obtain ⟨sample, hsample, rfl⟩ := List.mem_map.mp hn
        exact delta_pos_of_mem_pushed hrising sample (hkeeps.holds.suffix.subset hsample)
      · rw [Ne, List.map_eq_nil_iff]
        exact List.ne_nil_of_mem (List.mem_of_head? holdest)
    exact div_pos (by exact_mod_cast hsum) (zero_lt_one.trans_le hspan)

theorem rateAt_pos_iff_two :
    0 < RateDirection.outgoing.rateAt
        ([.update ⟨0⟩ 10 0, .update ⟨1000000000⟩ 20 0].foldl step
          ((new ⟨0⟩).initializeWithCounts 0 0)) ⟨1000000000⟩ ↔
      SpansSecond (SlidingWindow.newest 20000 (updateTimes
        [.update ⟨0⟩ 10 0, .update ⟨1000000000⟩ 20 0])) :=
  rateAt_pos_iff .outgoing ⟨0⟩ 0 0 _ ⟨1000000000⟩
    ⟨⟨by decide, by simp [RateEvent.count, RateDirection.last, initializeWithCounts]⟩,
      ⟨by decide, by simp [RateEvent.count, RateDirection.last, step, updateAt]⟩, trivial⟩
    ⟨[], 0, [1000000000], 1000000000, rfl, rfl, by simp [second], by simp [second], le_rfl,
      by simp [second]⟩

/-! ## More than 20,000 updates a second -/

/-- Updates `k` to `k + n` of 50,000 a second, with one byte each. -/
def burst (k n : ℕ) : List RateEvent :=
  (List.range' k n).map fun i : ℕ => .update ⟨20000 * (i : ℤ)⟩ (UInt64.ofNat (i + 1)) 0

theorem updateTimes_burst (k n : ℕ) :
    updateTimes (burst k n) = (List.range' k n).map fun i : ℕ => 20000 * (i : ℤ) := by
  rw [updateTimes, burst, List.filterMap_map]
  exact congrFun List.filterMap_eq_map _

theorem rising_burst {k n : ℕ} (hfits : k + n < 2 ^ 64) (htime : t.lastUpdate.nanos ≤ 20000 * k)
    (hsent : t.lastBytesSent.toNat ≤ k) (hreceived : t.lastBytesReceived = 0) :
    Run.Along step (Rising .outgoing) t (burst k n) := by
  -- each update of the burst counts one byte more than the one before
  induction n generalizing t k with
  | zero => trivial
  | succ n ih =>
    have hcount : (UInt64.ofNat (k + 1)).toNat = k + 1 := by
      apply UInt64.toNat_ofNat_of_lt'
      show k + 1 < 2 ^ 64
      omega
    have hrise : t.lastBytesSent < UInt64.ofNat (k + 1) := by
      rw [UInt64.lt_iff_toNat_lt, hcount]
      omega
    rw [burst, List.range'_succ, List.map_cons]
    refine ⟨⟨⟨htime, UInt64.le_of_lt hrise, by rw [hreceived]; exact UInt64.le_refl 0⟩,
      fun count hmem => ?_⟩, ?_⟩
    · obtain rfl := Option.some.inj hmem
      exact hrise
    · refine ih (k := k + 1) (by omega) ?_ hcount.le rfl
      show (20000 * k : ℤ) ≤ 20000 * (k + 1 : ℕ)
      omega

theorem isChain_burst (k n : ℕ) :
    ((List.range' k n).map fun i : ℕ => 20000 * (i : ℤ)).IsChain fun a b => b ≤ a + second := by
  refine (List.isChain_map _).mpr (List.IsChain.imp ?_ (List.isChain_range' k n 1))
  rintro a b rfl
  unfold second
  omega

theorem arriving_burst {n : ℕ} (hn : 50000 ≤ n) :
    Arriving (updateTimes (burst 0 (n + 1))) (20000 * n) := by
  rw [updateTimes_burst]
  refine ⟨[], 0, (List.range' 1 n).map fun i : ℕ => 20000 * (i : ℤ), 20000 * n, ?_, ?_, ?_, ?_,
    le_rfl, ?_⟩
  · rw [List.range'_succ]
    rfl
  · rw [List.getLast?_map, List.getLast?_range']
    simp
  · have hchain := isChain_burst 0 (n + 1)
    rwa [List.range'_succ] at hchain
  · unfold second
    omega
  · unfold second
    omega

theorem not_spansSecond_burst {n : ℕ} (hn : 20000 ≤ n) :
    ¬ SpansSecond (SlidingWindow.newest 20000 (updateTimes (burst 0 (n + 1)))) := by
  rintro ⟨first, last, hfirst, hlast, hspan⟩
  rw [updateTimes_burst, ← SlidingWindow.map_newest, SlidingWindow.newest, List.drop_range',
    List.length_range'] at hfirst hlast
  obtain ⟨m, rfl⟩ : ∃ m, n = m + 20000 := ⟨n - 20000, by omega⟩
  -- the newest 20,000 are those from the update behind `m` on
  rw [show m + 20000 + 1 - 20000 = m + 1 by omega, show m + 20000 + 1 - (m + 1) = 20000 by omega]
    at hfirst hlast
  rw [List.head?_map, List.head?_range'] at hfirst
  rw [List.getLast?_map, List.getLast?_range'] at hlast
  simp only [OfNat.ofNat_ne_zero, if_false, Option.map_some, Option.some.injEq] at hfirst hlast
  unfold second at hspan
  omega

/-- The newest 20,000 of more than 20,000 updates a second do not span a second. -/
theorem not_rateAt_pos :
    ¬ ∀ (d : RateDirection) (created : Instant) (bytesSent bytesReceived : UInt64)
      (events : List RateEvent) (now : Instant),
      Run.Along step (Rising d)
        ((new created).initializeWithCounts bytesSent bytesReceived) events →
      Arriving (updateTimes events) now.nanos →
      0 < d.rateAt
        (events.foldl step ((new created).initializeWithCounts bytesSent bytesReceived)) now := by
  intro h
  have hrising : Run.Along step (Rising .outgoing) ((new ⟨0⟩).initializeWithCounts 0 0)
      (burst 0 (50000 + 1)) := rising_burst (by norm_num) le_rfl le_rfl rfl
  have hpos := h .outgoing ⟨0⟩ 0 0 (burst 0 (50000 + 1)) ⟨20000 * (50000 : ℕ)⟩ hrising
    (arriving_burst le_rfl)
  have hkeeps := (keeps_new ⟨0⟩ 0 0).run (inOrder_of_rising hrising)
  have hspan := spansSecond_of_rateAt_pos hkeeps hpos
  rw [List.nil_append, map_time_pushed, maxSamples_run] at hspan
  exact not_spansSecond_burst (by norm_num) hspan

end Runs

end RustNet
