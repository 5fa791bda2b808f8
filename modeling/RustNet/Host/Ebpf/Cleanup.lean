import Mathlib.Data.Int.ConditionallyCompleteOrder
import Mathlib.Order.ConditionallyCompleteLattice.Basic
import RustNet.Foundations.Retention
import RustNet.Host.Ebpf.Programs

/-!
# Cleaning the socket map

The periodic cleanup of the socket map. The BPF program stamps an entry with the nanoseconds since
boot, and the cleanup compares the stamp with the nanoseconds since the Unix epoch. Each clock has
its own cut-off, the present less the threshold, and the cleanup goes by the wrong one.

## Main results

* `lookup_cleanup`: which entries the cleanup leaves;
* `removesStale_iff`: it removes those that it should exactly when no time stamp lies between the
  two cut-offs;
* `cleanup_removes_all`: on a machine booted longer after the epoch than the threshold it removes
  everything.
-/

namespace RustNet.Host.Ebpf

/-! ## The cleanup -/

/-- The time stamp of a value: its last eight bytes. -/
def timestampOf (valueBytes : List UInt8) : UInt64 :=
  UInt64.ofNat (LittleEndian.value ((valueBytes.drop 24).take 8))

/-- `current_time_ns`, an error before the epoch. -/
def currentTimeNs (wall : SystemTime) : Except String UInt64 :=
  match wall.durationSince .unixEpoch with
  | some elapsed => .ok (UInt64.ofNat elapsed)
  | none => .error "Time error: second time provided was later than self"

/-- The test of the loop: `saturating_sub` is the truncated difference. -/
def isStale (current staleThresholdNs : UInt64) (valueBytes : List UInt8) : Bool :=
  decide (32 ≤ valueBytes.length) &&
    decide (staleThresholdNs.toNat < current.toNat - (timestampOf valueBytes).toNat)

/-- `keys_to_delete`, in the order of the iteration. -/
def keysToDelete (map : BpfMap) (order : IterOrder (List UInt8))
    (current staleThresholdNs : UInt64) : List (List UInt8) :=
  (order.visit map.entries.keys).filter fun key =>
    match map.entries.lookup key with
    | some valueBytes => isStale current staleThresholdNs valueBytes
    | none => false

/-- `delete`, which fails on a key that is not in the map. -/
def SocketMap.delete (map : SocketMap) (key : List UInt8) : Option SocketMap :=
  if key ∈ map.entries then
    some
      { entries := map.entries.erase key
        length_value := fun key' value hvalue =>
          map.length_value key' value (AList.lookup_of_lookup_erase hvalue)
        written := fun key' value hvalue =>
          map.written key' value (AList.lookup_of_lookup_erase hvalue)
        size_le := (AList.size_erase_le key map.entries).trans map.size_le }
  else none

/-- One round of the second loop, with the number of keys deleted so far. -/
def deleteKey (state : SocketMap × UInt32) (key : List UInt8) : SocketMap × UInt32 :=
  match state.1.delete key with
  | some map => (map, state.2 + 1)
  | none => state

/-- The second loop of the cleanup: the keys that were collected are deleted one by one, and
counted. -/
def deleteAll (map : SocketMap) (keys : List (List UInt8)) : SocketMap × UInt32 :=
  keys.foldl deleteKey (map, 0)

/-- `MapReader::cleanup_stale_entries`: the keys to delete are collected first, by the reading of
the wall clock, and deleted then. Before the epoch it is an error, and the map stays. -/
def cleanupStaleEntriesNs (map : SocketMap) (order : IterOrder (List UInt8)) (wall : SystemTime)
    (staleThresholdNs : UInt64) : SocketMap × Except String UInt32 :=
  match currentTimeNs wall with
  | .error e => (map, .error e)
  | .ok current =>
    let (map, count) := deleteAll map (keysToDelete map.toBpfMap order current staleThresholdNs)
    (map, .ok count)

/-- `LibbpfSocketTracker::cleanup_stale_entries`: the product is taken modulo `2 ^ 64`. -/
def cleanupStaleEntries (map : SocketMap) (order : IterOrder (List UInt8)) (wall : SystemTime)
    (staleThresholdSecs : UInt64) : SocketMap × UInt32 :=
  match cleanupStaleEntriesNs map order wall (staleThresholdSecs * 1000000000) with
  | (map, .ok count) => (map, count)
  | (map, .error _) => (map, 0)

/-! ## What is left -/

theorem entries_deleteKey (state : SocketMap × UInt32) (key : List UInt8) :
    (deleteKey state key).1.entries = state.1.entries.erase key := by
  by_cases h : key ∈ state.1.entries
  · simp only [deleteKey, SocketMap.delete, if_pos h]
  -- there is nothing to erase
  · have hnot : key ∉ state.1.entries.entries.keys := h
    simp only [deleteKey, SocketMap.delete, if_neg h]
    apply AList.ext
    exact (List.kerase_of_notMem_keys hnot).symm

theorem entries_deleteAll (map : SocketMap) (keys : List (List UInt8)) :
    (deleteAll map keys).1.entries = map.entries.eraseAll keys := by
  have hloop : ∀ (keys : List (List UInt8)) (state : SocketMap × UInt32),
      (keys.foldl deleteKey state).1.entries = state.1.entries.eraseAll keys := by
    intro keys
    induction keys with
    | nil => exact fun _ => rfl
    | cons key keys ih =>
      intro state
      rw [List.foldl_cons, ih, entries_deleteKey, AList.eraseAll, AList.eraseAll, List.foldl_cons]
  exact hloop keys (map, 0)

theorem mem_keysToDelete {map : BpfMap} {order : IterOrder (List UInt8)}
    {current staleThresholdNs : UInt64} {key : List UInt8} :
    key ∈ keysToDelete map order current staleThresholdNs ↔
      ∃ value, map.entries.lookup key = some value ∧
        isStale current staleThresholdNs value = true := by
  rw [keysToDelete, List.mem_filter, (order.visit_perm map.entries.keys).mem_iff]
  cases hvalue : map.entries.lookup key with
  | none => simp
  | some value =>
    have hmem : key ∈ map.entries.keys := AList.mem_keys.mp (AList.mem_of_lookup hvalue)
    simp [hmem]

/-- The entries that count as stale on the wall clock. -/
def wallStale (wall : SystemTime) (staleThresholdSecs : UInt64) (value : List UInt8) : Bool :=
  match currentTimeNs wall with
  | .ok current => isStale current (staleThresholdSecs * 1000000000) value
  | .error _ => false

/-- The cleanup leaves the entries that do not count as stale on the wall clock. -/
theorem lookup_cleanup (map : SocketMap) (order : IterOrder (List UInt8)) (wall : SystemTime)
    (staleThresholdSecs : UInt64) (key : List UInt8) :
    (cleanupStaleEntries map order wall staleThresholdSecs).1.entries.lookup key =
      (map.entries.lookup key).filter fun value => !wallStale wall staleThresholdSecs value := by
  unfold cleanupStaleEntries cleanupStaleEntriesNs wallStale
  cases currentTimeNs wall with
  | error e =>
    -- a clock before the epoch: the cleanup returns the error and deletes nothing
    simp only [Bool.not_false]
    cases map.entries.lookup key <;> rfl
  | ok current =>
    simp only
    rw [entries_deleteAll, AList.lookup_eraseAll]
    cases hvalue : map.entries.lookup key with
    | none => simp
    | some value =>
      have hmem := @mem_keysToDelete map.toBpfMap order current
        (staleThresholdSecs * 1000000000) key
      simp only [hvalue, Option.some.injEq, exists_eq_left'] at hmem
      rw [Option.filter_some]
      cases hstale : isStale current (staleThresholdSecs * 1000000000) value with
      | true =>
        rw [if_pos (hmem.mpr hstale)]
        rfl
      | false =>
        have hnot : key ∉ keysToDelete map.toBpfMap order current
            (staleThresholdSecs * 1000000000) := by
          rw [hmem, hstale]
          decide
        rw [if_neg hnot]
        rfl

/-! ## The two clocks -/

/-- The nanoseconds of a threshold. -/
def thresholdNs (staleThresholdSecs : UInt64) : ℕ := staleThresholdSecs.toNat * 1000000000

/-- How long ago a value was recorded, on a machine booted at `boot`. -/
def ageNs (boot now : SystemTime) (value : List UInt8) : ℤ :=
  now.nanos - (boot.nanos + (timestampOf value).toNat)

/-- The cleanup removes exactly the entries recorded more than the threshold ago. -/
def RemovesStale (boot now : SystemTime) (staleThresholdSecs : UInt64)
    (order : IterOrder (List UInt8)) (map : SocketMap) : Prop :=
  ∀ key value,
    (cleanupStaleEntries map order now staleThresholdSecs).1.entries.lookup key = some value ↔
      map.entries.lookup key = some value ∧
        ¬ (thresholdNs staleThresholdSecs : ℤ) < ageNs boot now value

/-- The threshold before now, since boot. -/
def kernelCutOff (boot now : SystemTime) (staleThresholdSecs : UInt64) : ℤ :=
  now.nanos - boot.nanos - thresholdNs staleThresholdSecs

/-- The threshold before now, since the epoch, both as far as 64 bits hold them; zero before it. -/
def wallCutOff (now : SystemTime) (staleThresholdSecs : UInt64) : ℤ :=
  if now.nanos < 0 then 0
  else now.nanos % 2 ^ 64 - (thresholdNs staleThresholdSecs % 2 ^ 64 : ℕ)

/-- Every value the program wrote is long enough to carry its time stamp. -/
theorem wallStale_iff {map : SocketMap} {key value : List UInt8}
    (hvalue : map.entries.lookup key = some value) (now : SystemTime) (staleThresholdSecs : UInt64) :
    wallStale now staleThresholdSecs value = true ↔
      ((timestampOf value).toNat : ℤ) < wallCutOff now staleThresholdSecs := by
  have hlength : 32 ≤ value.length := (map.length_value key value hvalue).ge
  have hthreshold : (staleThresholdSecs * 1000000000).toNat =
      thresholdNs staleThresholdSecs % 2 ^ 64 := UInt64.toNat_mul _ _
  unfold wallStale currentTimeNs wallCutOff SystemTime.durationSince SystemTime.unixEpoch
  -- before the epoch the program takes zero for the time, so that nothing is stale
  by_cases hepoch : now.nanos < 0
  · rw [if_neg (by simpa using hepoch), if_pos hepoch]
    simp
  · have hnow : (UInt64.ofNat (now.nanos - 0).toNat).toNat = (now.nanos % 2 ^ 64).toNat := by
      rw [UInt64.toNat_ofNat']
      omega
    rw [if_pos (by simpa using hepoch), if_neg hepoch]
    simp only [isStale, hlength, decide_true, Bool.true_and, decide_eq_true_eq, hthreshold, hnow]
    omega

/-- The cleanup is right exactly when no time stamp lies between the cut-offs of the two clocks. An
entry holds the time since the boot, as the kernel reads it, while the cleanup takes its cut-off
from the wall clock. Both clocks, the threshold and the map are any. -/
theorem removesStale_iff (boot now : SystemTime) (staleThresholdSecs : UInt64)
    (order : IterOrder (List UInt8)) (map : SocketMap) :
    RemovesStale boot now staleThresholdSecs order map ↔
      ∀ key value, map.entries.lookup key = some value →
        ((timestampOf value).toNat : ℤ) ∉ Set.Ico
          (min (wallCutOff now staleThresholdSecs) (kernelCutOff boot now staleThresholdSecs))
          (max (wallCutOff now staleThresholdSecs) (kernelCutOff boot now staleThresholdSecs)) := by
  -- each entry is treated right when both clocks put its time stamp on the same side
  have hentry : ∀ key value, map.entries.lookup key = some value →
      (((timestampOf value).toNat : ℤ) ∉ Set.Ico
          (min (wallCutOff now staleThresholdSecs) (kernelCutOff boot now staleThresholdSecs))
          (max (wallCutOff now staleThresholdSecs) (kernelCutOff boot now staleThresholdSecs)) ↔
        (wallStale now staleThresholdSecs value = true ↔
          (thresholdNs staleThresholdSecs : ℤ) < ageNs boot now value)) := by
    intro key value hvalue
    have hage : (thresholdNs staleThresholdSecs : ℤ) < ageNs boot now value ↔
        ((timestampOf value).toNat : ℤ) < kernelCutOff boot now staleThresholdSecs := by
      rw [ageNs, kernelCutOff]
      omega
    rw [wallStale_iff hvalue, hage, Set.mem_Ico, min_le_iff, lt_max_iff]
    omega
  constructor
  · intro h key value hvalue
    have hkept := h key value
    rw [lookup_cleanup, hvalue, Option.filter_eq_some_iff] at hkept
    rw [hentry key value hvalue]
    cases hstale : wallStale now staleThresholdSecs value <;> simp [hstale] at hkept ⊢ <;> omega
  · intro h key value
    rw [lookup_cleanup, Option.filter_eq_some_iff]
    refine and_congr_right fun hvalue => ?_
    have hclocks := (hentry key value hvalue).mp (h key value hvalue)
    rw [← hclocks]
    simp

/-- On a machine booted longer after the epoch than the threshold nothing stays, as long as 64 bits
hold the times. -/
theorem cleanup_removes_all {boot now : SystemTime} {staleThresholdSecs : UInt64}
    {map : SocketMap} (hboot : (thresholdNs staleThresholdSecs : ℤ) < boot.nanos)
    (hnow : now.nanos < 2 ^ 64) (hpast : ∀ key value, map.entries.lookup key = some value →
      boot.nanos + (timestampOf value).toNat ≤ now.nanos)
    (order : IterOrder (List UInt8)) (key : List UInt8) :
    (cleanupStaleEntries map order now staleThresholdSecs).1.entries.lookup key = none := by
  rw [lookup_cleanup]
  cases hvalue : map.entries.lookup key with
  | none => rfl
  | some value =>
    have hstale : wallStale now staleThresholdSecs value = true := by
      have := hpast key value hvalue
      rw [wallStale_iff hvalue, wallCutOff, if_neg (by omega)]
      omega
    rw [Option.filter_some, hstale]
    rfl

/-! ## A recent entry -/

/-- A machine booted in November 2023. -/
def sampleBoot : SystemTime := ⟨1700000000000000000⟩

/-- A connection from `10.0.0.1` to port 443 of `10.0.0.2`. -/
def sampleCall : HookCall :=
  .tcpConnect ⟨.new 10 0 0 1, .new 10 0 0 2, unspecifiedV6, unspecifiedV6, 40000, 443⟩

/-- The map after a process connected five seconds after boot. -/
def sampleMap : SocketMap :=
  SocketMap.empty.update sampleCall ⟨0, 0, none, Vector.replicate 16 0, 5000000000⟩

/-- Ten seconds after boot, a cleanup with a threshold of a minute removes an entry that is five
seconds old. -/
theorem sampleMap_not_removesStale :
    ¬ RemovesStale sampleBoot ⟨1700000010000000000⟩ 60 (IterOrder.listed _) sampleMap := by
  intro h
  obtain ⟨k, hk⟩ : ∃ k, sampleCall.key = some k := ⟨_, rfl⟩
  have hstored := SocketMap.lookup_update_empty hk
    ⟨0, 0, none, Vector.replicate 16 0, 5000000000⟩ k.asBytes
  rw [if_pos rfl] at hstored
  have hkept := (h _ _).mpr ⟨hstored, by decide +kernel⟩
  rw [lookup_cleanup, Option.filter_eq_some_iff] at hkept
  exact absurd hkept.2 (by decide +kernel)

end RustNet.Host.Ebpf
