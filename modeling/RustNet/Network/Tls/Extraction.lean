import Mathlib.Algebra.BigOperators.Ring.List
import RustNet.Network.Tls.Reconstruction

/-!
# Extraction from the reassembler

`try_extract_tls_from_reassembler`: the strategies one after another, up to the first that finds
something, and what is cached in the reassembler.

## Main definitions

* `Tls.tryExtractTlsFromReassembler`, and the four strategies below it;
* `Tls.Outcome`: what the extraction can come to;
* `Tls.Reachable`: the reassemblers that fragments and extractions lead to;
* `Tls.Sound`: their invariant;
* `Tls.SurfacesCutName`: a strategy that was not asked for a cut-off name hands one out or caches
  one as complete;
* `DeepPacketInspection.extracting`: an inspection with the extraction of the program.

## Main results

* `Tls.tryExtractTlsFromReassembler_outcome`: the extraction from a sound reassembler ends without a
  fault, in one of the outcomes;
* `Tls.tryExtractTlsFromReassembler_safe`: no reachable reassembler makes the extraction fail, and
  fragments of another one leave it reachable;
* `Tls.keepsFlag_iff`: the flag is kept exactly unless a cut-off name comes from the last two
  strategies.
-/

namespace RustNet

deriving instance DecidableEq for CryptoFrameReassembler

/-- `set_complete_tls_info`: the result of an extraction is cached and counts as complete from then
on. -/
def CryptoFrameReassembler.setCompleteTlsInfo (r : CryptoFrameReassembler) (info : TlsInfo) :
    CryptoFrameReassembler := { r with hasCompleteTlsInfo := true, cachedTlsInfo := some info }

@[simp]
theorem CryptoFrameReassembler.getCachedTlsInfo_setCompleteTlsInfo (r : CryptoFrameReassembler)
    (info : TlsInfo) : (r.setCompleteTlsInfo info).getCachedTlsInfo = some info := rfl

namespace Tls

open Checked

/-- `is_complete_sni`: there is a server name, and it does not carry the mark of a name that was cut
off. -/
def isCompleteSni (sni : Option String) : Bool := sni.any fun sni => !isPartialSni sni

/-! ## Contiguous data -/

/-- The loop of `get_contiguous_data`, with its checks. -/
def collectData (contiguousOffset : ℕ) : ℕ → List (ℕ × List UInt8) → Checked (List UInt8)
  | _, [] => return []
  | currentOffset, (offset, data) :: rest => do
    if offset ≤ currentOffset then do
      -- the bytes that are collected already
      let skip ← sub currentOffset offset
      if skip < data.length then do
        let new ← sliceFrom data skip
        let currentOffset ← add offset data.length
        if contiguousOffset ≤ currentOffset then return new
        let more ← collectData contiguousOffset currentOffset rest
        return new ++ more
      else if contiguousOffset ≤ currentOffset then return []
      else collectData contiguousOffset currentOffset rest
    else if contiguousOffset ≤ currentOffset then return []
    else collectData contiguousOffset currentOffset rest

/-- `get_contiguous_data`, with its checks: the same bytes from the beginning of the stream, by
slices that can be out of range. -/
def readContiguousData (r : CryptoFrameReassembler) : Checked (Option (List UInt8)) := do
  if r.contiguousOffset = 0 then return none
  let result ← collectData r.contiguousOffset 0 r.fragments
  return if result.isEmpty then none else some result

/-! ## The strategies -/

/-- A record with a server name or protocols. -/
def isEssential (info : TlsInfo) : Bool := info.sni.isSome || !info.alpn.isEmpty

/-- `try_extract_from_contiguous`: the contiguous bytes are parsed as a handshake once there are
enough of them, and a result counts that has a server name or a protocol. -/
def tryExtractFromContiguous (r : CryptoFrameReassembler) (allowPartial : Bool) :
    Checked (Option TlsInfo) := do
  let some reassembled ← readContiguousData r | return none
  let threshold := if allowPartial then 50 else 100
  if reassembled.length < threshold then return none
  let info? ← parsePartialTlsHandshake reassembled allowPartial
  return info?.filter isEssential

/-- A fragment that starts like a ClientHello. -/
def helloInFragment (data : List UInt8) (allowPartial : Bool) : Checked (Option TlsInfo) := do
  if data.length < 4 then return none
  let first ← index data 0
  if first ≠ 0x01 then return none
  let info? ← parsePartialTlsHandshake data allowPartial
  return info?.filter isEssential

/-- A fragment that starts like a TLS record. -/
def recordInFragment (data : List UInt8) : Checked (Option TlsInfo) := do
  if data.length < 6 then return none
  let first ← index data 0
  if first ≠ 0x16 then return none
  let info? ← tryParseUnencryptedCryptoFrames data
  return info?.filter isEssential

/-- One fragment of `try_extract_from_fragments`: it is read as a handshake message when it begins
like one, or else as a record. -/
def tryExtractFromFragment (allowPartial : Bool) (fragment : ℕ × List UInt8) :
    Checked (Option TlsInfo) := do
  let some info ← helloInFragment fragment.2 allowPartial | recordInFragment fragment.2
  return some info

/-- `try_extract_from_fragments`: the first fragment that gives a result on its own, in the order of
the offsets. -/
def tryExtractFromFragments (r : CryptoFrameReassembler) (allowPartial : Bool) :
    Checked (Option TlsInfo) :=
  r.fragments.findSomeM? (tryExtractFromFragment allowPartial)

/-- Strategy 3: reconstruction, with enough data for it. -/
def tryReconstruct (r : CryptoFrameReassembler) : Checked (Option String) := do
  let totalFragmentSize ← r.fragments.foldlM (fun total fragment => add total fragment.2.length) 0
  if 100 ≤ totalFragmentSize then tryReconstructSniFromFragments r else return none

/-- The greedy scan of the contiguous data. -/
def greedyInContiguous (r : CryptoFrameReassembler) : Checked (Option String) := do
  let some contiguous ← readContiguousData r | return none
  tryExtractSniGreedy contiguous true

/-- `try_extract_greedy_from_reassembler`: the scan for an extension with a server name, over each
of the fragments and then over the contiguous bytes. -/
def tryExtractGreedyFromReassembler (r : CryptoFrameReassembler) : Checked (Option TlsInfo) := do
  match ← r.fragments.findSomeM? fun fragment => tryExtractSniGreedy fragment.2 true with
  | some sni => return some (.ofSni sni)
  | none =>
    let sni? ← greedyInContiguous r
    return sni?.map .ofSni

/-- What the first three strategies do with the record they return. -/
def cacheIfComplete (r : CryptoFrameReassembler) (info : TlsInfo) : CryptoFrameReassembler :=
  if isCompleteSni info.sni then r.setCompleteTlsInfo info else r

/-- The last two strategies, which look for nothing but a server name: the reconstruction across the
fragments and the greedy scan. -/
def tryExtractSni (r : CryptoFrameReassembler) : Checked (Option TlsInfo × CryptoFrameReassembler) := do
  match ← tryReconstruct r with
  | some sni => return (some (.ofSni sni), cacheIfComplete r (.ofSni sni))
  | none =>
    match ← tryExtractGreedyFromReassembler r with
    -- what the greedy scan finds is cached whether it is complete or not
    | some info => return (some info, r.setCompleteTlsInfo info)
    | none => return (none, r)

/-- `try_extract_tls_from_reassembler`: a complete name that is cached is returned at once;
otherwise the strategies are tried in turn. What they find is cached if it is complete, and what the
greedy scan finds also if it is not. -/
def tryExtractTlsFromReassembler (r : CryptoFrameReassembler) (allowPartial : Bool) :
    Checked (Option TlsInfo × CryptoFrameReassembler) := do
  match r.getCachedTlsInfo.filter fun info => isCompleteSni info.sni with
  | some info => return (some info, r)
  | none =>
    match ← tryExtractFromContiguous r allowPartial with
    | some info => return (some info, cacheIfComplete r info)
    | none =>
      match ← tryExtractFromFragments r allowPartial with
      | some info => return (some info, cacheIfComplete r info)
      | none => tryExtractSni r

/-! ## Sound reassemblers -/

/-- What holds of every reassembler that is used: its size, its offsets, and the names it caches. -/
structure Sound (r : CryptoFrameReassembler) : Prop where
  wellFormed : r.WellFormed
  maxBufferSize_eq : r.maxBufferSize = 64 * 1024
  offset_lt : ∀ f ∈ r.fragments, f.1 < 2 ^ 62
  cached : ∀ info, r.cachedTlsInfo = some info → info.Names (Surfaced true)

section Sound

variable {r : CryptoFrameReassembler} {allowPartial : Bool} {info : TlsInfo} {sni : String}

theorem collect_length_le (limit n : ℕ) (fs : List (ℕ × List UInt8)) :
    (CryptoFrameReassembler.collect limit n fs).length ≤ Fragments.size fs := by
  induction fs generalizing n with
  | nil => exact Nat.zero_le _
  | cons f fs ih =>
    rw [CryptoFrameReassembler.collect, Fragments.size_cons]
    split_ifs with hcovers hend hdone
    -- the fragment goes on behind `n`, up to the limit or not
    · rw [List.append_nil, List.length_drop]
      omega
    · have := ih (f.1 + f.2.length)
      rw [List.length_append, List.length_drop]
      omega
    -- it ends the data, or is skipped
    · exact Nat.zero_le _
    · exact (ih n).trans (Nat.le_add_left _ _)

/-- With its checks the loop collects what it does without them. -/
theorem collectData_eq (limit n : ℕ) {fs : List (ℕ × List UInt8)}
    (hfs : ∀ f ∈ fs, f.1 + f.2.length < 2 ^ 64) :
    collectData limit n fs = pure (CryptoFrameReassembler.collect limit n fs) := by
  induction fs generalizing n with
  | nil => rfl
  | cons f fs ih =>
    rw [List.forall_mem_cons] at hfs
    rw [collectData, CryptoFrameReassembler.collect]
    by_cases hle : f.1 ≤ n
    · rw [if_pos hle, sub_eq hle, pure_bind']
      -- the slice is taken only of a fragment that reaches behind `n`
      by_cases hskip : n - f.1 < f.2.length
      · rw [if_pos hskip, if_pos ⟨hle, hskip⟩, sliceFrom_eq hskip.le, pure_bind', add_eq hfs.1,
          pure_bind']
        by_cases hend : limit ≤ f.1 + f.2.length
        · rw [if_pos hend, if_pos hend, List.append_nil]
        · rw [if_neg hend, if_neg hend, ih _ hfs.2]
          rfl
      · have hnot : ¬ (f.1 ≤ n ∧ n - f.1 < f.2.length) := fun h => hskip h.2
        rw [if_neg hskip, if_neg hnot, ih _ hfs.2]
        split_ifs <;> rfl
    · have hnot : ¬ (f.1 ≤ n ∧ n - f.1 < f.2.length) := fun h => hle h.1
      rw [if_neg hle, if_neg hnot, ih _ hfs.2]
      split_ifs <;> rfl

/-- The sum of the sizes does not overflow. -/
theorem foldlM_add_eq {fs : List (ℕ × List UInt8)} {n : ℕ}
    (h : n + Fragments.size fs < 2 ^ 64) :
    fs.foldlM (fun total fragment => add total fragment.2.length) n =
      pure (n + Fragments.size fs) := by
  induction fs generalizing n with
  | nil => rfl
  | cons f fs ih =>
    rw [Fragments.size_cons] at h ⊢
    rw [List.foldlM_cons, add_eq (by omega), pure_bind', ih (by omega), Nat.add_assoc]

namespace Sound

theorem size_le (h : Sound r) : Fragments.size r.fragments ≤ 64 * 1024 := by
  rw [← h.wellFormed.bufferSize_eq, ← h.maxBufferSize_eq]
  exact h.wellFormed.bufferSize_le

theorem length_le (h : Sound r) {f : ℕ × List UInt8} (hf : f ∈ r.fragments) :
    f.2.length ≤ 64 * 1024 :=
  (List.single_le_sum (fun _ _ => Nat.zero_le _) _ (List.mem_map_of_mem hf)).trans h.size_le

/-- Non-empty fragments are not more than their bytes. -/
theorem padded_size_lt (h : Sound r) :
    (r.fragments.map fun f => f.2.length + 100).sum < 2 ^ 63 := by
  have hone : ∀ f ∈ r.fragments, f.2.length + 100 ≤ f.2.length * 101 := by
    intro f hf
    have := List.length_pos_of_ne_nil (h.wellFormed.ne_nil f hf)
    omega
  calc (r.fragments.map fun f => f.2.length + 100).sum
      ≤ (r.fragments.map fun f => f.2.length * 101).sum := List.sum_le_sum hone
    _ = Fragments.size r.fragments * 101 := List.sum_map_mul_right _ _ _
    _ ≤ 64 * 1024 * 101 := Nat.mul_le_mul_right _ h.size_le
    _ < 2 ^ 63 := by decide

theorem readContiguousData_eq (h : Sound r) :
    readContiguousData r = pure r.getContiguousData := by
  have hend : ∀ f ∈ r.fragments, f.1 + f.2.length < 2 ^ 64 := by
    intro f hf
    have hoffset := h.offset_lt f hf
    have hlength := h.length_le hf
    omega
  rw [readContiguousData, collectData_eq _ _ hend, CryptoFrameReassembler.getContiguousData]
  split_ifs with hzero <;> rfl

theorem length_contiguous_le (h : Sound r) {data : List UInt8}
    (hdata : r.getContiguousData = some data) : data.length ≤ 64 * 1024 := by
  rw [CryptoFrameReassembler.getContiguousData] at hdata
  dsimp only at hdata
  split_ifs at hdata
  exact Option.some.inj hdata ▸ (collect_length_le _ _ _).trans h.size_le

theorem readContiguousData_ensures (h : Sound r) :
    Ensures (readContiguousData r) fun data? =>
      ∀ data, data? = some data → data.length < 2 ^ 63 := by
  refine ⟨_, h.readContiguousData_eq, fun data hdata => ?_⟩
  exact lt_of_le_of_lt (h.length_contiguous_le hdata) (by decide)

theorem tryReconstruct_eq (h : Sound r) :
    tryReconstruct r =
      if 100 ≤ Fragments.size r.fragments then tryReconstructSniFromFragments r
      else pure none := by
  have hsize := h.size_le
  rw [tryReconstruct, foldlM_add_eq (by omega), Nat.zero_add, pure_bind']

end Sound

/-! ## What the strategies find -/

/-- What a strategy finds, if anything, has a name that may be handed out. -/
def Found (allowPartial : Bool) (info? : Option TlsInfo) : Prop :=
  ∀ info, info? = some info → info.Names (Surfaced allowPartial)

theorem found_filter {info? : Option TlsInfo} (p : TlsInfo → Bool) (h : Found allowPartial info?) :
    Found allowPartial (info?.filter p) :=
  fun info hinfo => h info (Option.filter_eq_some_iff.mp hinfo).1

theorem tryExtractFromContiguous_ensures (h : Sound r) :
    Ensures (tryExtractFromContiguous r allowPartial) (Found allowPartial) := by
  refine h.readContiguousData_ensures.bindOption (fun reassembled hlen => ?_) ensures_none
  refine Ensures.ite (fun _ => ensures_none) fun _ => ?_
  refine (parsePartialTlsHandshake_ensures hlen allowPartial).bind fun info? hinfo => ?_
  exact ensures_pure (found_filter _ hinfo)

theorem helloInFragment_ensures {data : List UInt8} (hlen : data.length < 2 ^ 63) :
    Ensures (helloInFragment data allowPartial) (Found allowPartial) := by
  refine Ensures.ite (fun _ => ensures_none) fun hshort => ?_
  refine (ensures_index (by omega)).bind fun first _ => ?_
  refine Ensures.ite (fun _ => ensures_none) fun _ => ?_
  refine (parsePartialTlsHandshake_ensures hlen allowPartial).bind fun info? hinfo => ?_
  exact ensures_pure (found_filter _ hinfo)

theorem recordInFragment_ensures {data : List UInt8} (hlen : data.length < 2 ^ 63) :
    Ensures (recordInFragment data) (Found false) := by
  refine Ensures.ite (fun _ => ensures_none) fun hshort => ?_
  refine (ensures_index (by omega)).bind fun first _ => ?_
  refine Ensures.ite (fun _ => ensures_none) fun _ => ?_
  refine (tryParseUnencryptedCryptoFrames_ensures hlen).bind fun info? hinfo => ?_
  exact ensures_pure (found_filter _ hinfo)

theorem Surfaced.of_false (h : Surfaced false sni) : Surfaced allowPartial sni :=
  h.imp_right fun hcut => absurd hcut.1 (by decide)

theorem tryExtractFromFragments_ensures (h : Sound r) :
    Ensures (tryExtractFromFragments r allowPartial) (Found allowPartial) := by
  refine ensures_findSomeM fun f hf => ?_
  have hlen : f.2.length < 2 ^ 63 := lt_of_le_of_lt (h.length_le hf) (by decide)
  refine (helloInFragment_ensures hlen).bindOption (fun info hinfo => ensures_some hinfo) ?_
  refine (recordInFragment_ensures hlen).mono fun info? hinfo info heq => ?_
  exact (hinfo info heq).mono fun _ => Surfaced.of_false

theorem tryReconstruct_ensures (h : Sound r) :
    Ensures (tryReconstruct r) fun sni? => ∀ sni, sni? = some sni → Surfaced true sni := by
  rw [h.tryReconstruct_eq]
  refine Ensures.ite (fun _ => ?_) fun _ => ensures_none
  refine (patternInFragments_ensures fun f hf => ?_).bindOption (fun sni hsni => ?_) ?_
  · exact lt_of_le_of_lt (h.length_le hf) (by decide)
  · exact ensures_some hsni
  · refine (candidateInFragments_ensures h.offset_lt h.padded_size_lt).mono fun _ hsni sni heq => ?_
    exact .inl (hsni sni heq)

theorem tryExtractGreedyFromReassembler_ensures (h : Sound r) :
    Ensures (tryExtractGreedyFromReassembler r) (Found true) := by
  refine (ensures_findSomeM fun f hf => tryExtractSniGreedy_ensures
    (lt_of_le_of_lt (h.length_le hf) (by decide)) true).bindOption (fun sni hsni => ?_) ?_
  · exact ensures_some (names_ofSni hsni)
  -- in none of the fragments
  · have hgreedy : Ensures (greedyInContiguous r) fun sni? =>
        ∀ sni, sni? = some sni → Surfaced true sni :=
      h.readContiguousData_ensures.bindOption
        (fun contiguous hlen => tryExtractSniGreedy_ensures hlen true) ensures_none
    refine hgreedy.bind fun sni? hsni => ensures_pure fun info hinfo => ?_
    obtain ⟨sni, heq, rfl⟩ := Option.map_eq_some_iff.mp hinfo
    exact names_ofSni (hsni sni heq)

/-! ## Outcomes -/

/-- No complete server name is cached. -/
def NotCached (r : CryptoFrameReassembler) : Prop :=
  ∀ info, r.getCachedTlsInfo = some info → isCompleteSni info.sni = false

/-- What the extraction can come to: each strategy is tried when those before it find nothing. -/
inductive Outcome (r : CryptoFrameReassembler) (allowPartial : Bool) :
    Option TlsInfo × CryptoFrameReassembler → Prop
  | cached {info : TlsInfo} (hcached : r.getCachedTlsInfo = some info)
      (hcomplete : isCompleteSni info.sni = true) : Outcome r allowPartial (some info, r)
  | contiguous {info : TlsInfo} (hcached : NotCached r)
      (hcontiguous : tryExtractFromContiguous r allowPartial = pure (some info)) :
      Outcome r allowPartial (some info, cacheIfComplete r info)
  | fragment {info : TlsInfo} (hcached : NotCached r)
      (hcontiguous : tryExtractFromContiguous r allowPartial = pure none)
      (hfragment : tryExtractFromFragments r allowPartial = pure (some info)) :
      Outcome r allowPartial (some info, cacheIfComplete r info)
  | reconstructed {sni : String} (hcached : NotCached r)
      (hcontiguous : tryExtractFromContiguous r allowPartial = pure none)
      (hfragment : tryExtractFromFragments r allowPartial = pure none)
      (hreconstruct : tryReconstruct r = pure (some sni)) :
      Outcome r allowPartial (some (.ofSni sni), cacheIfComplete r (.ofSni sni))
  | greedy {info : TlsInfo} (hcached : NotCached r)
      (hcontiguous : tryExtractFromContiguous r allowPartial = pure none)
      (hfragment : tryExtractFromFragments r allowPartial = pure none)
      (hreconstruct : tryReconstruct r = pure none)
      (hgreedy : tryExtractGreedyFromReassembler r = pure (some info)) :
      Outcome r allowPartial (some info, r.setCompleteTlsInfo info)
  | nothing (hcached : NotCached r)
      (hcontiguous : tryExtractFromContiguous r allowPartial = pure none)
      (hfragment : tryExtractFromFragments r allowPartial = pure none)
      (hreconstruct : tryReconstruct r = pure none)
      (hgreedy : tryExtractGreedyFromReassembler r = pure none) :
      Outcome r allowPartial (none, r)

/-- The extraction from a sound reassembler ends without a fault, in one of the outcomes. -/
theorem tryExtractTlsFromReassembler_outcome (h : Sound r) (allowPartial : Bool) :
    Ensures (tryExtractTlsFromReassembler r allowPartial) (Outcome r allowPartial) := by
  rw [tryExtractTlsFromReassembler]
  rcases hcache : r.getCachedTlsInfo.filter (fun info => isCompleteSni info.sni) with _ | info
  · have hcached : NotCached r := by
      intro info hinfo
      rw [hinfo] at hcache
      exact Bool.not_eq_true _ ▸ Option.filter_eq_none_iff.mp hcache info rfl
    rw [hcache]
    -- strategy by strategy, as long as nothing is found
    obtain ⟨contiguous?, hcontiguous, -⟩ := tryExtractFromContiguous_ensures h
    dsimp only
    rw [hcontiguous, pure_bind']
    rcases contiguous? with _ | info
    · obtain ⟨fragment?, hfragment, -⟩ := tryExtractFromFragments_ensures h
      dsimp only
      rw [hfragment, pure_bind']
      rcases fragment? with _ | info
      · obtain ⟨sni?, hreconstruct, -⟩ := tryReconstruct_ensures h
        dsimp only
        rw [tryExtractSni, hreconstruct, pure_bind']
        rcases sni? with _ | sni
        · obtain ⟨greedy?, hgreedy, -⟩ := tryExtractGreedyFromReassembler_ensures h
          dsimp only
          rw [hgreedy, pure_bind']
          rcases greedy? with _ | info
          · exact ensures_pure (Outcome.nothing hcached hcontiguous hfragment hreconstruct hgreedy)
          · exact ensures_pure (Outcome.greedy hcached hcontiguous hfragment hreconstruct hgreedy)
        · exact ensures_pure (Outcome.reconstructed hcached hcontiguous hfragment hreconstruct)
      · exact ensures_pure (Outcome.fragment hcached hcontiguous hfragment)
    · exact ensures_pure (Outcome.contiguous hcached hcontiguous)
  · rw [hcache]
    obtain ⟨hcached, hcomplete⟩ := Option.filter_eq_some_iff.mp hcache
    exact ensures_pure (Outcome.cached hcached hcomplete)

theorem isCompleteSni_some (sni : String) : isCompleteSni (some sni) = !isPartialSni sni := rfl

theorem cacheIfComplete_cases (r : CryptoFrameReassembler) (info : TlsInfo) :
    (isCompleteSni info.sni = true ∧ cacheIfComplete r info = r.setCompleteTlsInfo info) ∨
      (isCompleteSni info.sni = false ∧ cacheIfComplete r info = r) := by
  rw [cacheIfComplete]
  split_ifs with hcomplete
  · exact .inl ⟨hcomplete, rfl⟩
  · exact .inr ⟨Bool.not_eq_true _ ▸ hcomplete, rfl⟩

theorem Sound.setCompleteTlsInfo (h : Sound r) (hinfo : info.Names (Surfaced true)) :
    Sound (r.setCompleteTlsInfo info) where
  wellFormed := ⟨h.wellFormed.sorted, h.wellFormed.ne_nil, h.wellFormed.apart,
    h.wellFormed.bufferSize_eq, h.wellFormed.bufferSize_le, h.wellFormed.frontier⟩
  maxBufferSize_eq := h.maxBufferSize_eq
  offset_lt := h.offset_lt
  cached := fun _ heq => Option.some.inj heq ▸ hinfo

theorem Sound.cacheIfComplete (h : Sound r) (hinfo : info.Names (Surfaced true)) :
    Sound (cacheIfComplete r info) := by
  obtain ⟨-, heq⟩ | ⟨-, heq⟩ := cacheIfComplete_cases r info
  · rw [heq]
    exact h.setCompleteTlsInfo hinfo
  · rwa [heq]

theorem Sound.getCachedTlsInfo (h : Sound r) (hinfo : r.getCachedTlsInfo = some info) :
    info.Names (Surfaced true) := by
  rw [CryptoFrameReassembler.getCachedTlsInfo] at hinfo
  split_ifs at hinfo
  exact h.cached info hinfo

/-- An extraction leaves the reassembler sound, and the name it returns may be handed out. -/
theorem Outcome.sound {result : Option TlsInfo × CryptoFrameReassembler} (h : Sound r)
    (hout : Outcome r allowPartial result) : Found true result.1 ∧ Sound result.2 := by
  have hsome : ∀ {info : TlsInfo}, info.Names (Surfaced true) → Found true (some info) :=
    fun hinfo _ heq => Option.some.inj heq ▸ hinfo
  -- one strategy at a time; only the cached name is not read anew
  cases hout with
  | cached hcached hcomplete => exact ⟨hsome (h.getCachedTlsInfo hcached), h⟩
  | contiguous hcached hcontiguous =>
    have hinfo := ((tryExtractFromContiguous_ensures h).of_eq_pure hcontiguous _ rfl).mono
      fun _ => Surfaced.mono
    exact ⟨hsome hinfo, h.cacheIfComplete hinfo⟩
  | fragment hcached hcontiguous hfragment =>
    have hinfo := ((tryExtractFromFragments_ensures h).of_eq_pure hfragment _ rfl).mono
      fun _ => Surfaced.mono
    exact ⟨hsome hinfo, h.cacheIfComplete hinfo⟩
  | reconstructed hcached hcontiguous hfragment hreconstruct =>
    have hinfo := names_ofSni ((tryReconstruct_ensures h).of_eq_pure hreconstruct _ rfl)
    exact ⟨hsome hinfo, h.cacheIfComplete hinfo⟩
  | greedy hcached hcontiguous hfragment hreconstruct hgreedy =>
    have hinfo := (tryExtractGreedyFromReassembler_ensures h).of_eq_pure hgreedy _ rfl
    exact ⟨hsome hinfo, h.setCompleteTlsInfo hinfo⟩
  | nothing => exact ⟨(fun _ heq => nomatch heq), h⟩

end Sound

/-! ## Safety -/

/-- The reassemblers that fragments and extractions lead to. The offsets of fragments come from
variable-length integers, and a fragment without data is not added. -/
inductive Reachable : CryptoFrameReassembler → Prop
  | new : Reachable .new
  | addFragment {r : CryptoFrameReassembler} {f : ℕ × List UInt8} (h : Reachable r)
      (hoffset : f.1 < 2 ^ 62) (hdata : f.2 ≠ []) : Reachable (r.receive f)
  | extract {r : CryptoFrameReassembler} {allowPartial : Bool}
      {result : Option TlsInfo × CryptoFrameReassembler} (h : Reachable r)
      (hresult : tryExtractTlsFromReassembler r allowPartial = pure result) : Reachable result.2

section Safety

variable {r other : CryptoFrameReassembler} {f : ℕ × List UInt8}

theorem Sound.new : Sound .new where
  wellFormed := .new
  maxBufferSize_eq := rfl
  offset_lt := fun _ hf => absurd hf List.not_mem_nil
  cached := fun _ heq => nomatch heq

theorem Sound.receive (h : Sound r) (hoffset : f.1 < 2 ^ 62) (hdata : f.2 ≠ []) :
    Sound (r.receive f) := by
  obtain ⟨-, heq⟩ | ⟨-, -, heq⟩ | ⟨hacc, hapart, heq⟩ :=
    CryptoFrameReassembler.receive_cases hdata (r := r)
  · rwa [heq]
  · rwa [heq]
  · rw [heq]
    refine ⟨h.wellFormed.store hdata hacc hapart, h.maxBufferSize_eq, fun g hg => ?_, h.cached⟩
    rcases List.mem_cons.mp ((h.wellFormed.store_fragments hdata hapart).mem_iff.mp hg) with rfl | hg
    · exact hoffset
    · exact h.offset_lt g hg

theorem Reachable.sound (h : Reachable r) : Sound r := by
  induction h with
  | new => exact .new
  | addFragment _ hoffset hdata ih => exact ih.receive hoffset hdata
  | extract _ hresult ih =>
    exact (((tryExtractTlsFromReassembler_outcome ih _).of_eq_pure hresult).sound ih).2

/-- The fragments of a merge come one after another. -/
theorem Reachable.foldl_receive (h : Reachable r) {fs : List (ℕ × List UInt8)}
    (hfs : ∀ f ∈ fs, f.1 < 2 ^ 62 ∧ f.2 ≠ []) :
    Reachable (fs.foldl CryptoFrameReassembler.receive r) := by
  induction fs generalizing r with
  | nil => exact h
  | cons f fs ih =>
    rw [List.forall_mem_cons] at hfs
    exact ih (h.addFragment hfs.1.1 hfs.1.2) hfs.2

/-- No reachable reassembler makes the extraction stop with a fault or go on forever, with or
without cut-off names. What a merge makes of it, with the fragments of another one, is reachable
again, and so is what the extraction leaves behind. A reassembler is reachable (`h`, `hother`) if
fragments and extractions lead to it from a new one, in any order; the fragments may hold
anything. -/
theorem tryExtractTlsFromReassembler_safe (h : Reachable r) (hother : Reachable other)
    (allowPartial : Bool) :
    Ensures (tryExtractTlsFromReassembler r allowPartial) (fun result => Reachable result.2) ∧
      Reachable (other.fragments.foldl CryptoFrameReassembler.receive r) := by
  refine ⟨?_, h.foldl_receive fun f hf => ?_⟩
  · obtain ⟨result, hresult, -⟩ := tryExtractTlsFromReassembler_outcome h.sound allowPartial
    exact ⟨result, hresult, h.extract hresult⟩
  · exact ⟨hother.sound.offset_lt f hf, hother.sound.wellFormed.ne_nil f hf⟩

/-- A fragment at the last offset, merged with one at the first. -/
theorem tryExtractTlsFromReassembler_safe_lastOffset :
    Ensures (tryExtractTlsFromReassembler
        (CryptoFrameReassembler.new.receive (2 ^ 62 - 1, [0x16, 0x03, 0x01])) false)
        (fun result => Reachable result.2) ∧
      Reachable ((CryptoFrameReassembler.new.receive (0, [0x01])).fragments.foldl
        CryptoFrameReassembler.receive
        (CryptoFrameReassembler.new.receive (2 ^ 62 - 1, [0x16, 0x03, 0x01]))) :=
  tryExtractTlsFromReassembler_safe (.addFragment .new (by decide) (by decide))
    (.addFragment .new (by decide) (by decide)) false

end Safety

/-! ## The flag -/

/-- Without `allow_partial` no cut-off name is returned, and only a complete name is newly cached. -/
structure KeepsFlag (r : CryptoFrameReassembler) (allowPartial : Bool)
    (result : Option TlsInfo × CryptoFrameReassembler) : Prop where
  returned : allowPartial = false → ∀ info, result.1 = some info →
    info.Names fun sni => isPartialSni sni = false
  cached : ∀ info, result.2.getCachedTlsInfo = some info →
    r.getCachedTlsInfo = some info ∨ isCompleteSni info.sni = true

/-- The strategies that are asked for complete names find nothing, and a cut-off name comes from one
of the two others: from the scan of the fragments, or from the greedy scan, which caches what it
finds. -/
structure SurfacesCutName (r : CryptoFrameReassembler) (allowPartial : Bool) : Prop where
  notCached : NotCached r
  contiguous_eq : tryExtractFromContiguous r allowPartial = pure none
  fragments_eq : tryExtractFromFragments r allowPartial = pure none
  cut : ∃ sni, isPartialSni sni = true ∧
    ((100 ≤ Fragments.size r.fragments ∧ patternInFragments r.fragments = pure (some sni) ∧
        allowPartial = false) ∨
      (tryReconstruct r = pure none ∧
        tryExtractGreedyFromReassembler r = pure (some (.ofSni sni)) ∧
        (allowPartial = false ∨ r.getCachedTlsInfo ≠ some (.ofSni sni))))

section Flag

variable {r : CryptoFrameReassembler} {allowPartial : Bool} {info : TlsInfo} {sni : String}
  {result : Option TlsInfo × CryptoFrameReassembler}

/-- Only the scan of single fragments reconstructs a cut-off name. -/
theorem Sound.tryReconstruct_eq_cut_iff (h : Sound r) (hcut : isPartialSni sni = true) :
    tryReconstruct r = pure (some sni) ↔
      100 ≤ Fragments.size r.fragments ∧ patternInFragments r.fragments = pure (some sni) := by
  rw [h.tryReconstruct_eq]
  split_ifs with hsize
  · rw [tryReconstructSniFromFragments, and_iff_right hsize]
    constructor
    · intro heq
      obtain ⟨pattern?, hpattern, heq⟩ := bind_eq_pure_iff.mp heq
      rcases pattern? with _ | pattern
      · -- a candidate is a host name
        have hvalid := (candidateInFragments_ensures h.offset_lt h.padded_size_lt).of_eq_pure heq
          sni rfl
        exact absurd hcut (Bool.eq_false_iff.mp (not_isPartialSni_of_valid hvalid))
      · rw [hpattern]
        exact heq
    · intro heq
      rw [heq]
      rfl
  · refine iff_of_false (fun heq => ?_) fun hpattern => hsize hpattern.1
    cases pure_inj.mp heq

theorem greedy_eq_ofSni (h : tryExtractGreedyFromReassembler r = pure (some info)) :
    ∃ sni, info = .ofSni sni := by
  obtain ⟨sni?, -, heq⟩ := bind_eq_pure_iff.mp h
  rcases sni? with _ | sni
  · obtain ⟨sni?, -, heq⟩ := bind_eq_pure_iff.mp heq
    obtain ⟨sni, -, heq⟩ := Option.map_eq_some_iff.mp (pure_inj.mp heq)
    exact ⟨sni, heq.symm⟩
  · exact ⟨sni, (Option.some.inj (pure_inj.mp heq)).symm⟩

theorem getCachedTlsInfo_cacheIfComplete
    {info' : TlsInfo} (h : (cacheIfComplete r info).getCachedTlsInfo = some info') :
    r.getCachedTlsInfo = some info' ∨ isCompleteSni info'.sni = true := by
  obtain ⟨hcomplete, heq⟩ | ⟨-, heq⟩ := cacheIfComplete_cases r info
  · rw [heq] at h
    exact .inr (Option.some.inj h ▸ hcomplete)
  · rw [heq] at h
    exact .inl h

theorem names_of_isCompleteSni (h : isCompleteSni info.sni = true) :
    info.Names fun sni => isPartialSni sni = false := by
  intro sni heq
  rwa [heq, isCompleteSni_some, Bool.not_eq_true'] at h

/-- A reconstructed name keeps the flag unless the scan of the fragments cut it off. -/
theorem keepsFlag_reconstructed_iff (h : Sound r) (hcached : NotCached r)
    (hcontiguous : tryExtractFromContiguous r allowPartial = pure none)
    (hfragment : tryExtractFromFragments r allowPartial = pure none)
    (hreconstruct : tryReconstruct r = pure (some sni)) :
    KeepsFlag r allowPartial (some (.ofSni sni), cacheIfComplete r (.ofSni sni)) ↔
      ¬ SurfacesCutName r allowPartial := by
  constructor
  · rintro hkeeps ⟨-, -, -, sni', hcut, ⟨hsize, hpattern, hflag⟩ | ⟨hnone, -⟩⟩
    -- the scan's name is the one returned
    · have heq := ((h.tryReconstruct_eq_cut_iff hcut).mpr ⟨hsize, hpattern⟩).symm.trans
        hreconstruct
      obtain rfl := Option.some.inj (pure_inj.mp heq)
      exact absurd hcut (Bool.eq_false_iff.mp (hkeeps.returned hflag _ rfl _ rfl))
    · cases pure_inj.mp (hreconstruct.symm.trans hnone)
  · intro hnot
    refine ⟨fun hflag info heq => ?_, fun _ => getCachedTlsInfo_cacheIfComplete⟩
    obtain rfl := Option.some.inj heq
    refine names_ofSni (Bool.eq_false_iff.mpr fun hcut => hnot ⟨hcached, hcontiguous, hfragment,
      sni, hcut, .inl ?_⟩)
    obtain ⟨hsize, hpattern⟩ := (h.tryReconstruct_eq_cut_iff hcut).mp hreconstruct
    exact ⟨hsize, hpattern, hflag⟩

/-- A name of the greedy scan keeps the flag unless it is cut off, and new or not asked for. -/
theorem keepsFlag_greedy_iff (h : Sound r) (hcached : NotCached r)
    (hcontiguous : tryExtractFromContiguous r allowPartial = pure none)
    (hfragment : tryExtractFromFragments r allowPartial = pure none)
    (hreconstruct : tryReconstruct r = pure none)
    (hgreedy : tryExtractGreedyFromReassembler r = pure (some info)) :
    KeepsFlag r allowPartial (some info, r.setCompleteTlsInfo info) ↔
      ¬ SurfacesCutName r allowPartial := by
  obtain ⟨sni, rfl⟩ := greedy_eq_ofSni hgreedy
  constructor
  · rintro hkeeps ⟨-, -, -, sni', hcut, ⟨hsize, hpattern, -⟩ | ⟨-, hgreedy', hnew⟩⟩
    · have heq := (h.tryReconstruct_eq_cut_iff hcut).mpr ⟨hsize, hpattern⟩
      cases pure_inj.mp (hreconstruct.symm.trans heq)
    -- the greedy scan's name is returned, and cached though it is not complete
    · have heq := Option.some.inj (pure_inj.mp (hgreedy.symm.trans hgreedy'))
      obtain rfl : sni = sni' := Option.some.inj (congrArg TlsInfo.sni heq)
      rcases hnew with hflag | hnew
      · exact absurd hcut (Bool.eq_false_iff.mp (hkeeps.returned hflag _ rfl _ rfl))
      · have hcomplete := (hkeeps.cached _ rfl).resolve_left hnew
        rw [TlsInfo.ofSni, isCompleteSni_some, hcut] at hcomplete
        cases hcomplete
  · intro hnot
    rcases hcut : isPartialSni sni
    · refine ⟨fun _ info heq => Option.some.inj heq ▸ names_ofSni hcut, fun info heq => .inr ?_⟩
      rw [← Option.some.inj heq, TlsInfo.ofSni, isCompleteSni_some, hcut]
      rfl
    -- a cut-off name that was asked for, and that was cached before
    · have hold : ¬ (allowPartial = false ∨ r.getCachedTlsInfo ≠ some (.ofSni sni)) :=
        fun hnew => hnot ⟨hcached, hcontiguous, hfragment, sni, hcut,
          .inr ⟨hreconstruct, hgreedy, hnew⟩⟩
      push Not at hold
      exact ⟨fun hflag => absurd hflag hold.1, fun info heq =>
        .inl (hold.2.trans heq)⟩

/-- The flag is kept exactly unless the strategies that are asked for complete names find nothing
and one of the two others comes to a cut-off name. The reassembler is any reachable one (`h`) and
the flag either value. The scan of the fragments and the greedy scan do not take the flag; what they
find is returned, or cached, as it is. -/
theorem keepsFlag_iff (h : Reachable r) (allowPartial : Bool) :
    Ensures (tryExtractTlsFromReassembler r allowPartial) fun result =>
      KeepsFlag r allowPartial result ↔ ¬ SurfacesCutName r allowPartial := by
  have hsound := h.sound
  refine (tryExtractTlsFromReassembler_outcome hsound allowPartial).mono fun result hout => ?_
  -- an earlier strategy that found something keeps the flag, and rules the later ones out
  have hearly : ∀ {info : TlsInfo}, info.Names (Surfaced allowPartial) →
      KeepsFlag r allowPartial (some info, cacheIfComplete r info) := by
    intro info hinfo
    refine ⟨fun hflag info' heq => ?_, fun _ => getCachedTlsInfo_cacheIfComplete⟩
    obtain rfl := Option.some.inj heq
    exact hinfo.mono fun sni hsni => hsni.isPartialSni_eq hflag
  have hnone : ∀ {c : Checked (Option TlsInfo)} {info : TlsInfo}, c = pure (some info) →
      c ≠ pure none := fun hsome hnone => nomatch pure_inj.mp (hsome.symm.trans hnone)
  cases hout with
  | cached hcached hcomplete =>
    refine iff_of_true ⟨fun _ info' heq => ?_, fun _ => .inl⟩ fun hcut => ?_
    · exact Option.some.inj heq ▸ names_of_isCompleteSni hcomplete
    · exact absurd hcomplete (Bool.eq_false_iff.mp (hcut.notCached _ hcached))
  | contiguous hcached hcontiguous =>
    refine iff_of_true (hearly ?_) fun hcut => hnone hcontiguous hcut.contiguous_eq
    exact (tryExtractFromContiguous_ensures hsound).of_eq_pure hcontiguous _ rfl
  | fragment hcached hcontiguous hfragment =>
    refine iff_of_true (hearly ?_) fun hcut => hnone hfragment hcut.fragments_eq
    exact (tryExtractFromFragments_ensures hsound).of_eq_pure hfragment _ rfl
  | reconstructed hcached hcontiguous hfragment hreconstruct =>
    exact keepsFlag_reconstructed_iff hsound hcached hcontiguous hfragment hreconstruct
  | greedy hcached hcontiguous hfragment hreconstruct hgreedy =>
    exact keepsFlag_greedy_iff hsound hcached hcontiguous hfragment hreconstruct hgreedy
  | nothing hcached hcontiguous hfragment hreconstruct hgreedy =>
    refine iff_of_true ⟨(fun _ _ heq => nomatch heq), fun _ => .inl⟩ ?_
    rintro ⟨-, -, -, sni', hcut, ⟨hsize, hpattern, -⟩ | ⟨-, hgreedy', -⟩⟩
    · have heq := (hsound.tryReconstruct_eq_cut_iff hcut).mpr ⟨hsize, hpattern⟩
      cases pure_inj.mp (hreconstruct.symm.trans heq)
    · exact hnone hgreedy' hgreedy

/-- A `server_name` extension that announces a name of ten bytes and breaks off behind three. -/
def cutExtension : List UInt8 :=
  [0x00, 0x00, 0x00, 0x0f, 0x00, 0x0d, 0x00, 0x00, 0x0a, 0x61, 0x62, 0x63]

/-- The state that this extension alone leads to, in the middle of a message. -/
def cutReassembler : CryptoFrameReassembler := CryptoFrameReassembler.new.receive (56, cutExtension)

theorem reachable_cutReassembler : Reachable cutReassembler :=
  .addFragment .new (by decide) (by decide)

/-- Where cut-off names are asked for, the same state is no exception. -/
theorem keepsFlag_iff_cutReassembler :
    Ensures (tryExtractTlsFromReassembler cutReassembler true) fun result =>
      KeepsFlag cutReassembler true result ↔ ¬ SurfacesCutName cutReassembler true :=
  keepsFlag_iff reachable_cutReassembler true

/-- With nothing but a fragment that breaks off in the name the greedy scan returns the cut-off name
and caches it as complete, although only complete names are asked for. -/
theorem cutReassembler_not_keepsFlag :
    Reachable cutReassembler ∧
      ∃ result, tryExtractTlsFromReassembler cutReassembler false = pure result ∧
        result.1 = some (.ofSni "abc[PARTIAL]") ∧
        result.2.getCachedTlsInfo = some (.ofSni "abc[PARTIAL]") ∧
        ¬ KeepsFlag cutReassembler false result := by
  have heq : tryExtractTlsFromReassembler cutReassembler false =
      pure (some (.ofSni "abc[PARTIAL]"),
        cutReassembler.setCompleteTlsInfo (.ofSni "abc[PARTIAL]")) := by decide +kernel
  refine ⟨reachable_cutReassembler, _, heq, rfl, rfl, fun hkeeps => ?_⟩
  exact absurd (hkeeps.returned rfl _ rfl _ rfl) (by decide)

end Flag

end Tls

/-- An inspection with the extraction of the program. A fault leaves nothing to go on with. -/
@[reducible]
def DeepPacketInspection.extracting (inspection : DeepPacketInspection) : DeepPacketInspection :=
  { inspection with
    tryExtractTlsFromReassembler := fun r allowPartial =>
      match Tls.tryExtractTlsFromReassembler r allowPartial with
      | .ok result => result
      | .error _ => (none, r) }

end RustNet
