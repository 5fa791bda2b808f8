import Mathlib.Data.List.Sort
import Mathlib.Data.UInt
import RustNet.Network.Merge.Dpi
import RustNet.Network.Quic.Reassembly
import RustNet.Network.Tls.Scan

/-!
# Reconstruction from fragments

`try_reconstruct_sni_from_fragments`: a scan of the fragments near the start of the message, and
then a search for anything that looks like a host name in all fragments put together, where small
gaps are filled with zeros.

## Main definitions

* `Tls.findHostnameCandidates`: the runs of host name characters in some bytes, and their parts;
* `Tls.combine`: the fragments put together;
* `Tls.tryReconstructSniFromFragments`;
* `Tls.LongestInFragments`: what the search for host names comes to.

## Main results

* `Tls.tryReconstructSniFromFragments_ensures`: no fragments make the reconstruction fail, and what
  it finds may be handed out;
* `Tls.bestCandidate_eq_some_iff`: the best candidate is the first of the longest ones;
* `Tls.tryReconstructSniFromFragments_eq_some_iff`: what is reconstructed, and from where.
-/

namespace RustNet

namespace Tls

open Checked

/-! ## Candidates -/

/-- The inner loop of `find_hostname_candidates`: the end of the run, and the dots in it. -/
def runEnd (data : List UInt8) : ℕ → ℕ → ℕ → Checked (ℕ × ℕ)
  | 0, _, _ => throw .endless
  | rounds + 1, stop, dotCount => do
    if data.length ≤ stop then return (stop, dotCount)
    let b ← index data stop
    if isHostnameChar b.toChar then do
      let next ← add stop 1
      runEnd data rounds next (if b.toChar = '.' then dotCount + 1 else dotCount)
    else return (stop, dotCount)

/-- Consecutive labels of a longer candidate. -/
def subCandidates (parts : List (List Char)) : Checked (List String) := do
  let subs ← (List.range parts.length).mapM fun startIdx =>
    (List.range' (startIdx + 2) (parts.length + 1 - (startIdx + 2))).mapM fun endIdx => do
      let sub ← slice parts startIdx endIdx
      return String.ofList (['.'].intercalate sub)
  return subs.flatten

/-- What a run of host name characters adds to the candidates. -/
def runCandidates (candidate : String) : Checked (List String) := do
  let chars := candidate.toList
  -- `trim_matches`
  let cleaned := ((chars.dropWhile (!isHostnameChar ·)).reverse.dropWhile
    (!isHostnameChar ·)).reverse
  if cleaned.isEmpty ∨ cleaned.head? = some '.' ∨ cleaned.getLast? = some '.' ∨
      (cleaned.zip cleaned.tail).contains ('.', '.') then return []
  let cleanedName := String.ofList cleaned
  let parts := cleaned.splitOn '.'
  if 2 < parts.length then do
    let subs ← subCandidates parts
    return cleanedName :: subs.filter fun sub => sub != cleanedName && decide (4 ≤ sub.utf8ByteSize)
  else return [cleanedName]

/-- The outer loop of `find_hostname_candidates`. -/
def candidatesLoop (data : List UInt8) : ℕ → ℕ → List String → Checked (List String)
  | 0, _, _ => throw .endless
  | rounds + 1, i, candidates => do
    if data.length ≤ i then return candidates
    let b ← index data i
    if b.toChar.isAlphanum then do
      let run ← runEnd data (data.length + 1) i 0
      -- four characters at least, with a dot and not more than ten of them
      let longStart ← add i 3
      if longStart < run.1 ∧ 0 < run.2 ∧ run.2 ≤ 10 then do
        let bytes ← slice data i run.1
        match fromUtf8 bytes with
        | some candidate => do
          let new ← runCandidates candidate
          candidatesLoop data rounds run.1 (candidates ++ new)
        | none => candidatesLoop data rounds run.1 candidates
      else candidatesLoop data rounds run.1 candidates
    else do
      let next ← add i 1
      candidatesLoop data rounds next candidates

/-- `find_hostname_candidates`: the names in the runs of characters of host names, in their order
and each of them once. -/
def findHostnameCandidates (data : List UInt8) : Checked (List String) := do
  let candidates ← candidatesLoop data (data.length + 1) 0 []
  return mergeUnique [] candidates

/-! ## Fragments put together -/

/-- The state of the loop that puts the fragments together. -/
structure Combined where
  allData : List UInt8
  expectedOffset : ℕ
  hasSignificantGaps : Bool

/-- One fragment: a gap before it is filled with zeros if it is small. -/
def Combined.extend (combined : Combined) (fragment : ℕ × List UInt8) : Checked Combined := do
  if combined.expectedOffset < fragment.1 then do
    let gapSize ← sub fragment.1 combined.expectedOffset
    let significant :=
      (decide (combined.expectedOffset < 100) && decide (50 < gapSize)) || decide (300 < gapSize)
    -- a small gap is filled with zeros, and a large one is closed up
    let padded ←
      if gapSize ≤ 100 ∧ combined.allData ≠ [] then add combined.allData.length gapSize
      else pure combined.allData.length
    let stop ← add fragment.1 fragment.2.length
    return {
      allData := combined.allData.rightpad padded 0 ++ fragment.2
      expectedOffset := stop
      hasSignificantGaps := combined.hasSignificantGaps || significant }
  else do
    let stop ← add fragment.1 fragment.2.length
    return { combined with
      allData := combined.allData ++ fragment.2
      expectedOffset := stop }

/-- All fragments, in the order of their offsets. -/
def combine (fragments : List (ℕ × List UInt8)) : Checked Combined :=
  fragments.foldlM Combined.extend ⟨[], 0, false⟩

/-- Whether a candidate is processed; behind significant gaps only a long one is. -/
def acceptsCandidate (hasSignificantGaps : Bool) (candidate : String) : Bool :=
  if hasSignificantGaps then
    decide (15 ≤ candidate.utf8ByteSize) && decide (2 ≤ candidate.toList.count '.') &&
      isValidHostname candidate
  else isValidHostname candidate

/-- A candidate that is cut off: `a_is_partial` and `b_is_partial`. -/
def isTruncated (s : String) : Bool := isPartialSni s || decide ("...".toList <:+: s.toList)

/-- The order of the processed candidates: complete ones first, then the longer ones. -/
def candidateLe (a b : String) : Bool :=
  match isTruncated a, isTruncated b with
  | false, true => true
  | true, false => false
  | _, _ => decide (b.utf8ByteSize ≤ a.utf8ByteSize)

/-- The first of the processed candidates after the stable sort. -/
def bestCandidate (hasSignificantGaps : Bool) (candidates : List String) : Option String :=
  ((candidates.filter (acceptsCandidate hasSignificantGaps)).insertionSort
    fun a b => candidateLe a b).head?

/-! ## The two attempts -/

/-- One fragment of the first attempt; only those that start near the beginning are scanned. -/
def patternInFragment (fragment : ℕ × List UInt8) : Checked (Option String) := do
  if 200 < fragment.1 then return none
  scanFragment fragment.2

/-- The first attempt: the fragments are scanned. -/
def patternInFragments (fragments : List (ℕ × List UInt8)) : Checked (Option String) :=
  fragments.findSomeM? patternInFragment

/-- The second attempt: host names anywhere in the fragments put together. -/
def candidateInFragments (fragments : List (ℕ × List UInt8)) : Checked (Option String) := do
  if (fragments.any fun fragment => decide (fragment.1 ≤ 10)) = false then return none
  let combined ← combine fragments
  if combined.allData.length < 10 then return none
  let candidates ← findHostnameCandidates combined.allData
  return bestCandidate combined.hasSignificantGaps candidates

/-- `try_reconstruct_sni_from_fragments`: the first fragment with the pattern of the extension, or
else the best candidate in all the fragments put together. -/
def tryReconstructSniFromFragments (r : CryptoFrameReassembler) : Checked (Option String) := do
  let some sni ← patternInFragments r.fragments | candidateInFragments r.fragments
  return some sni

/-! ## Safety -/

section Safety

variable {data : List UInt8} {fragments : List (ℕ × List UInt8)}

/-- The run ends within the data, and behind a first character of a host name. -/
theorem runEnd_ensures (hlen : data.length < 2 ^ 63) {rounds stop dotCount : ℕ}
    (hstop : stop ≤ data.length) (hrounds : data.length - stop < rounds) :
    Ensures (runEnd data rounds stop dotCount) fun run =>
      stop ≤ run.1 ∧ run.1 ≤ data.length ∧
        ∀ b, data[stop]? = some b → isHostnameChar b.toChar = true → stop < run.1 := by
  -- each character takes a round, and the first other one ends the run
  induction rounds generalizing stop dotCount with
  | zero => exact absurd hrounds (Nat.not_lt_zero _)
  | succ rounds ih =>
    rw [runEnd]
    refine Ensures.ite (fun hend => ensures_pure ⟨le_rfl, hstop, fun b hb => ?_⟩) fun hmore => ?_
    · rw [List.getElem?_eq_none hend] at hb
      exact nomatch hb
    have hlt : stop < data.length := Nat.lt_of_not_le hmore
    refine (ensures_index hlt).bind fun b hb => ?_
    refine Ensures.ite (fun _ => ?_) fun hother => ?_
    · refine (ensures_add (by omega)).bind fun next hnext => ?_
      refine (ih (by omega) (by omega)).mono fun run hrun => ?_
      exact ⟨by omega, hrun.2.1, fun _ _ _ => by omega⟩
    · refine ensures_pure ⟨le_rfl, hstop, fun b' hb' hhost => absurd hhost ?_⟩
      rw [List.getElem?_eq_getElem hlt, ← hb] at hb'
      exact Option.some.inj hb' ▸ hother

theorem subCandidates_ensures (parts : List (List Char)) :
    Ensures (subCandidates parts) fun _ => True := by
  refine Ensures.bind (p := fun _ => True) ?_ fun _ _ => ensures_pure trivial
  refine (ensures_mapM (p := fun _ => True) fun startIdx _ => ?_).mono fun _ _ => trivial
  refine (ensures_mapM (p := fun _ => True) fun endIdx hend => ?_).mono fun _ _ => trivial
  rw [List.mem_range'_1] at hend
  exact (ensures_slice (by omega) (by omega)).bind fun _ _ => ensures_pure trivial

theorem runCandidates_ensures (candidate : String) :
    Ensures (runCandidates candidate) fun _ => True := by
  refine Ensures.ite (fun _ => ensures_pure trivial) fun _ => ?_
  refine Ensures.ite (fun _ => ?_) fun _ => ensures_pure trivial
  exact (subCandidates_ensures _).bind fun _ _ => ensures_pure trivial

theorem candidatesLoop_ensures (hlen : data.length < 2 ^ 63) {rounds i : ℕ}
    {candidates : List String} (hi : i ≤ data.length) (hrounds : data.length - i < rounds) :
    Ensures (candidatesLoop data rounds i candidates) fun _ => True := by
  induction rounds generalizing i candidates with
  | zero => exact absurd hrounds (Nat.not_lt_zero _)
  | succ rounds ih =>
    rw [candidatesLoop]
    refine Ensures.ite (fun _ => ensures_pure trivial) fun hmore => ?_
    have hlt : i < data.length := Nat.lt_of_not_le hmore
    refine (ensures_index hlt).bind fun b hb => ?_
    refine Ensures.ite (fun halnum => ?_) fun _ =>
      (ensures_add (by omega)).bind fun next hnext => ih (by omega) (by omega)
    refine (runEnd_ensures hlen hi (by omega)).bind fun run hrun => ?_
    -- the run has at least its first character, so the loop goes on behind `i`
    have hprogress : i < run.1 := by
      refine hrun.2.2 b (by rw [List.getElem?_eq_getElem hlt, hb]) ?_
      rw [isHostnameChar, halnum]
      rfl
    have hnext : ∀ candidates, Ensures (candidatesLoop data rounds run.1 candidates) fun _ => True :=
      fun _ => ih hrun.2.1 (by omega)
    refine (ensures_add (by omega)).bind fun longStart _ => ?_
    refine Ensures.ite (fun _ => ?_) fun _ => hnext _
    refine (ensures_slice hprogress.le hrun.2.1).bind fun bytes _ => ?_
    rcases fromUtf8 bytes with _ | candidate
    · exact hnext _
    · exact (runCandidates_ensures candidate).bind fun _ _ => hnext _

theorem findHostnameCandidates_ensures (hlen : data.length < 2 ^ 63) :
    Ensures (findHostnameCandidates data) fun _ => True :=
  (candidatesLoop_ensures hlen (Nat.zero_le _) (by omega)).bind fun _ _ => ensures_pure trivial

/-- Every fragment adds itself and at most a hundred zeros. -/
theorem combine_ensures (hoffset : ∀ f ∈ fragments, f.1 < 2 ^ 62)
    (hsize : (fragments.map fun f => f.2.length + 100).sum < 2 ^ 63) :
    Ensures (combine fragments) fun combined => combined.allData.length < 2 ^ 63 := by
  -- the data so far and what the rest can still add stay below the bound
  refine (ensures_foldlM (I := fun combined rest => (∀ f ∈ rest, f.1 < 2 ^ 62) ∧
    combined.allData.length + (rest.map fun f => f.2.length + 100).sum < 2 ^ 63)
    (fun combined f rest hI => ?_) ⟨hoffset, by simpa using hsize⟩).mono fun combined h => ?_
  · obtain ⟨hoffset, hsize⟩ := hI
    rw [List.forall_mem_cons] at hoffset
    rw [List.map_cons, List.sum_cons] at hsize
    refine Ensures.ite (fun hgap => ?_) fun _ => ?_
    · refine (ensures_sub hgap.le).bind fun gapSize hgapSize => ?_
      -- a gap of at most a hundred bytes is filled with zeros, a longer one is left out
      have hend : ∀ padded, padded ≤ combined.allData.length + 100 → Ensures (do
          let stop ← add f.1 f.2.length
          return ({ allData := combined.allData.rightpad padded 0 ++ f.2
                    expectedOffset := stop
                    hasSignificantGaps := combined.hasSignificantGaps ||
                      ((decide (combined.expectedOffset < 100) && decide (50 < gapSize)) ||
                        decide (300 < gapSize)) } : Combined)) fun combined =>
          (∀ f ∈ rest, f.1 < 2 ^ 62) ∧
            combined.allData.length + (rest.map fun f => f.2.length + 100).sum < 2 ^ 63 := by
        intro padded hpadded
        refine (ensures_add (by omega)).bind fun stop _ => ensures_pure ⟨hoffset.2, ?_⟩
        dsimp only
        rw [List.length_append, List.rightpad, List.length_append, List.length_replicate]
        omega
      refine Ensures.ite (fun hsmall => ?_) fun _ => hend _ (by omega)
      exact (ensures_add (by omega)).bind fun padded hpadded => hend padded (by omega)
    · refine (ensures_add (by omega)).bind fun stop _ => ensures_pure ⟨hoffset.2, ?_⟩
      dsimp only
      rw [List.length_append]
      omega
  · exact lt_of_le_of_lt (Nat.le_add_right _ _) h.2

theorem isValidHostname_of_acceptsCandidate {hasSignificantGaps : Bool} {sni : String}
    (h : acceptsCandidate hasSignificantGaps sni = true) : isValidHostname sni = true := by
  rw [acceptsCandidate] at h
  split_ifs at h with hgaps
  · exact (Bool.and_eq_true_iff.mp h).2
  · exact h

theorem isValidHostname_of_bestCandidate {hasSignificantGaps : Bool} {candidates : List String}
    {sni : String} (h : bestCandidate hasSignificantGaps candidates = some sni) :
    isValidHostname sni = true := by
  have hmem := List.mem_of_mem_head? h
  rw [List.mem_insertionSort, List.mem_filter] at hmem
  exact isValidHostname_of_acceptsCandidate hmem.2

theorem patternInFragments_ensures (hlen : ∀ f ∈ fragments, f.2.length < 2 ^ 63) :
    Ensures (patternInFragments fragments) fun sni? =>
      ∀ sni, sni? = some sni → Surfaced true sni :=
  ensures_findSomeM fun f hf => Ensures.ite (fun _ => ensures_none) fun _ =>
    scanFragment_ensures (hlen f hf)

theorem candidateInFragments_ensures (hoffset : ∀ f ∈ fragments, f.1 < 2 ^ 62)
    (hsize : (fragments.map fun f => f.2.length + 100).sum < 2 ^ 63) :
    Ensures (candidateInFragments fragments) fun sni? =>
      ∀ sni, sni? = some sni → isValidHostname sni = true := by
  refine Ensures.ite (fun _ => ensures_none) fun _ => ?_
  refine (combine_ensures hoffset hsize).bind fun combined hcombined => ?_
  refine Ensures.ite (fun _ => ensures_none) fun _ => ?_
  refine (findHostnameCandidates_ensures hcombined).bind fun candidates _ => ?_
  exact ensures_pure fun sni hsni => isValidHostname_of_bestCandidate hsni

end Safety

/-! ## The best candidate -/

/-- `s` is the first of the longest of some names. -/
def FirstLongest (names : List String) (s : String) : Prop :=
  ∃ before after, names = before ++ s :: after ∧
    (∀ t ∈ before, t.utf8ByteSize < s.utf8ByteSize) ∧ ∀ t ∈ after, t.utf8ByteSize ≤ s.utf8ByteSize

section BestCandidate

/-- A stable sort puts the first of the least elements in front. -/
theorem head?_insertionSort_eq_some_iff {α : Type} {r : α → α → Prop} [DecidableRel r]
    [Std.Total r] [IsTrans α r] {l : List α} {x : α} :
    (l.insertionSort r).head? = some x ↔
      ∃ before after, l = before ++ x :: after ∧ (∀ y ∈ before, ¬ r y x) ∧ ∀ y ∈ after, r x y := by
  induction l generalizing x with
  | nil => simp
  | cons a l ih =>
    constructor
    · intro hhead
      rcases hsorted : l.insertionSort r with _ | ⟨b, rest⟩
      · have hnil : l = [] := by
          rw [← List.length_eq_zero_iff, ← List.length_insertionSort r, hsorted, List.length_nil]
        rw [List.insertionSort_cons, hsorted] at hhead
        obtain rfl := Option.some.inj hhead
        exact ⟨[], l, rfl, (fun _ hy => absurd hy List.not_mem_nil), fun y hy =>
          absurd (hnil ▸ hy) List.not_mem_nil⟩
      · obtain ⟨before, after, rfl, hbefore, hafter⟩ := (ih (x := b)).mp (by rw [hsorted]; rfl)
        rw [List.insertionSort_cons, hsorted, List.orderedInsert_cons] at hhead
        split_ifs at hhead with hle
        · -- the new element comes before the least of the others
          obtain rfl := Option.some.inj hhead
          refine ⟨[], _, rfl, (fun _ hy => absurd hy List.not_mem_nil), fun y hy => ?_⟩
          rcases List.mem_append.mp hy with hy | hy
          · exact IsTrans.trans _ _ _ hle ((total_of r b y).resolve_right (hbefore y hy))
          · rcases List.mem_cons.mp hy with rfl | hy
            · exact hle
            · exact IsTrans.trans _ _ _ hle (hafter y hy)
        · obtain rfl := Option.some.inj hhead
          exact ⟨a :: before, after, rfl, List.forall_mem_cons.mpr ⟨hle, hbefore⟩, hafter⟩
    · rintro ⟨before, after, heq, hbefore, hafter⟩
      rcases before with _ | ⟨b, before⟩
      · obtain ⟨rfl, rfl⟩ := List.cons.inj heq
        rw [List.insertionSort_cons_of_forall_rel r hafter]
        rfl
      · obtain ⟨rfl, rfl⟩ := List.cons.inj heq
        rw [List.forall_mem_cons] at hbefore
        have hhead := ih.mpr ⟨before, after, rfl, hbefore.2, hafter⟩
        obtain ⟨rest, hrest⟩ := List.head?_eq_some_iff.mp hhead
        rw [List.insertionSort_cons, hrest, List.orderedInsert_of_not_le r _ hbefore.1]
        rfl

theorem candidateLe_iff {a b : String} :
    candidateLe a b = true ↔ (isTruncated a = false ∧ isTruncated b = true) ∨
      (isTruncated a = isTruncated b ∧ b.utf8ByteSize ≤ a.utf8ByteSize) := by
  rw [candidateLe]
  cases isTruncated a <;> cases isTruncated b <;> simp

instance : Std.Total fun a b => candidateLe a b = true where
  total a b := by
    have htotal := Nat.le_total b.utf8ByteSize a.utf8ByteSize
    rw [candidateLe_iff, candidateLe_iff]
    cases isTruncated a <;> cases isTruncated b <;> simp [htotal]

instance : IsTrans String fun a b => candidateLe a b = true where
  trans a b c hab hbc := by
    rw [candidateLe_iff] at hab hbc ⊢
    rcases hab with ⟨ha, hb⟩ | ⟨hab, hle⟩
    · refine .inl ⟨ha, ?_⟩
      rcases hbc with ⟨hb', -⟩ | ⟨hbc, -⟩
      · exact absurd (hb.symm.trans hb') (by decide)
      · exact hbc ▸ hb
    · rcases hbc with ⟨hb, hc⟩ | ⟨hbc, hle'⟩
      · exact .inl ⟨hab.trans hb, hc⟩
      · exact .inr ⟨hab.trans hbc, hle'.trans hle⟩

theorem mem_zip_tail {α : Type} {x y : α} (before after : List α) :
    (x, y) ∈ (before ++ x :: y :: after).zip (before ++ x :: y :: after).tail := by
  induction before with
  | nil => exact List.mem_cons_self
  | cons b before ih =>
    rcases before with _ | ⟨c, before⟩
    · exact List.mem_cons_of_mem _ ih
    · exact List.mem_cons_of_mem _ ih

/-- A host name has no three dots in a row. -/
theorem isTruncated_of_valid {s : String} (h : isValidHostname s = true) :
    isTruncated s = false := by
  rw [isTruncated, not_isPartialSni_of_valid h, Bool.false_or, decide_eq_false_iff_not]
  rintro ⟨before, after, heq⟩
  have hdots : ('.', '.') ∈ s.toList.zip s.toList.tail := by
    rw [← heq, List.append_assoc]
    exact mem_zip_tail before ('.' :: after)
  rw [isValidHostname] at h
  simp [hdots] at h

/-- Between host names the order is that of their lengths. -/
theorem candidateLe_of_valid {a b : String} (ha : isValidHostname a = true)
    (hb : isValidHostname b = true) :
    candidateLe a b = decide (b.utf8ByteSize ≤ a.utf8ByteSize) := by
  rw [candidateLe, isTruncated_of_valid ha, isTruncated_of_valid hb]

theorem bestCandidate_eq_some_iff {hasSignificantGaps : Bool} {candidates : List String}
    {s : String} :
    bestCandidate hasSignificantGaps candidates = some s ↔
      FirstLongest (candidates.filter (acceptsCandidate hasSignificantGaps)) s := by
  have hvalid : ∀ t ∈ candidates.filter (acceptsCandidate hasSignificantGaps),
      isValidHostname t = true := fun t ht =>
    isValidHostname_of_acceptsCandidate (List.mem_filter.mp ht).2
  rw [bestCandidate, head?_insertionSort_eq_some_iff, FirstLongest]
  refine exists_congr fun before => exists_congr fun after => and_congr_right fun heq => ?_
  rw [heq, List.forall_mem_append, List.forall_mem_cons] at hvalid
  obtain ⟨hbefore, hs, hafter⟩ := hvalid
  refine and_congr (forall₂_congr fun t ht => ?_) (forall₂_congr fun t ht => ?_)
  · rw [candidateLe_of_valid (hbefore t ht) hs, decide_eq_true_iff, Nat.not_le]
  · rw [candidateLe_of_valid hs (hafter t ht), decide_eq_true_iff]

end BestCandidate

/-! ## What the attempts find -/

/-- In the fragments put together `name` is the first of the longest host names. -/
def LongestInFragments (fragments : List (ℕ × List UInt8)) (name : String) : Prop :=
  (fragments.any fun fragment => decide (fragment.1 ≤ 10)) = true ∧
    ∃ combined candidates, combine fragments = pure combined ∧ 10 ≤ combined.allData.length ∧
      findHostnameCandidates combined.allData = pure candidates ∧
      FirstLongest (candidates.filter (acceptsCandidate combined.hasSignificantGaps)) name

section Attempts

variable {fragments : List (ℕ × List UInt8)} {f : ℕ × List UInt8} {name : String}

theorem LongestInFragments.valid (h : LongestInFragments fragments name) :
    isValidHostname name = true := by
  obtain ⟨-, combined, candidates, -, -, -, before, after, heq, -⟩ := h
  have hmem : name ∈ before ++ name :: after := List.mem_append_right before List.mem_cons_self
  rw [← heq, List.mem_filter] at hmem
  exact isValidHostname_of_acceptsCandidate hmem.2

/-- The scan of a fragment finds a name at one of its positions. -/
theorem patternInFragment_eq_some_iff :
    patternInFragment f = pure (some name) ↔
      f.1 ≤ 200 ∧ ∃ i, FindsAt (List.range (f.2.length - 10)) (fragmentPatternAt f.2) i name := by
  rw [patternInFragment]
  split_ifs with hlate
  · exact iff_of_false (fun h => nomatch pure_inj.mp h) fun h => absurd h.1 (Nat.not_le.mpr hlate)
  · rw [scanFragment, findSomeM_eq_some_iff, and_iff_right (Nat.not_lt.mp hlate)]

theorem candidateInFragments_eq_some_iff :
    candidateInFragments fragments = pure (some name) ↔ LongestInFragments fragments name := by
  rw [candidateInFragments, LongestInFragments]
  -- without a fragment near the beginning nothing is reconstructed
  split_ifs with hstart
  · exact iff_of_false (fun h => nomatch pure_inj.mp h) fun h =>
      absurd h.1 (Bool.eq_false_iff.mp hstart)
  rw [bind_eq_pure_iff, and_iff_right (Bool.not_eq_false _ ▸ hstart)]
  refine exists_congr fun combined => ?_
  constructor
  · rintro ⟨hcombined, h⟩
    split_ifs at h with hshort
    · exact nomatch pure_inj.mp h
    · obtain ⟨candidates, hcandidates, h⟩ := bind_eq_pure_iff.mp h
      exact ⟨candidates, hcombined, Nat.not_lt.mp hshort, hcandidates,
        bestCandidate_eq_some_iff.mp (pure_inj.mp h)⟩
  · rintro ⟨candidates, hcombined, hlong, hcandidates, h⟩
    rw [if_neg (Nat.not_lt.mpr hlong), hcandidates, pure_bind', bestCandidate_eq_some_iff.mpr h]
    exact ⟨hcombined, rfl⟩

/-- The second attempt is made when the first finds nothing. -/
theorem tryReconstructSniFromFragments_eq_some_iff {r : CryptoFrameReassembler} :
    tryReconstructSniFromFragments r = pure (some name) ↔
      patternInFragments r.fragments = pure (some name) ∨
        (patternInFragments r.fragments = pure none ∧ LongestInFragments r.fragments name) := by
  rw [tryReconstructSniFromFragments, bind_eq_pure_iff, ← candidateInFragments_eq_some_iff]
  constructor
  · rintro ⟨_ | sni, hpattern, h⟩
    · exact .inr ⟨hpattern, h⟩
    · exact .inl (hpattern.trans h)
  · rintro (hpattern | ⟨hpattern, h⟩)
    · exact ⟨some name, hpattern, rfl⟩
    · exact ⟨none, hpattern, h⟩

end Attempts

end Tls

end RustNet
