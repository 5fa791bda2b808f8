import Mathlib.Data.List.Pairwise
import RustNet.Foundations.Fragments
import RustNet.Foundations.Run
import RustNet.Network.Types.Application

/-!
# Reassembly of CRYPTO frames

What `CryptoFrameReassembler` keeps of the fragments it is given, and what
`get_contiguous_data` hands to the TLS parser.

## Main definitions

* `CryptoFrameReassembler.WellFormed`: stored fragments lie apart, their sizes add up to the
  buffered size, and `contiguous_offset` is the end of the prefix without gaps;
* `CryptoFrameReassembler.KeepsAccepted`: what was accepted can be read from what is stored;
* `CryptoFrameReassembler.FitsStored`: a fragment lies apart from the stored ones or within them.

## Main results

* `WellFormed.receive`: every added fragment keeps `WellFormed`;
* `getContiguousData_ofParts`: the parts of a stream arriving in any order give the stream;
* `keepsAccepted_iff_fitsStored`: nothing accepted is lost exactly while no accepted fragment
  overlaps the stored ones in part.
-/

namespace RustNet

namespace CryptoFrameReassembler

/-- The loop of `get_contiguous_data`: from each fragment in order the bytes behind those that are
already collected, until the contiguous offset is reached. -/
def collect (contiguousOffset currentOffset : ℕ) : List (ℕ × List UInt8) → List UInt8
  | [] => []
  | (offset, data) :: rest =>
    if offset ≤ currentOffset ∧ currentOffset - offset < data.length then
      data.drop (currentOffset - offset) ++
        if contiguousOffset ≤ offset + data.length then []
        else collect contiguousOffset (offset + data.length) rest
    else if contiguousOffset ≤ currentOffset then []
    else collect contiguousOffset currentOffset rest

/-- `get_contiguous_data`: the bytes from the beginning of the stream up to the contiguous offset,
or nothing when there are none. -/
def getContiguousData (r : CryptoFrameReassembler) : Option (List UInt8) :=
  if r.contiguousOffset = 0 then none
  else
    let result := collect r.contiguousOffset 0 r.fragments
    if result.isEmpty then none else some result

/-- The reassembler after `add_fragment`, whatever it returned. -/
def receive (r : CryptoFrameReassembler) (f : ℕ × List UInt8) : CryptoFrameReassembler :=
  (r.addFragment f.1 f.2).1

/-- `add_fragment` returns `Ok`: the buffer has room for the whole fragment, whatever of it is
already there. -/
def Accepts (r : CryptoFrameReassembler) (f : ℕ × List UInt8) : Prop :=
  r.currentBufferSize + f.2.length ≤ r.maxBufferSize

instance (r : CryptoFrameReassembler) (f : ℕ × List UInt8) : Decidable (r.Accepts f) := by
  unfold Accepts
  infer_instance

/-- The state of a reassembler that holds non-empty fragments. -/
structure WellFormed (r : CryptoFrameReassembler) : Prop where
  sorted : r.fragments.Pairwise fun f g => f.1 < g.1
  ne_nil : ∀ f ∈ r.fragments, f.2 ≠ []
  apart : r.fragments.Pairwise Fragments.Apart
  bufferSize_eq : r.currentBufferSize = Fragments.size r.fragments
  bufferSize_le : r.currentBufferSize ≤ r.maxBufferSize
  frontier : Fragments.Frontier r.fragments r.contiguousOffset

/-! ## The loops -/

section Loops

variable {fs : List (ℕ × List UInt8)} {f : ℕ × List UInt8} {n o : ℕ}

theorem le_advance (n : ℕ) (fs : List (ℕ × List UInt8)) : n ≤ advance n fs := by
  induction fs generalizing n with
  | nil => exact le_rfl
  | cons f fs ih =>
    unfold advance
    split_ifs with hle hlt
    · exact hlt.le.trans (ih _)
    · exact ih _
    · exact le_rfl

/-- The loop of `update_contiguous_offset` passes covered positions only. -/
theorem coveredAt_of_lt_advance (hle : n ≤ o) (hlt : o < advance n fs) :
    Fragments.CoveredAt fs o := by
  induction fs generalizing n with
  | nil => exact absurd hlt (Nat.not_lt.mpr hle)
  | cons f fs ih =>
    unfold advance at hlt
    split_ifs at hlt with hfirst hend
    · rcases Nat.lt_or_ge o (Fragments.stop f) with hin | hout
      · exact ⟨f, List.mem_cons_self, hfirst.trans hle, hin⟩
      · exact (ih hout hlt).cons
    · exact (ih hle hlt).cons
    · exact absurd hlt (Nat.not_lt.mpr hle)

/-- The loop of `update_contiguous_offset` stops at a position that is not covered. -/
theorem not_coveredAt_advance (hord : Fragments.Ordered fs) :
    ¬ Fragments.CoveredAt fs (advance n fs) := by
  induction fs generalizing n with
  | nil => exact fun ⟨_, hg, _⟩ => absurd hg List.not_mem_nil
  | cons f fs ih =>
    have hrest : Fragments.Ordered fs := (List.pairwise_cons.mp hord).2
    -- past the end of `f` only the rest counts
    have hpast : ∀ m, Fragments.stop f ≤ m → ¬ Fragments.CoveredAt (f :: fs) (advance m fs) :=
      fun m hm h => ih hrest
        ((Fragments.coveredAt_cons_of_stop_le (hm.trans (le_advance m fs))).mp h)
    unfold advance
    split_ifs with hfirst hend
    · exact hpast _ le_rfl
    · exact hpast _ (Nat.not_lt.mp hend)
    · exact hord.not_coveredAt_of_lt (Nat.not_le.mp hfirst)

/-- The loop of `get_contiguous_data` reads from `n` up to the first position that is not
covered. -/
theorem reads_collect {limit : ℕ} (hord : Fragments.Ordered fs) (hle : n ≤ limit)
    (hcovered : ∀ o, n ≤ o → o < limit → Fragments.CoveredAt fs o)
    (hlimit : ¬ Fragments.CoveredAt fs limit) :
    Fragments.Reads fs n limit (collect limit n fs) := by
  induction fs generalizing n with
  | nil =>
    refine Fragments.Reads.nil (Nat.le_of_not_lt fun hlt => ?_)
    obtain ⟨_, hg, _⟩ := hcovered n le_rfl hlt
    exact absurd hg List.not_mem_nil
  | cons f fs ih =>
    have hrest : Fragments.Ordered fs := (List.pairwise_cons.mp hord).2
    -- behind the end of `f` the rest covers what `f :: fs` does
    have hbehind : ∀ m, n ≤ m → m ≤ limit → Fragments.stop f ≤ m →
        Fragments.Reads (f :: fs) m limit (collect limit m fs) := by
      intro m hnm hm hstop
      refine .cons hstop (ih hrest hm (fun o ho ho' => ?_) fun h => hlimit h.cons)
      exact (Fragments.coveredAt_cons_of_stop_le (hstop.trans ho)).mp
        (hcovered o (hnm.trans ho) ho')
    rw [collect]
    by_cases hcovers : f.1 ≤ n ∧ n - f.1 < f.2.length
    · -- `f` is read from `n` to its end, which is not behind the limit
      have hfirst : Fragments.Reads (f :: fs) n (Fragments.stop f) (f.2.drop (n - f.1)) :=
        .head hcovers.1
      have hlen : n ≤ Fragments.stop f := by
        unfold Fragments.stop
        omega
      have hstop : Fragments.stop f ≤ limit := by
        refine Nat.le_of_not_lt fun hlt => hlimit ⟨f, List.mem_cons_self, ?_, hlt⟩
        exact hcovers.1.trans hle
      rw [if_pos hcovers]
      by_cases hend : limit ≤ f.1 + f.2.length
      · have heq : Fragments.stop f = limit := le_antisymm hstop hend
        rwa [if_pos hend, List.append_nil, ← heq]
      · rw [if_neg hend]
        exact hfirst.append hlen hstop (hbehind _ hlen hstop le_rfl)
    · rw [if_neg hcovers]
      by_cases hdone : limit ≤ n
      · rw [if_pos hdone]
        exact .nil hdone
      · -- `n` is covered, so `f` ends before it
        have hstart : f.1 ≤ n := by
          refine Nat.le_of_not_lt fun hlt => ?_
          exact hord.not_coveredAt_of_lt hlt (hcovered n le_rfl (Nat.lt_of_not_le hdone))
        have hstop : Fragments.stop f ≤ n := by
          unfold Fragments.stop
          omega
        rw [if_neg hdone]
        exact hbehind n le_rfl hle hstop

end Loops

/-! ## Adding a fragment -/

section Insert

variable {fs : List (ℕ × List UInt8)} {g : ℕ × List UInt8} {offset : ℕ} {data : List UInt8}

/-- A fragment at a new offset joins the stored ones. -/
theorem insertFragment_perm (h : ∀ g ∈ fs, offset ≠ g.1) :
    (insertFragment offset data fs).Perm ((offset, data) :: fs) := by
  induction fs with
  | nil => exact List.Perm.refl _
  | cons g fs ih =>
    rw [List.forall_mem_cons] at h
    unfold insertFragment
    split_ifs with hlt heq
    · exact List.Perm.refl _
    · exact absurd heq h.1
    · exact ((ih h.2).cons g).trans (List.Perm.swap _ _ _)

theorem insertFragment_sorted (h : ∀ g ∈ fs, offset ≠ g.1)
    (hsorted : fs.Pairwise fun f g => f.1 < g.1) :
    (insertFragment offset data fs).Pairwise fun f g => f.1 < g.1 := by
  induction fs with
  | nil => exact List.pairwise_singleton _ _
  | cons g fs ih =>
    obtain ⟨hg, hfs⟩ := List.pairwise_cons.mp hsorted
    rw [List.forall_mem_cons] at h
    unfold insertFragment
    -- in front of the head, or behind it, as no offset is there twice
    split_ifs with hlt heq
    · refine List.pairwise_cons.mpr ⟨fun f hf => ?_, hsorted⟩
      rcases List.mem_cons.mp hf with rfl | hf
      · exact hlt
      · exact hlt.trans (hg f hf)
    · exact absurd heq h.1
    · refine List.pairwise_cons.mpr ⟨fun f hf => ?_, ih h.2 hfs⟩
      rcases List.mem_cons.mp ((insertFragment_perm h.2).mem_iff.mp hf) with rfl | hf
      · exact Nat.lt_of_le_of_ne (Nat.not_lt.mp hlt) (Ne.symm heq)
      · exact hg f hf

end Insert

section Receive

variable {r : CryptoFrameReassembler} {f : ℕ × List UInt8}

/-- The reassembler that stores one more fragment. -/
def store (r : CryptoFrameReassembler) (f : ℕ × List UInt8) : CryptoFrameReassembler :=
  { r with
    currentBufferSize := r.currentBufferSize + f.2.length
    fragments := insertFragment f.1 f.2 r.fragments
    contiguousOffset := advance r.contiguousOffset (insertFragment f.1 f.2 r.fragments) }

theorem addFragment_eq_ok_iff : (r.addFragment f.1 f.2).2 = .ok () ↔ r.Accepts f := by
  unfold addFragment Accepts
  by_cases hfull : r.maxBufferSize < r.currentBufferSize + f.2.length
  · rw [if_pos hfull]
    exact iff_of_false (fun h => nomatch h) (Nat.not_le.mpr hfull)
  · rw [if_neg hfull]
    refine iff_of_true ?_ (Nat.not_lt.mp hfull)
    dsimp only
    split_ifs <;> rfl

theorem receive_of_not_accepts (h : ¬ r.Accepts f) : r.receive f = r := by
  unfold receive addFragment
  rw [if_pos (Nat.not_le.mp h)]

/-- The loop over the stored fragments returns early for the first one that `f` overlaps. -/
theorem any_overlaps_iff (hf : f.2 ≠ []) :
    (r.fragments.any fun (fragOffset, fragData) =>
      let fragEnd := fragOffset + fragData.length
      (f.1 == fragOffset && f.1 + f.2.length == fragEnd) ||
        (decide (f.1 < fragEnd) && decide (fragOffset < f.1 + f.2.length))) = true ↔
      ∃ g ∈ r.fragments, ¬ Fragments.Apart f g := by
  rw [List.any_eq_true]
  refine exists_congr fun g => and_congr_right fun _ => ?_
  have hpos : 0 < f.2.length := List.length_pos_of_ne_nil hf
  unfold Fragments.Apart Fragments.stop
  simp only [Bool.or_eq_true, Bool.and_eq_true, beq_iff_eq, decide_eq_true_eq]
  omega

theorem receive_of_overlaps (hf : f.2 ≠ []) (h : ∃ g ∈ r.fragments, ¬ Fragments.Apart f g) :
    r.receive f = r := by
  unfold receive addFragment
  split_ifs with hfull
  · rfl
  · dsimp only
    rw [if_pos ((any_overlaps_iff hf).mpr h)]

theorem receive_of_apart (hf : f.2 ≠ []) (hacc : r.Accepts f)
    (h : ∀ g ∈ r.fragments, Fragments.Apart f g) : r.receive f = r.store f := by
  unfold receive addFragment
  rw [if_neg (Nat.not_lt.mpr hacc)]
  dsimp only
  rw [if_neg]
  · rfl
  · rw [any_overlaps_iff hf]
    exact fun ⟨g, hg, hnot⟩ => hnot (h g hg)

/-- What `add_fragment` can do. -/
theorem receive_cases (hf : f.2 ≠ []) :
    (¬ r.Accepts f ∧ r.receive f = r) ∨
      (r.Accepts f ∧ (∃ g ∈ r.fragments, ¬ Fragments.Apart f g) ∧ r.receive f = r) ∨
      (r.Accepts f ∧ (∀ g ∈ r.fragments, Fragments.Apart f g) ∧ r.receive f = r.store f) := by
  by_cases hacc : r.Accepts f
  · by_cases h : ∀ g ∈ r.fragments, Fragments.Apart f g
    · exact .inr (.inr ⟨hacc, h, receive_of_apart hf hacc h⟩)
    · push Not at h
      exact .inr (.inl ⟨hacc, h, receive_of_overlaps hf h⟩)
  · exact .inl ⟨hacc, receive_of_not_accepts hacc⟩

theorem receive_maxBufferSize : (r.receive f).maxBufferSize = r.maxBufferSize := by
  unfold receive addFragment
  split_ifs with hfull
  · rfl
  · dsimp only
    split_ifs <;> rfl

namespace WellFormed

theorem new : CryptoFrameReassembler.new.WellFormed where
  sorted := List.Pairwise.nil
  ne_nil := fun _ h => absurd h List.not_mem_nil
  apart := List.Pairwise.nil
  bufferSize_eq := rfl
  bufferSize_le := Nat.zero_le _
  frontier := ⟨fun _ h => absurd h (Nat.not_lt_zero _), fun ⟨_, h, _⟩ => absurd h List.not_mem_nil⟩

theorem ordered (h : r.WellFormed) : Fragments.Ordered r.fragments :=
  .of_sorted h.ne_nil h.sorted h.apart

/-- Fragments that lie apart start at different offsets. -/
theorem offset_ne (h : r.WellFormed) (hf : f.2 ≠ [])
    (hapart : ∀ g ∈ r.fragments, Fragments.Apart f g) : ∀ g ∈ r.fragments, f.1 ≠ g.1 := by
  intro g hg heq
  have hfpos := List.length_pos_of_ne_nil hf
  have hgpos := List.length_pos_of_ne_nil (h.ne_nil g hg)
  have hfg := hapart g hg
  unfold Fragments.Apart Fragments.stop at hfg
  omega

theorem store_fragments (h : r.WellFormed) (hf : f.2 ≠ [])
    (hapart : ∀ g ∈ r.fragments, Fragments.Apart f g) :
    (r.store f).fragments.Perm (f :: r.fragments) :=
  insertFragment_perm (h.offset_ne hf hapart)

/-- A stored fragment keeps the reassembler well formed. -/
theorem store (h : r.WellFormed) (hf : f.2 ≠ []) (hacc : r.Accepts f)
    (hapart : ∀ g ∈ r.fragments, Fragments.Apart f g) : (r.store f).WellFormed := by
  have hperm := h.store_fragments hf hapart
  -- the stored fragments are the old ones and `f`, in the order of their offsets
  have hsorted : (r.store f).fragments.Pairwise fun f g => f.1 < g.1 :=
    insertFragment_sorted (h.offset_ne hf hapart) h.sorted
  have hapart' : (r.store f).fragments.Pairwise Fragments.Apart :=
    hperm.symm.pairwise (List.pairwise_cons.mpr ⟨hapart, h.apart⟩) fun hfg => hfg.symm
  have hne : ∀ g ∈ (r.store f).fragments, g.2 ≠ [] := by
    intro g hg
    rcases List.mem_cons.mp (hperm.mem_iff.mp hg) with rfl | hg
    · exact hf
    · exact h.ne_nil g hg
  have hord : Fragments.Ordered (r.store f).fragments := .of_sorted hne hsorted hapart'
  refine ⟨hsorted, hne, hapart', ?_, hacc, fun o ho => ?_, not_coveredAt_advance hord⟩
  · show r.currentBufferSize + f.2.length = Fragments.size (r.store f).fragments
    rw [Fragments.size_perm hperm, Fragments.size_cons, h.bufferSize_eq, Nat.add_comm]
  -- below the old offset nothing is lost, and behind it the loop passes covered positions
  · rcases Nat.lt_or_ge o r.contiguousOffset with hlt | hge
    · exact (Fragments.coveredAt_perm hperm).mpr (h.frontier.1 o hlt).cons
    · exact coveredAt_of_lt_advance hge ho

/-- Every added fragment keeps the reassembler well formed. -/
theorem receive (h : r.WellFormed) (hf : f.2 ≠ []) : (r.receive f).WellFormed := by
  obtain ⟨-, heq⟩ | ⟨-, -, heq⟩ | ⟨hacc, hapart, heq⟩ := receive_cases hf (r := r)
  · rwa [heq]
  · rwa [heq]
  · rw [heq]
    exact h.store hf hacc hapart

/-- `get_contiguous_data` reads the prefix without gaps. -/
theorem getContiguousData_spec (h : r.WellFormed) :
    (r.getContiguousData.getD []).length = r.contiguousOffset ∧
      ∀ o < r.contiguousOffset,
        (r.getContiguousData.getD [])[o]? = Fragments.read? r.fragments o := by
  obtain ⟨hlen, hread⟩ := reads_collect h.ordered (Nat.zero_le r.contiguousOffset)
    (fun o _ ho => h.frontier.1 o ho) h.frontier.2
  have hgetD : r.getContiguousData.getD [] = collect r.contiguousOffset 0 r.fragments := by
    unfold getContiguousData
    dsimp only
    -- `None` stands for no bytes
    split_ifs with hzero hempty
    · rw [hzero] at hlen ⊢
      exact (List.length_eq_zero_iff.mp hlen).symm
    · exact (List.isEmpty_iff.mp hempty).symm
    · rfl
  rw [hgetD]
  exact ⟨hlen, fun o ho => hread o (Nat.zero_le o) ho⟩

end WellFormed

end Receive

/-! ## The parts of a stream -/

section Stream

variable {parts : List (List UInt8)} {r : CryptoFrameReassembler} {f : ℕ × List UInt8}
  {arrivals : List (ℕ × List UInt8)}

/-- A reassembler that holds parts of a stream and nothing else. -/
structure Holds (parts : List (List UInt8)) (r : CryptoFrameReassembler) : Prop where
  wellFormed : r.WellFormed
  subset : r.fragments ⊆ Fragments.ofParts 0 parts
  room : parts.flatten.length ≤ r.maxBufferSize

namespace Holds

theorem nodup (h : r.WellFormed) : r.fragments.Nodup :=
  h.sorted.imp fun hlt heq => absurd (congrArg Prod.fst heq) hlt.ne

/-- A part is stored, or was stored before; the buffer has room for all parts. -/
theorem receive (h : Holds parts r) (hne : ∀ part ∈ parts, part ≠ [])
    (hf : f ∈ Fragments.ofParts 0 parts) :
    Holds parts (r.receive f) ∧ f ∈ (r.receive f).fragments ∧
      r.fragments ⊆ (r.receive f).fragments := by
  have hfne : f.2 ≠ [] := Fragments.ne_nil_of_mem_ofParts hne hf
  by_cases hmem : f ∈ r.fragments
  · -- a duplicate overlaps itself, so it is dropped
    have hself : ¬ Fragments.Apart f f := by
      have := List.length_pos_of_ne_nil hfne
      unfold Fragments.Apart Fragments.stop
      omega
    rw [receive_of_overlaps hfne ⟨f, hmem, hself⟩]
    exact ⟨h, hmem, List.Subset.refl _⟩
  · -- a new part lies apart from the stored ones, and the stream has room for it
    have hall : (f :: r.fragments) ⊆ Fragments.ofParts 0 parts :=
      List.cons_subset.mpr ⟨hf, h.subset⟩
    have hsize : Fragments.size (f :: r.fragments) ≤ parts.flatten.length := by
      rw [← Fragments.size_ofParts 0]
      exact Fragments.size_le_of_subset (List.nodup_cons.mpr ⟨hmem, nodup h.wellFormed⟩) hall
    have hacc : r.Accepts f := by
      rw [Accepts, h.wellFormed.bufferSize_eq, Nat.add_comm, ← Fragments.size_cons]
      exact hsize.trans h.room
    have hapart : ∀ g ∈ r.fragments, Fragments.Apart f g := by
      intro g hg
      have hfg : f ≠ g := fun heq => hmem (heq ▸ hg)
      exact (Fragments.ordered_ofParts 0 parts).apart.forall hf (h.subset hg) hfg
    have hperm := h.wellFormed.store_fragments hfne hapart
    rw [receive_of_apart hfne hacc hapart]
    refine ⟨⟨h.wellFormed.store hfne hacc hapart, fun g hg => ?_, h.room⟩, ?_, fun g hg => ?_⟩
    · exact hall (hperm.mem_iff.mp hg)
    · exact hperm.mem_iff.mpr List.mem_cons_self
    · exact hperm.mem_iff.mpr (List.mem_cons_of_mem f hg)

/-- Parts arriving one after another are all held. -/
theorem foldl (h : Holds parts r) (hne : ∀ part ∈ parts, part ≠ [])
    (harrivals : arrivals ⊆ Fragments.ofParts 0 parts) :
    Holds parts (arrivals.foldl CryptoFrameReassembler.receive r) ∧
      arrivals ⊆ (arrivals.foldl CryptoFrameReassembler.receive r).fragments ∧
      r.fragments ⊆ (arrivals.foldl CryptoFrameReassembler.receive r).fragments := by
  induction arrivals generalizing r with
  | nil => exact ⟨h, List.nil_subset _, List.Subset.refl _⟩
  | cons f arrivals ih =>
    rw [List.cons_subset] at harrivals
    obtain ⟨hstep, hmem, hkept⟩ := h.receive hne harrivals.1
    obtain ⟨hend, hrest, hkept'⟩ := ih hstep harrivals.2
    exact ⟨hend, List.cons_subset.mpr ⟨hkept' hmem, hrest⟩, fun g hg => hkept' (hkept hg)⟩

/-- A reassembler that holds all parts gives the stream. -/
theorem getContiguousData (h : Holds parts r) (hne : ∀ part ∈ parts, part ≠ [])
    (hstream : parts.flatten ≠ []) (hall : Fragments.ofParts 0 parts ⊆ r.fragments) :
    r.getContiguousData = some parts.flatten := by
  have hnodup : (Fragments.ofParts 0 parts).Nodup := Fragments.nodup_ofParts hne
  -- the stored fragments are the parts, in another order
  have hperm : r.fragments.Perm (Fragments.ofParts 0 parts) :=
    (List.perm_ext_iff_of_nodup (nodup h.wellFormed) hnodup).mpr fun f =>
      ⟨fun hf => h.subset hf, fun hf => hall hf⟩
  have hread : ∀ o, Fragments.read? r.fragments o = parts.flatten[o]? := by
    intro o
    rw [Fragments.read?_perm h.wellFormed.apart hperm, Fragments.read?_ofParts]
    exact if_pos (Nat.zero_le o)
  have hcovered : ∀ o, Fragments.CoveredAt r.fragments o ↔ o < parts.flatten.length := by
    intro o
    rw [← Fragments.read?_isSome_iff, hread, Option.isSome_iff_ne_none, ne_eq,
      List.getElem?_eq_none_iff, Nat.not_le]
  have hend : r.contiguousOffset = parts.flatten.length :=
    h.wellFormed.frontier.unique
      ⟨fun o ho => (hcovered o).mpr ho, fun hc => lt_irrefl _ ((hcovered _).mp hc)⟩
  obtain ⟨hlen, hdata⟩ := h.wellFormed.getContiguousData_spec
  have heq : r.getContiguousData.getD [] = parts.flatten := by
    ext1 o
    rcases Nat.lt_or_ge o r.contiguousOffset with hlt | hge
    · rw [hdata o hlt, hread]
    · rw [List.getElem?_eq_none (hlen.trans_le hge), List.getElem?_eq_none (hend ▸ hge)]
  rcases hsome : r.getContiguousData with _ | d
  · rw [hsome] at heq
    exact absurd heq.symm hstream
  · rw [hsome] at heq
    exact congrArg some heq

end Holds

/-- The parts of a stream, arriving in any order and any number of times, are put together to the
stream, and throughout the arrivals the reassembler's own figures are right.

The stream is not empty and fits the buffer (`hs`, `hlen`). It is cut into parts in any way
(`hparts`), none of them empty (`hne`), and each part arrives once or more often, at its offset
(`harrivals`). -/
theorem getContiguousData_ofParts {s : List UInt8} (hs : s ≠ []) (hlen : s.length ≤ 64 * 1024)
    (hparts : parts.flatten = s) (hne : ∀ part ∈ parts, part ≠ [])
    (harrivals : ∀ f, f ∈ arrivals ↔ f ∈ Fragments.ofParts 0 parts) :
    (arrivals.foldl receive new).getContiguousData = some s ∧
      Run.Always receive
        (fun r =>
          r.fragments.Pairwise Fragments.Apart ∧
            r.currentBufferSize = (r.fragments.map (·.2.length)).sum ∧
            r.currentBufferSize ≤ 64 * 1024 ∧
            Fragments.Frontier r.fragments r.contiguousOffset ∧
            (r.getContiguousData.getD []).length = r.contiguousOffset)
        new arrivals := by
  have hnew : Holds parts new := ⟨WellFormed.new, List.nil_subset _, hparts ▸ hlen⟩
  have hsub : arrivals ⊆ Fragments.ofParts 0 parts := fun f hf => (harrivals f).mp hf
  refine ⟨?_, ?_⟩
  -- all parts are held in the end
  · obtain ⟨hend, hmem, -⟩ := hnew.foldl hne hsub
    rw [← hparts] at hs ⊢
    exact hend.getContiguousData hne hs fun f hf => hmem ((harrivals f).mpr hf)
  -- the figures are right for any fragments, in order or not
  · have hkeep : Run.Always receive (fun r => r.WellFormed ∧ r.maxBufferSize = 64 * 1024)
        new arrivals := by
      refine Run.always_of_along (fun r f h hf => ⟨h.1.receive hf, ?_⟩) ⟨WellFormed.new, rfl⟩
        (Run.along_of_forall_mem fun f hf => Fragments.ne_nil_of_mem_ofParts hne (hsub hf))
      exact receive_maxBufferSize.trans h.2
    refine hkeep.mono fun r h => ⟨h.1.apart, h.1.bufferSize_eq, ?_, h.1.frontier, ?_⟩
    · exact h.2 ▸ h.1.bufferSize_le
    · exact h.1.getContiguousData_spec.1

/-- Three bytes in two parts, the second one first and again at the end. -/
theorem getContiguousData_threeBytes :
    ([(1, [2, 3]), (0, [1]), (1, [2, 3])].foldl receive new).getContiguousData =
      some [1, 2, 3] := by
  have hparts : ([[1], [2, 3]] : List (List UInt8)).flatten = [1, 2, 3] := rfl
  refine (getContiguousData_ofParts ?_ ?_ hparts ?_ fun f => ?_).1
  · decide
  · decide
  · decide
  · simp only [Fragments.ofParts, List.mem_cons, List.not_mem_nil, or_false, List.length_singleton]
    tauto

end Stream

/-! ## What was accepted -/

section Accepted

variable {r : CryptoFrameReassembler} {f : ℕ × List UInt8} {fs : List (ℕ × List UInt8)}

/-- The fragments of a run that `add_fragment` accepted, the earliest first. -/
def accepted (r : CryptoFrameReassembler) : List (ℕ × List UInt8) → List (ℕ × List UInt8)
  | [] => []
  | f :: fs => if r.Accepts f then f :: accepted (r.receive f) fs else accepted (r.receive f) fs

/-- Wherever an accepted fragment has a byte, the stored ones have the byte of the earliest. -/
def KeepsAccepted (fs : List (ℕ × List UInt8)) : Prop :=
  ∀ o, Fragments.CoveredAt (accepted new fs) o →
    Fragments.read? (fs.foldl receive new).fragments o = Fragments.read? (accepted new fs) o

/-- A fragment the buffer has room for lies apart from every stored one or within them. -/
def FitsStored (r : CryptoFrameReassembler) (f : ℕ × List UInt8) : Prop :=
  r.Accepts f →
    (∀ g ∈ r.fragments, Fragments.Apart f g) ∨
      ∀ o, Fragments.Covers f o → Fragments.CoveredAt r.fragments o

theorem accepted_append (r : CryptoFrameReassembler) (fs gs : List (ℕ × List UInt8)) :
    accepted r (fs ++ gs) = accepted r fs ++ accepted (fs.foldl receive r) gs := by
  induction fs generalizing r with
  | nil => rfl
  | cons f fs ih =>
    rw [List.cons_append, accepted, accepted, ih, List.foldl_cons]
    split_ifs <;> rfl

/-- A fragment that lies apart is read where it has bytes, and the stored ones elsewhere. -/
theorem WellFormed.read?_store (h : r.WellFormed) (hf : f.2 ≠ [])
    (hapart : ∀ g ∈ r.fragments, Fragments.Apart f g) (o : ℕ) :
    Fragments.read? (r.store f).fragments o =
      (Fragments.read? r.fragments o).or (Fragments.readOne? f o) := by
  have hcons : (f :: r.fragments).Pairwise Fragments.Apart :=
    List.pairwise_cons.mpr ⟨hapart, h.apart⟩
  have hperm : (f :: r.fragments).Perm (r.fragments ++ [f]) := (List.perm_append_singleton _ _).symm
  rw [← Fragments.read?_perm hcons (h.store_fragments hf hapart).symm,
    Fragments.read?_perm hcons hperm, Fragments.read?_append, Fragments.read?_cons,
    Fragments.read?_nil, Option.or_none]

/-- One fragment that lies apart from the stored ones or within them. -/
theorem WellFormed.read?_receive (h : r.WellFormed) (hf : f.2 ≠ []) (hfits : r.FitsStored f)
    (o : ℕ) :
    Fragments.read? (r.receive f).fragments o =
      (Fragments.read? r.fragments o).or (Fragments.read? (accepted r [f]) o) := by
  -- refused, dropped as an overlap, or stored
  obtain ⟨hacc, heq⟩ | ⟨hacc, ⟨g, hg, hnot⟩, heq⟩ | ⟨hacc, hapart, heq⟩ :=
    receive_cases hf (r := r)
  · rw [heq, accepted, if_neg hacc, accepted, Fragments.read?_nil, Option.or_none]
  · have hwithin : ∀ o, Fragments.Covers f o → Fragments.CoveredAt r.fragments o :=
      (hfits hacc).resolve_left fun hapart => hnot (hapart g hg)
    rw [heq, accepted, if_pos hacc, accepted, Fragments.read?_cons, Fragments.read?_nil,
      Option.or_none]
    -- a dropped fragment had nothing that was not stored already
    by_cases hcovers : Fragments.Covers f o
    · obtain ⟨a, ha⟩ := Option.isSome_iff_exists.mp
        (Fragments.read?_isSome_iff.mpr (hwithin o hcovers))
      rw [ha, Option.some_or]
    · rw [Fragments.readOne?_eq_none hcovers, Option.or_none]
  · rw [heq, accepted, if_pos hacc, accepted, Fragments.read?_cons, Fragments.read?_nil,
      Option.or_none]
    exact h.read?_store hf hapart o

/-- While every fragment lies apart from the stored ones or within them, the stored ones read as
what was accepted. -/
theorem WellFormed.read?_foldl (h : r.WellFormed) (hne : ∀ f ∈ fs, f.2 ≠ [])
    (hfits : Run.Along CryptoFrameReassembler.receive FitsStored r fs) (o : ℕ) :
    Fragments.read? (fs.foldl CryptoFrameReassembler.receive r).fragments o =
      (Fragments.read? r.fragments o).or (Fragments.read? (accepted r fs) o) := by
  induction fs generalizing r with
  | nil => exact (Option.or_none).symm
  | cons f fs ih =>
    rw [List.forall_mem_cons] at hne
    have hsplit : accepted r (f :: fs) = accepted r [f] ++ accepted (r.receive f) fs :=
      accepted_append r [f] fs
    rw [List.foldl_cons, ih (h.receive hne.1) hne.2 hfits.2, h.read?_receive hne.1 hfits.1,
      hsplit, Fragments.read?_append, Option.or_assoc]

/-- Non-empty fragments (`hne`) stay readable, each byte as first accepted, throughout a run exactly
if every fragment the buffer has room for lies apart from the stored ones or within them. The
fragments have any offsets and any bytes. A fragment that overlaps others only in part is inserted
as it is, over what was there. -/
theorem keepsAccepted_iff_fitsStored (hne : ∀ f ∈ fs, f.2 ≠ []) :
    (∀ l₁ l₂, fs = l₁ ++ l₂ → KeepsAccepted l₁) ↔ Run.Along receive FitsStored new fs := by
  constructor
  · intro hkeeps
    refine Run.along_iff_forall_split.mpr fun l₁ f l₂ hfs hroom => ?_
    have hcut : KeepsAccepted (l₁ ++ [f]) := hkeeps _ l₂ (by rw [hfs, List.append_assoc]; rfl)
    have hf : f.2 ≠ [] := hne f (hfs ▸ List.mem_append_right l₁ List.mem_cons_self)
    by_cases hapart : ∀ g ∈ (l₁.foldl receive new).fragments, Fragments.Apart f g
    · exact .inl hapart
    -- `f` was accepted without being stored, so all its bytes are stored already
    refine .inr fun o ho => ?_
    push Not at hapart
    have haccepted : Fragments.CoveredAt (accepted new (l₁ ++ [f])) o := by
      rw [accepted_append, accepted, if_pos hroom]
      exact ⟨f, List.mem_append_right _ List.mem_cons_self, ho⟩
    have hread := hcut o haccepted
    rw [List.foldl_append, List.foldl_cons, List.foldl_nil, receive_of_overlaps hf hapart] at hread
    rw [← Fragments.read?_isSome_iff, hread, Fragments.read?_isSome_iff]
    exact haccepted
  · rintro hfits l₁ l₂ rfl o -
    have hread := WellFormed.new.read?_foldl
      (fun f hf => hne f (List.mem_append_left l₂ hf)) (Run.along_append.mp hfits).1 o
    rwa [new, Fragments.read?_nil, Option.none_or] at hread

/-- Four bytes, the middle two of them again in one fragment. -/
theorem keepsAccepted_fourBytes :
    KeepsAccepted [(0, [1, 2]), (2, [3, 4]), (1, [2, 3])] := by
  refine (keepsAccepted_iff_fitsStored ?_).mpr ?_ _ [] (List.append_nil _).symm
  · decide
  · refine ⟨fun _ => .inl (by decide), fun _ => .inl (by decide), fun _ => .inr fun o ho => ?_,
      trivial⟩
    obtain ⟨hle, hlt⟩ : 1 ≤ o ∧ o < 3 := ho
    obtain rfl | rfl : o = 1 ∨ o = 2 := by omega
    · exact ⟨(0, [1, 2]), by decide, by decide⟩
    · exact ⟨(2, [3, 4]), by decide, by decide⟩

/-- A retransmitted fragment that also carries a new byte is accepted and lost. -/
theorem not_keepsAccepted_overlap :
    (∀ f ∈ [(0, [1, 2]), (1, [2, 3])], f.2 ≠ ([] : List UInt8)) ∧
      (∀ o, Fragments.CoveredAt [(0, [1, 2]), (1, ([2, 3] : List UInt8))] o → o < 64 * 1024) ∧
      ¬ KeepsAccepted [(0, [1, 2]), (1, [2, 3])] := by
  refine ⟨by decide, fun o ho => ?_, fun hkeeps => ?_⟩
  · simp only [Fragments.CoveredAt, Fragments.Covers, Fragments.stop, List.mem_cons,
      List.not_mem_nil, or_false, exists_eq_or_imp, exists_eq_left, List.length_cons,
      List.length_nil] at ho
    omega
  · have hread := hkeeps 2 ⟨(1, [2, 3]), by decide, by decide⟩
    exact absurd hread (by decide)

end Accepted

end CryptoFrameReassembler

end RustNet
