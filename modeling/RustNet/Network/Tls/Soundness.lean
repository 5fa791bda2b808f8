import RustNet.Network.Tls.ClientHello
import RustNet.Network.Tls.Extraction

/-!
# Server names of a message

What the extraction returns for the fragments of one ClientHello, with some of them missing: the
front part of the message is read without mistakes, while a scan can hit something else.

## Main definitions

* `Tls.Collects`: a reassembler to which parts of a stream were added, and nothing else;
* `Tls.ReturnsRealName`: what the extraction returns is the server name of the message;
* `Tls.Misled`: a strategy takes another name from somewhere else.

## Main results

* `Tls.returnsRealName_iff`: the server name of the message is returned exactly unless a strategy is
  misled.
-/

namespace RustNet

namespace Tls

open Checked

/-! ## Parts of a message -/

/-- A reassembler to which parts of a stream were added, and nothing else. -/
structure Collects (parts : List (List UInt8)) (r : CryptoFrameReassembler) : Prop where
  sound : Sound r
  notCached : r.getCachedTlsInfo = none
  subset : r.fragments ⊆ Fragments.ofParts 0 parts

section Collects

variable {parts : List (List UInt8)} {r : CryptoFrameReassembler} {f : ℕ × List UInt8}
  {arrivals : List (ℕ × List UInt8)} {hello : ClientHello} {data : List UInt8}

namespace Collects

theorem new : Collects parts .new where
  sound := .new
  notCached := rfl
  subset := List.nil_subset _

theorem receive (h : Collects parts r) (hne : ∀ part ∈ parts, part ≠ [])
    (hlen : parts.flatten.length < 2 ^ 62) (hf : f ∈ Fragments.ofParts 0 parts) :
    Collects parts (r.receive f) := by
  have hfne := Fragments.ne_nil_of_mem_ofParts hne hf
  have hpart := congrArg List.length (Fragments.eq_take_of_mem_ofParts hf)
  have hpos := List.length_pos_of_ne_nil hfne
  rw [List.length_take, List.length_drop] at hpart
  have hsound := h.sound.receive (f := f) (by omega) hfne
  -- refused, dropped as an overlap, or stored
  obtain ⟨-, heq⟩ | ⟨-, -, heq⟩ | ⟨-, hapart, heq⟩ :=
    CryptoFrameReassembler.receive_cases hfne (r := r)
  · rwa [heq]
  · rwa [heq]
  · rw [heq] at hsound ⊢
    refine ⟨hsound, h.notCached, fun g hg => ?_⟩
    rcases List.mem_cons.mp ((h.sound.wellFormed.store_fragments hfne hapart).mem_iff.mp hg)
      with rfl | hg
    · exact hf
    · exact h.subset hg

/-- Some of the parts, in any order and any number of times. -/
theorem foldl (h : Collects parts r) (hne : ∀ part ∈ parts, part ≠ [])
    (hlen : parts.flatten.length < 2 ^ 62) (harrivals : arrivals ⊆ Fragments.ofParts 0 parts) :
    Collects parts (arrivals.foldl CryptoFrameReassembler.receive r) := by
  induction arrivals generalizing r with
  | nil => exact h
  | cons f arrivals ih =>
    rw [List.cons_subset] at harrivals
    exact ih (h.receive hne hlen harrivals.1) harrivals.2

/-- A fragment is a part of the stream. -/
theorem fragment_eq (h : Collects parts r) (hf : f ∈ r.fragments) :
    ∃ k, f.2 = (parts.flatten.drop f.1).take k :=
  ⟨_, Fragments.eq_take_of_mem_ofParts (h.subset hf)⟩

/-- The contiguous data is the front part of the stream. -/
theorem contiguous_eq (h : Collects parts r) (hdata : r.getContiguousData = some data) :
    data = parts.flatten.take data.length := by
  obtain ⟨hlen, hread⟩ := h.sound.wellFormed.getContiguousData_spec
  rw [hdata, Option.getD_some] at hlen hread
  -- byte by byte: each is in a fragment, and the fragments are pieces of the stream
  ext1 o
  rcases Nat.lt_or_ge o data.length with hlt | hge
  · obtain ⟨f, hf, hcovers⟩ := h.sound.wellFormed.frontier.1 o (hlen ▸ hlt)
    obtain ⟨k, hk⟩ := h.fragment_eq hf
    have hin : o - f.1 < k := by
      have hk' := List.length_take_le k (parts.flatten.drop f.1)
      obtain ⟨hstart, hstop⟩ := hcovers
      rw [← hk] at hk'
      rw [Fragments.stop] at hstop
      omega
    rw [hread o (hlen ▸ hlt), Fragments.read?_of_mem h.sound.wellFormed.apart hf hcovers,
      Fragments.readOne?, if_pos hcovers.1, hk, List.getElem?_take_of_lt hin, List.getElem?_drop,
      Nat.add_sub_cancel' hcovers.1, List.getElem?_take_of_lt hlt]
  · rw [List.getElem?_eq_none hge, List.getElem?_eq_none]
    exact (List.length_take_le _ _).trans hge

/-- A reassembler that has all parts gives the stream. -/
theorem getContiguousData (h : Collects parts r) (hne : ∀ part ∈ parts, part ≠ [])
    (hstream : parts.flatten ≠ []) (hall : Fragments.ofParts 0 parts ⊆ r.fragments) :
    r.getContiguousData = some parts.flatten := by
  have hsize : parts.flatten.length ≤ r.maxBufferSize := by
    rw [← Fragments.size_ofParts 0]
    calc Fragments.size (Fragments.ofParts 0 parts)
        ≤ Fragments.size r.fragments :=
          Fragments.size_le_of_subset (Fragments.nodup_ofParts hne) hall
      _ = r.currentBufferSize := h.sound.wellFormed.bufferSize_eq.symm
      _ ≤ r.maxBufferSize := h.sound.wellFormed.bufferSize_le
  have hholds : CryptoFrameReassembler.Holds parts r := ⟨h.sound.wellFormed, h.subset, hsize⟩
  exact hholds.getContiguousData hne hstream hall

end Collects

end Collects

/-! ## The front part of a message -/

section Front

variable {parts : List (List UInt8)} {r : CryptoFrameReassembler} {f : ℕ × List UInt8}
  {hello : ClientHello} {allowPartial : Bool} {k i : ℕ} {name : String}

/-- A record whose name is that of the message, if it has one without a mark. -/
def RealName (hello : ClientHello) (info? : Option TlsInfo) : Prop :=
  ∀ info, info? = some info → info.Names (IsRealName hello.sni)

/-- From the contiguous data no other name is read, and from the whole message its name. -/
theorem tryExtractFromContiguous_real (h : Collects parts r) (hparts : parts.flatten = hello.encode)
    (hne : ∀ part ∈ parts, part ≠ []) (allowPartial : Bool) :
    Ensures (tryExtractFromContiguous r allowPartial) fun info? =>
      RealName hello info? ∧ (Fragments.ofParts 0 parts ⊆ r.fragments →
        100 ≤ hello.encode.length → ∃ info, info? = some info ∧ info.sni = some hello.sni) := by
  have hencode := hello.length_encode
  have hwhole : Fragments.ofParts 0 parts ⊆ r.fragments →
      r.getContiguousData = some hello.encode := fun hall => by
    rw [← hparts]
    exact h.getContiguousData hne (hparts ▸ List.cons_ne_nil _ _) hall
  rw [tryExtractFromContiguous, h.sound.readContiguousData_eq, pure_bind']
  rcases hdata : r.getContiguousData with _ | data
  · exact ensures_pure ⟨(fun _ heq => nomatch heq), fun hall => nomatch hdata.symm.trans (hwhole hall)⟩
  have hfront := h.contiguous_eq hdata
  have hsize := h.sound.length_contiguous_le hdata
  have heq : Fragments.ofParts 0 parts ⊆ r.fragments → data = hello.encode := fun hall =>
    Option.some.inj (hdata.symm.trans (hwhole hall))
  rw [hparts] at hfront
  refine Ensures.ite (fun hshort => ?_) fun _ => ?_
  -- a message of a hundred bytes is not too short
  · refine ensures_pure ⟨(fun _ heq => nomatch heq), fun hall hlong => ?_⟩
    rw [heq hall] at hshort
    split_ifs at hshort <;> omega
  · rw [hfront]
    refine (hello.parsePartialTlsHandshake_take data.length allowPartial).bind fun info? hinfo =>
      ensures_pure ⟨fun info hsome => hinfo.1 info (Option.filter_eq_some_iff.mp hsome).1,
        fun hall _ => ?_⟩
    rw [heq hall] at hinfo hsize
    obtain ⟨info, rfl, hsni⟩ := hinfo.2 le_rfl (by omega)
    refine ⟨info, ?_, hsni⟩
    rw [Option.filter_some, isEssential, hsni]
    rfl

/-- The first fragment starts with the message, so no other name is read from it. -/
theorem tryExtractFromFragment_real (hf : f.2 = hello.encode.take k) :
    Ensures (tryExtractFromFragment allowPartial f) (RealName hello) := by
  have hstart : f.2 = [] ∨ ∃ rest, f.2 = 0x01 :: rest := by
    rcases k with _ | k
    · exact .inl hf
    · exact .inr ⟨_, hf⟩
  have hhello : Ensures (helloInFragment f.2 allowPartial) (RealName hello) := by
    refine Ensures.ite (fun _ => ensures_none) fun hshort => ?_
    refine (ensures_index (by omega)).bind fun first _ => ?_
    refine Ensures.ite (fun _ => ensures_none) fun _ => ?_
    rw [hf]
    refine (hello.parsePartialTlsHandshake_take k allowPartial).bind fun info? hinfo => ?_
    exact ensures_pure fun info hsome => hinfo.1 info (Option.filter_eq_some_iff.mp hsome).1
  refine hhello.bindOption (fun info hinfo => ensures_some hinfo) ?_
  -- a hello message is no record
  refine Ensures.ite (fun _ => ensures_none) fun hshort => ?_
  obtain hnil | ⟨rest, hcons⟩ := hstart
  · exact absurd hshort (by rw [hnil]; decide)
  · rw [hcons]
    exact ensures_none

end Front

/-! ## Other places -/

/-- A strategy takes a name from somewhere else than the `server_name` extension of the message:
from a fragment in its middle that looks like a message of its own, from another place that looks
like such an extension, or from the longest host name in the fragments put together, where a name
that is cut off looks like any other. The strategies before it find nothing. -/
inductive Misled (hello : ClientHello) (r : CryptoFrameReassembler) (allowPartial : Bool) : Prop
  | fragment {f : ℕ × List UInt8} {info : TlsInfo} {name : String}
      (hcontiguous : tryExtractFromContiguous r allowPartial = pure none)
      (hfinds : FindsAt r.fragments (tryExtractFromFragment allowPartial) f info)
      (hoffset : 0 < f.1) (hname : info.sni = some name) (hother : ¬ IsRealName hello.sni name)
  | pattern {f : ℕ × List UInt8} {i : ℕ} {name : String}
      (hcontiguous : tryExtractFromContiguous r allowPartial = pure none)
      (hfragments : tryExtractFromFragments r allowPartial = pure none)
      (hsize : 100 ≤ Fragments.size r.fragments)
      (hfinds : FindsAt r.fragments patternInFragment f name)
      (hposition : FindsAt (List.range (f.2.length - 10)) (fragmentPatternAt f.2) i name)
      (hoffset : f.1 + i ≠ hello.sniOffset) (hother : ¬ IsRealName hello.sni name)
  | candidate {name : String}
      (hcontiguous : tryExtractFromContiguous r allowPartial = pure none)
      (hfragments : tryExtractFromFragments r allowPartial = pure none)
      (hsize : 100 ≤ Fragments.size r.fragments)
      (hpattern : patternInFragments r.fragments = pure none)
      (hlongest : LongestInFragments r.fragments name) (hother : name ≠ hello.sni)
  | greedyFragment {f : ℕ × List UInt8} {i : ℕ} {name : String}
      (hcontiguous : tryExtractFromContiguous r allowPartial = pure none)
      (hfragments : tryExtractFromFragments r allowPartial = pure none)
      (hreconstruct : tryReconstruct r = pure none)
      (hfinds : FindsAt r.fragments (fun fragment => tryExtractSniGreedy fragment.2 true) f name)
      (hposition : FindsAt (List.range (f.2.length - 9)) (greedyAt f.2 true) i name)
      (hoffset : f.1 + i ≠ hello.sniOffset) (hother : ¬ IsRealName hello.sni name)
  | greedyContiguous {data : List UInt8} {i : ℕ} {name : String}
      (hcontiguous : tryExtractFromContiguous r allowPartial = pure none)
      (hfragments : tryExtractFromFragments r allowPartial = pure none)
      (hreconstruct : tryReconstruct r = pure none)
      (hgreedy : r.fragments.findSomeM? (fun fragment => tryExtractSniGreedy fragment.2 true) =
        pure none)
      (hdata : r.getContiguousData = some data)
      (hposition : FindsAt (List.range (data.length - 9)) (greedyAt data true) i name)
      (hoffset : i ≠ hello.sniOffset) (hother : ¬ IsRealName hello.sni name)

section Misled

variable {parts : List (List UInt8)} {r : CryptoFrameReassembler} {hello : ClientHello}
  {allowPartial : Bool} {info : TlsInfo} {name : String}

/-- A position where a scan finds another name is not that of the `server_name` extension, if the
scan reads no other name there. -/
theorem offset_ne_of_findsAt (scan : List UInt8 → ℕ → Checked (Option String)) {n : ℕ}
    (hreal : ∀ {data : List UInt8} {i k : ℕ},
      At data i (hello.sniExtension.encode ++ encodeExtensions hello.after) →
      data.length < 2 ^ 63 → i < (data.take k).length - n →
      Ensures (scan (data.take k) i) fun name? =>
        ∀ name, name? = some name → IsRealName hello.sni name)
    {data : List UInt8} {start i k : ℕ} (hdata : data = (hello.encode.drop start).take k)
    (hfinds : FindsAt (List.range (data.length - n)) (scan data) i name)
    (hother : ¬ IsRealName hello.sni name) : start + i ≠ hello.sniOffset := by
  intro heq
  subst hdata
  -- in the data the extension stands at `i`
  have hat := hello.at_sniOffset
  rw [← heq] at hat
  have hlen : (hello.encode.drop start).length < 2 ^ 63 := by
    have hbody := hello.length_body_lt
    rw [List.length_drop, hello.length_encode]
    omega
  exact hother ((hreal hat.drop hlen (List.mem_range.mp hfinds.mem)).of_eq_pure hfinds.found _ rfl)

theorem tryReconstruct_eq_some_iff (h : Sound r) :
    tryReconstruct r = pure (some name) ↔
      100 ≤ Fragments.size r.fragments ∧
        ((∃ f, FindsAt r.fragments patternInFragment f name) ∨
          (patternInFragments r.fragments = pure none ∧ LongestInFragments r.fragments name)) := by
  rw [h.tryReconstruct_eq]
  split_ifs with hsize
  · rw [tryReconstructSniFromFragments_eq_some_iff, patternInFragments, findSomeM_eq_some_iff,
      and_iff_right hsize]
  · refine iff_of_false (fun heq => ?_) fun hfound => hsize hfound.1
    cases pure_inj.mp heq

theorem tryExtractGreedyFromReassembler_eq_some_iff (h : Sound r) :
    tryExtractGreedyFromReassembler r = pure (some (.ofSni name)) ↔
      (∃ f, FindsAt r.fragments (fun fragment => tryExtractSniGreedy fragment.2 true) f name) ∨
        (r.fragments.findSomeM? (fun fragment => tryExtractSniGreedy fragment.2 true) = pure none ∧
          ∃ data, r.getContiguousData = some data ∧
            tryExtractSniGreedy data true = pure (some name)) := by
  -- what the search in the contiguous data finds
  have hcontiguous : greedyInContiguous r = pure (some name) ↔
      ∃ data, r.getContiguousData = some data ∧
        tryExtractSniGreedy data true = pure (some name) := by
    rw [greedyInContiguous, h.readContiguousData_eq, pure_bind']
    rcases r.getContiguousData with _ | data
    · refine iff_of_false (fun heq => ?_) ?_
      · cases pure_inj.mp heq
      · rintro ⟨data, hdata, -⟩
        cases hdata
    · refine ⟨fun heq => ⟨data, rfl, heq⟩, ?_⟩
      rintro ⟨data', hdata, heq⟩
      rwa [Option.some.inj hdata]
  -- the fragments come first, one after another
  rw [tryExtractGreedyFromReassembler, bind_eq_pure_iff, ← findSomeM_eq_some_iff, ← hcontiguous]
  constructor
  · rintro ⟨_ | sni, hfragments, heq⟩
    · obtain ⟨sni?, hgreedy, heq⟩ := bind_eq_pure_iff.mp heq
      obtain ⟨sni, rfl, hsni⟩ := Option.map_eq_some_iff.mp (pure_inj.mp heq)
      obtain rfl := TlsInfo.ofSni_inj.mp hsni
      exact .inr ⟨hfragments, hgreedy⟩
    · obtain rfl := TlsInfo.ofSni_inj.mp (Option.some.inj (pure_inj.mp heq))
      exact .inl hfragments
  · rintro (hfragments | ⟨hfragments, hgreedy⟩)
    · exact ⟨some name, hfragments, rfl⟩
    · refine ⟨none, hfragments, ?_⟩
      dsimp only
      rw [hgreedy]
      rfl

/-- By what the strategies come to: one of them, the first that finds anything, finds another
name. -/
theorem misled_iff (h : Collects parts r) (hparts : parts.flatten = hello.encode) :
    Misled hello r allowPartial ↔
      tryExtractFromContiguous r allowPartial = pure none ∧
        ((∃ info, tryExtractFromFragments r allowPartial = pure (some info) ∧
            ¬ info.Names (IsRealName hello.sni)) ∨
          (tryExtractFromFragments r allowPartial = pure none ∧
            ∃ name, ¬ IsRealName hello.sni name ∧
              (tryReconstruct r = pure (some name) ∨
                (tryReconstruct r = pure none ∧
                  tryExtractGreedyFromReassembler r = pure (some (.ofSni name)))))) := by
  have hfragment : ∀ f ∈ r.fragments, ∃ k, f.2 = (hello.encode.drop f.1).take k :=
    fun f hf => hparts ▸ h.fragment_eq hf
  rw [tryExtractFromFragments]
  simp only [tryReconstruct_eq_some_iff h.sound, tryExtractGreedyFromReassembler_eq_some_iff h.sound,
    findSomeM_eq_some_iff, tryExtractSniGreedy_eq_some_iff]
  constructor
  -- each way of being misled is one of the disjuncts
  · intro hmisled
    cases hmisled with
    | fragment hcontiguous hfinds hoffset hname hother =>
      exact ⟨hcontiguous, .inl ⟨_, ⟨_, hfinds⟩, fun hnames => hother (hnames _ hname)⟩⟩
    | pattern hcontiguous hfragments hsize hfinds hposition hoffset hother =>
      exact ⟨hcontiguous, .inr ⟨hfragments, _, hother, .inl ⟨hsize, .inl ⟨_, hfinds⟩⟩⟩⟩
    | candidate hcontiguous hfragments hsize hpattern hlongest hother =>
      exact ⟨hcontiguous, .inr ⟨hfragments, _,
        fun hreal => hother (hreal (not_isPartialSni_of_valid hlongest.valid)),
        .inl ⟨hsize, .inr ⟨hpattern, hlongest⟩⟩⟩⟩
    | greedyFragment hcontiguous hfragments hreconstruct hfinds hposition hoffset hother =>
      exact ⟨hcontiguous, .inr ⟨hfragments, _, hother, .inr ⟨hreconstruct, .inl ⟨_, hfinds⟩⟩⟩⟩
    | greedyContiguous hcontiguous hfragments hreconstruct hgreedy hdata hposition hoffset hother =>
      exact ⟨hcontiguous, .inr ⟨hfragments, _, hother,
        .inr ⟨hreconstruct, .inr ⟨hgreedy, _, hdata, _, hposition⟩⟩⟩⟩
  -- and back, where the offset of a name that is not the real one has to differ from the real one's
  · rintro ⟨hcontiguous, ⟨info, ⟨f, hfinds⟩, hnames⟩ | ⟨hfragments, name, hother,
      ⟨hsize, ⟨f, hfinds⟩ | ⟨hpattern, hlongest⟩⟩ |
      ⟨hreconstruct, ⟨f, hfinds⟩ | ⟨hgreedy, data, hdata, i, hposition⟩⟩⟩⟩
    · obtain ⟨k, hk⟩ := hfragment f hfinds.mem
      simp only [TlsInfo.Names, not_forall] at hnames
      obtain ⟨name, hname, hother⟩ := hnames
      -- a fragment at offset zero is a prefix of the message, and parses to its name
      refine .fragment hcontiguous hfinds (Nat.pos_of_ne_zero fun hzero => ?_) hname hother
      rw [hzero, List.drop_zero] at hk
      exact hother ((tryExtractFromFragment_real hk).of_eq_pure hfinds.found info rfl name hname)
    · obtain ⟨k, hk⟩ := hfragment f hfinds.mem
      obtain ⟨-, i, hposition⟩ := patternInFragment_eq_some_iff.mp hfinds.found
      exact .pattern hcontiguous hfragments hsize hfinds hposition
        (offset_ne_of_findsAt fragmentPatternAt fragmentPatternAt_real hk hposition hother) hother
    · refine .candidate hcontiguous hfragments hsize hpattern hlongest fun heq => hother ?_
      exact fun _ => heq
    · obtain ⟨k, hk⟩ := hfragment f hfinds.mem
      obtain ⟨i, hposition⟩ := tryExtractSniGreedy_eq_some_iff.mp hfinds.found
      exact .greedyFragment hcontiguous hfragments hreconstruct hfinds hposition
        (offset_ne_of_findsAt (greedyAt · true) greedyAt_real hk hposition hother) hother
    · have hk : data = (hello.encode.drop 0).take data.length := hparts ▸ h.contiguous_eq hdata
      refine .greedyContiguous hcontiguous hfragments hreconstruct hgreedy hdata hposition ?_ hother
      have hoffset := offset_ne_of_findsAt (greedyAt · true) greedyAt_real hk hposition hother
      rwa [Nat.zero_add] at hoffset

theorem realName_ofSni_iff {sni : String} :
    RealName hello (some (.ofSni sni)) ↔ IsRealName hello.sni sni := by
  constructor
  · intro hreal
    exact hreal _ rfl sni rfl
  · intro hreal info heq
    exact Option.some.inj heq ▸ names_ofSni hreal

/-- The name of the message is returned exactly unless one of the strategies is misled. -/
theorem realName_iff_not_misled (h : Collects parts r) (hparts : parts.flatten = hello.encode)
    (hne : ∀ part ∈ parts, part ≠ []) {result : Option TlsInfo × CryptoFrameReassembler}
    (hout : Outcome r allowPartial result) :
    RealName hello result.1 ↔ ¬ Misled hello r allowPartial := by
  rw [misled_iff h hparts]
  -- only the strategies behind the contiguous one can be misled
  cases hout with
  | cached hcached hcomplete => exact nomatch h.notCached.symm.trans hcached
  | contiguous hcached hcontiguous =>
    have hreal := ((tryExtractFromContiguous_real h hparts hne allowPartial).of_eq_pure hcontiguous).1
    refine iff_of_true hreal fun hmisled => ?_
    exact nomatch pure_inj.mp (hcontiguous.symm.trans hmisled.1)
  | fragment hcached hcontiguous hfragment =>
    simp [hcontiguous, hfragment, RealName, pure_inj]
  | reconstructed hcached hcontiguous hfragment hreconstruct =>
    simp [hcontiguous, hfragment, hreconstruct, realName_ofSni_iff, pure_inj]
  | greedy hcached hcontiguous hfragment hreconstruct hgreedy =>
    obtain ⟨sni, rfl⟩ := greedy_eq_ofSni hgreedy
    simp [hcontiguous, hfragment, hreconstruct, hgreedy, realName_ofSni_iff, pure_inj]
  | nothing hcached hcontiguous hfragment hreconstruct hgreedy =>
    simp [hcontiguous, hfragment, hreconstruct, hgreedy, RealName, pure_inj]

end Misled

/-! ## The name of the message -/

/-- No name without a mark is returned but that of the message, and this one is returned when all
fragments of a message of at least 100 bytes are there. -/
structure ReturnsRealName (hello : ClientHello) (parts : List (List UInt8))
    (r : CryptoFrameReassembler) (result : Option TlsInfo × CryptoFrameReassembler) : Prop where
  real : RealName hello result.1
  found : Fragments.ofParts 0 parts ⊆ r.fragments → 100 ≤ hello.encode.length →
    ∃ info, result.1 = some info ∧ info.sni = some hello.sni

section RealName

variable {parts : List (List UInt8)} {arrivals : List (ℕ × List UInt8)}

/-- However a message is split into fragments (`hparts`, `hne`), whichever of them arrive and in
whatever order (`harrivals`): its name is returned exactly unless one of the strategies is misled.
Fragments may arrive again and again. What the front part of the message says is always right; the
strategies that can be misled look at single fragments, or at bytes in the middle. -/
theorem returnsRealName_iff (hello : ClientHello) (hparts : parts.flatten = hello.encode)
    (hne : ∀ part ∈ parts, part ≠ []) (harrivals : arrivals ⊆ Fragments.ofParts 0 parts)
    (allowPartial : Bool) :
    Ensures (tryExtractTlsFromReassembler
        (arrivals.foldl CryptoFrameReassembler.receive .new) allowPartial) fun result =>
      ReturnsRealName hello parts (arrivals.foldl CryptoFrameReassembler.receive .new) result ↔
        ¬ Misled hello (arrivals.foldl CryptoFrameReassembler.receive .new) allowPartial := by
  have hlen : parts.flatten.length < 2 ^ 62 := by
    have hbody := hello.length_body_lt
    rw [hparts, hello.length_encode]
    omega
  have h : Collects parts _ := Collects.new.foldl hne hlen harrivals
  generalize arrivals.foldl CryptoFrameReassembler.receive .new = r at h ⊢
  refine (tryExtractTlsFromReassembler_outcome h.sound allowPartial).mono fun result hout => ?_
  rw [← realName_iff_not_misled h hparts hne hout]
  refine ⟨ReturnsRealName.real, fun hreal => ⟨hreal, fun hall hlong => ?_⟩⟩
  -- the whole message is read by the first strategy
  obtain ⟨info?, hwhole, -, hfound⟩ := tryExtractFromContiguous_real h hparts hne allowPartial
  obtain ⟨info, rfl, hsni⟩ := hfound hall hlong
  have hnone : tryExtractFromContiguous r allowPartial ≠ pure none := fun hcontiguous =>
    nomatch pure_inj.mp (hwhole.symm.trans hcontiguous)
  cases hout with
  | cached hcached hcomplete => exact nomatch h.notCached.symm.trans hcached
  | contiguous hcached hcontiguous =>
    exact ⟨info, pure_inj.mp (hcontiguous.symm.trans hwhole), hsni⟩
  | fragment _ hcontiguous => exact absurd hcontiguous hnone
  | reconstructed _ hcontiguous => exact absurd hcontiguous hnone
  | greedy _ hcontiguous => exact absurd hcontiguous hnone
  | nothing _ hcontiguous => exact absurd hcontiguous hnone

/-- A message whose `server_name` extension follows a `key_share` of 42 bytes. -/
def exampleHello : ClientHello where
  version := #v[0x03, 0x03]
  random := Vector.replicate 32 0x80
  sessionId := []
  cipherSuites := [0x13, 0x01]
  compressionMethods := [0x00]
  before := [{
    type := 0x0033
    content := [0x00, 0x24, 0x00, 0x1d, 0x00, 0x20] ++ List.replicate 32 0x80
    type_lt := by decide
    length_lt := by decide }]
  sni := "www.example.community"
  otherNames := []
  after := []
  sessionId_length_lt := by decide
  cipherSuites_length_lt := by decide
  compressionMethods_length_lt := by decide
  before_type_ne := by decide
  after_type_ne := by decide
  valid := by decide +kernel
  names_length_lt := by decide +kernel
  extensions_length_lt := by decide +kernel

/-- The message in three fragments, cut in the extension's header and in its name. -/
def exampleParts : List (List UInt8) :=
  [exampleHello.encode.take 91, (exampleHello.encode.drop 91).take 22, exampleHello.encode.drop 113]

/-- All three fragments give the name. -/
theorem returnsRealName_iff_example :
    Ensures (tryExtractTlsFromReassembler
        ((Fragments.ofParts 0 exampleParts).foldl CryptoFrameReassembler.receive .new) false)
      fun result =>
        ReturnsRealName exampleHello exampleParts
            ((Fragments.ofParts 0 exampleParts).foldl CryptoFrameReassembler.receive .new) result ↔
          ¬ Misled exampleHello
            ((Fragments.ofParts 0 exampleParts).foldl CryptoFrameReassembler.receive .new) false :=
  returnsRealName_iff exampleHello (by decide +kernel) (by decide +kernel) (List.Subset.refl _) false

/-- The state while the last fragment is missing. -/
def exampleReassembler : CryptoFrameReassembler :=
  ((Fragments.ofParts 0 exampleParts).take 2).foldl CryptoFrameReassembler.receive .new

/-- While the last fragment is missing, the name is returned without a mark as far as it has arrived,
although only complete names are asked for. -/
theorem exampleHello_not_returnsRealName :
    exampleParts.flatten = exampleHello.encode ∧ (∀ part ∈ exampleParts, part ≠ []) ∧
      ∃ result, tryExtractTlsFromReassembler exampleReassembler false = pure result ∧
        result.1 = some (.ofSni "www.example.com") ∧
        ¬ ReturnsRealName exampleHello exampleParts exampleReassembler result := by
  have heq : tryExtractTlsFromReassembler exampleReassembler false =
      pure (some (.ofSni "www.example.com"),
        exampleReassembler.setCompleteTlsInfo (.ofSni "www.example.com")) := by decide +kernel
  refine ⟨by decide +kernel, by decide +kernel, _, heq, rfl, fun hreturns => ?_⟩
  exact absurd (hreturns.real _ rfl _ rfl (by decide +kernel)) (by decide)

end RealName

end Tls

end RustNet
