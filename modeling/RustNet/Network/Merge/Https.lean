import RustNet.Network.Merge.Results
import RustNet.Network.Merge.ServerName

/-!
# The server name of an HTTPS connection

A ClientHello that is cut off gives a server name marked `[PARTIAL]`, and a later packet of the
connection may carry the whole name. The merge keeps the first name it sees, unlike the merge for
QUIC, whose rule is `preferSni`.

## Main definitions

* `HttpsArrival`: a packet in which the inspection finds TLS or nothing;
* `KeepsCompleteSni`: what the merge is to do with complete names.

## Main results

* `trackedSni_eq`: the recorded name is the first that a packet carried;
* `keepsCompleteSni_iff`: complete names are kept as they should exactly if the first name is
  complete, or none is.
-/

namespace RustNet

open Tls (isCompleteSni)

/-- A packet in which the inspection finds TLS, if anything. -/
structure HttpsArrival extends Arrival where
  info : Option HttpsInfo
  dpiResult_eq : parsed.dpiResult = info.map fun info => ⟨.https info⟩

/-- The server name that the packet carries. -/
def HttpsArrival.sni (a : HttpsArrival) : Option String := a.info.bind fun info => sniOf info.tlsInfo

/-- The server name in the HTTPS record of a connection. -/
def Connection.httpsSni (conn : Connection) : Option String :=
  (conn.dpiInfo.bind fun info => info.application.https?).bind fun info => sniOf info.tlsInfo

section Names

variable [DeepPacketInspection]

/-- The recorded name of a connection with these packets. -/
def trackedSni (first : HttpsArrival) (rest : List HttpsArrival) : Option String :=
  (track first.toArrival (rest.map HttpsArrival.toArrival)).httpsSni

/-- What the merge is to do with complete names. -/
structure KeepsCompleteSni (first : HttpsArrival) (rest : List HttpsArrival) : Prop where
  /-- Once a packet has carried a complete name, the recorded name is complete. -/
  complete : ∀ l₁ l₂, rest = l₁ ++ l₂ → (∃ a ∈ first :: l₁, isCompleteSni a.sni = true) →
    isCompleteSni (trackedSni first l₁) = true
  /-- A complete name replaces one that is not. -/
  replaced : ∀ l₁ a l₂, rest = l₁ ++ a :: l₂ → isCompleteSni (trackedSni first l₁) = false →
    isCompleteSni a.sni = true → trackedSni first (l₁ ++ [a]) = a.sni
  /-- A complete name is never replaced. -/
  kept : ∀ l₁ l₂ l₃, rest = l₁ ++ l₂ ++ l₃ → isCompleteSni (trackedSni first l₁) = true →
    trackedSni first (l₁ ++ l₂) = trackedSni first l₁

/-- The first name that is carried is complete, or none is. -/
def FirstSniComplete (arrivals : List HttpsArrival) : Prop :=
  isCompleteSni (arrivals.findSome? HttpsArrival.sni) = true ∨
    ∀ a ∈ arrivals, isCompleteSni a.sni = false

end Names

/-! ## The recorded name -/

theorem sniOf_mergeHttpsInfo (old new : HttpsInfo) :
    sniOf (mergeHttpsInfo old new).tlsInfo = (sniOf old.tlsInfo).or (sniOf new.tlsInfo) := by
  rw [mergeHttpsInfo]
  rcases hold : old.tlsInfo with _ | oldTls
  · rcases hnew : new.tlsInfo with _ | newTls
    · rw [hold]
      rfl
    · rfl
  · rcases hnew : new.tlsInfo with _ | newTls
    · rw [hold]
      exact Option.or_none.symm
    · rfl

theorem dpiResults_https (arrivals : List HttpsArrival) :
    dpiResults (arrivals.map HttpsArrival.toArrival) =
      (arrivals.filterMap HttpsArrival.info).map fun info => ⟨.https info⟩ := by
  induction arrivals with
  | nil => rfl
  | cons a arrivals ih =>
    rw [dpiResults] at ih ⊢
    rw [List.map_cons, List.filterMap_cons, List.filterMap_cons, a.dpiResult_eq, ih]
    rcases a.info with _ | info
    · rfl
    · rfl

theorem ne_none_of_isCompleteSni {sni : Option String} (h : isCompleteSni sni = true) :
    sni ≠ none := by
  rintro rfl
  cases h

section Track

variable [DeepPacketInspection] {first : HttpsArrival} {rest : List HttpsArrival}

/-- The recorded name is the first that a packet carried. -/
theorem trackedSni_eq (first : HttpsArrival) (rest : List HttpsArrival) :
    trackedSni first rest = (first :: rest).findSome? HttpsArrival.sni := by
  have hnames := findSome?_filterMap HttpsArrival.info (fun info => sniOf info.tlsInfo)
    (first :: rest)
  rw [trackedSni, Connection.httpsSni, track_dpiInfo, ← List.map_cons, dpiResults_https,
    record_of_proj https?_mergeApplication]
  refine Eq.trans ?_ hnames
  rcases (first :: rest).filterMap HttpsArrival.info with _ | ⟨old, news⟩
  · rfl
  -- every result is one of TLS
  · have hresults : ((news.map fun info => DpiResult.mk (.https info)).filterMap
        fun result => result.application.https?) = news := by
      rw [List.filterMap_map]
      exact List.filterMap_some
    show (some ((List.filterMap _ (news.map _)).foldl mergeHttpsInfo old)).bind _ = _
    rw [hresults]
    exact @foldl_of_or _ _ _ (fun info => sniOf info.tlsInfo) sniOf_mergeHttpsInfo old news

/-- A name that is recorded stays. -/
theorem trackedSni_append {l₁ : List HttpsArrival} (h : trackedSni first l₁ ≠ none)
    (l₂ : List HttpsArrival) : trackedSni first (l₁ ++ l₂) = trackedSni first l₁ := by
  rw [trackedSni_eq] at h
  rw [trackedSni_eq, trackedSni_eq, ← List.cons_append, List.findSome?_append]
  exact Option.or_of_isSome (Option.isSome_iff_ne_none.mpr h)

/-- A packet that carries a name leaves one recorded. -/
theorem trackedSni_ne_none {a : HttpsArrival} (hmem : a ∈ first :: rest)
    (h : isCompleteSni a.sni = true) : trackedSni first rest ≠ none := by
  rw [trackedSni_eq]
  intro hnone
  exact ne_none_of_isCompleteSni h (List.findSome?_eq_none_iff.mp hnone a hmem)

/-- Complete names are kept as they should exactly if the first name is complete, or none is. The
arrivals are any sequence of packets that merge into one connection. The merge takes a name only
where there is none, so a name that is cut off stays for good. -/
theorem keepsCompleteSni_iff (first : HttpsArrival) (rest : List HttpsArrival) :
    KeepsCompleteSni first rest ↔ FirstSniComplete (first :: rest) := by
  rw [FirstSniComplete, ← trackedSni_eq]
  constructor
  · intro h
    by_cases hsome : ∃ a ∈ first :: rest, isCompleteSni a.sni = true
    · exact Or.inl (h.complete rest [] (List.append_nil rest).symm hsome)
    · refine Or.inr fun a ha => Bool.eq_false_iff.mpr fun hcomplete => ?_
      exact hsome ⟨a, ha, hcomplete⟩
  · intro h
    -- a recorded name is the first, which is complete as soon as any name is
    have hrecorded : ∀ l₁ l₂, rest = l₁ ++ l₂ → (∃ a ∈ first :: rest, isCompleteSni a.sni = true) →
        trackedSni first l₁ ≠ none → isCompleteSni (trackedSni first l₁) = true := by
      rintro l₁ l₂ rfl ⟨a, ha, hcomplete⟩ hne
      rcases h with hfirst | hnone
      · rwa [trackedSni_append hne] at hfirst
      · exact absurd hcomplete (Bool.eq_false_iff.mp (hnone a ha))
    refine ⟨fun l₁ l₂ hrest hcarried => ?_, fun l₁ a l₂ hrest hincomplete hcomplete => ?_,
      fun l₁ l₂ l₃ hrest hcomplete => ?_⟩
    · obtain ⟨a, ha, hcomplete⟩ := hcarried
      refine hrecorded l₁ l₂ hrest ⟨a, ?_, hcomplete⟩ (trackedSni_ne_none ha hcomplete)
      rw [hrest, ← List.cons_append]
      exact List.mem_append_left l₂ ha
    · have hmem : a ∈ first :: rest := by
        rw [hrest]
        exact List.mem_cons_of_mem first (List.mem_append_right l₁ List.mem_cons_self)
      have hnone : trackedSni first l₁ = none := by
        by_contra hne
        have hall := hrecorded l₁ (a :: l₂) hrest ⟨a, hmem, hcomplete⟩ hne
        exact Bool.eq_false_iff.mp hincomplete hall
      rw [trackedSni_eq] at hnone
      rw [trackedSni_eq, ← List.cons_append, List.findSome?_append, hnone, Option.none_or,
        List.findSome?_cons, List.findSome?_nil]
      rcases a.sni with _ | name
      · rfl
      · rfl
    · exact trackedSni_append (ne_none_of_isCompleteSni hcomplete) l₂

end Track

/-! ## A name that stays cut off -/

/-- A segment to port 443 in which the inspection finds this server name. -/
def sampleHttpsArrival (sni : String) : HttpsArrival where
  parsed :=
    { ParsedPacket.ofTcp (.lan 1 5000) (.lan 2 443)
        { seq := 1
          ack := 1
          window := 512
          flags := ⟨false, false, false, true, true, false⟩
          payloadLen := 200 } true 252 with
      dpiResult := some ⟨.https ⟨some (.ofSni sni)⟩⟩ }
  now := ⟨0⟩
  clock := .constant 0
  info := some ⟨some (.ofSni sni)⟩
  dpiResult_eq := rfl

/-- The complete name of the second packet does not replace the first, which is cut off. -/
theorem not_keepsCompleteSni_partialFirst :
    letI : DeepPacketInspection := .silent
    trackedSni (sampleHttpsArrival "exam[PARTIAL]") [sampleHttpsArrival "example.com"] =
        some "exam[PARTIAL]" ∧
      ¬ KeepsCompleteSni (sampleHttpsArrival "exam[PARTIAL]") [sampleHttpsArrival "example.com"] := by
  let _ : DeepPacketInspection := .silent
  have hkept : trackedSni (sampleHttpsArrival "exam[PARTIAL]") [sampleHttpsArrival "example.com"] =
      some "exam[PARTIAL]" := rfl
  refine ⟨hkept, fun h => ?_⟩
  have hcomplete := h.complete [sampleHttpsArrival "example.com"] [] rfl
    ⟨_, List.mem_cons_of_mem _ List.mem_cons_self, by decide +kernel⟩
  rw [hkept] at hcomplete
  exact absurd hcomplete (by decide +kernel)

end RustNet
