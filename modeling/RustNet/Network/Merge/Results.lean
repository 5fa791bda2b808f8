import RustNet.Network.Tcp.Segments

/-!
# The record of a tracked connection

The packets of a connection are inspected one by one, and most are not recognised. What the
connection records is the fold of `merge_dpi_info` over the results there are, from no record: the
first result is taken as it is, and decides the protocol.

## Main results

* `track_dpiInfo`: the record of a tracked connection is the fold over the results;
* `record_of_proj`: the information of one protocol in a record is the fold of that protocol's own
  merge, from the first result on;
* `track_of_proj`: so it is in the record of a tracked connection;
* `field_of_record`: a field that is kept once it is there is the first that any result has.
-/

namespace RustNet

/-- What the inspection of the packets found, in order. -/
def dpiResults (arrivals : List Arrival) : List DpiResult :=
  arrivals.filterMap fun a => a.parsed.dpiResult

/-- The information of one protocol in an application record. -/
def ApplicationProtocol.https? : ApplicationProtocol → Option HttpsInfo
  | .https info => some info
  | _ => none

@[inherit_doc ApplicationProtocol.https?]
def ApplicationProtocol.dns? : ApplicationProtocol → Option DnsInfo
  | .dns info => some info
  | _ => none

@[inherit_doc ApplicationProtocol.https?]
def ApplicationProtocol.ssh? : ApplicationProtocol → Option SshInfo
  | .ssh info => some info
  | _ => none

@[inherit_doc ApplicationProtocol.https?]
def ApplicationProtocol.ftp? : ApplicationProtocol → Option FtpInfo
  | .ftp info => some info
  | _ => none

theorem dpiResults_append (l₁ l₂ : List Arrival) :
    dpiResults (l₁ ++ l₂) = dpiResults l₁ ++ dpiResults l₂ := List.filterMap_append

/-- What the first result has is what it has among more packets. -/
theorem head?_bind_dpiResults_append {β : Type} {f : DpiResult → Option β} {l₁ : List Arrival}
    {b : β} (h : (dpiResults l₁).head?.bind f = some b) (l₂ : List Arrival) :
    (dpiResults (l₁ ++ l₂)).head?.bind f = some b := by
  obtain ⟨result, hresult, hb⟩ := Option.bind_eq_some_iff.mp h
  simp [dpiResults_append, hresult, hb]

/-- A filter that lets the first element through gives its value first. -/
theorem filterMap_eq_cons_of_head? {α β : Type} {f : α → Option β} {l : List α} {b : β}
    (h : l.head?.bind f = some b) : l.filterMap f = b :: l.tail.filterMap f := by
  obtain ⟨a, ha, hb⟩ := Option.bind_eq_some_iff.mp h
  obtain ⟨tail, rfl⟩ := List.head?_eq_some_iff.mp ha
  simp [hb]

/-- The first element with a value, among those that a filter lets through. -/
theorem findSome?_filterMap {α β γ : Type} (f : α → Option β) (g : β → Option γ) (l : List α) :
    (l.filterMap f).findSome? g = l.findSome? fun a => (f a).bind g := by
  induction l with
  | nil => rfl
  | cons a l ih =>
    rw [List.filterMap_cons, List.findSome?_cons]
    rcases f a with _ | b
    · exact ih
    · rw [Option.bind_some, List.findSome?_cons, ih]

/-- A field that the merge keeps once it is there is the first that any information has. -/
theorem foldl_of_or {I β : Type} {merge : I → I → I} {field : I → Option β}
    (hfield : ∀ old new, field (merge old new) = (field old).or (field new)) (old : I)
    (news : List I) : field (news.foldl merge old) = (old :: news).findSome? field := by
  induction news generalizing old with
  | nil =>
    rw [List.foldl_nil, List.findSome?_cons, List.findSome?_nil]
    rcases field old with _ | x
    · rfl
    · rfl
  | cons new news ih =>
    rw [List.foldl_cons, ih, List.findSome?_cons, List.findSome?_cons, List.findSome?_cons, hfield]
    rcases field old with _ | x
    · rfl
    · rfl

/-- A field that follows the latest information is the last that any information has. -/
theorem foldl_of_latest {I β : Type} {merge : I → I → I} {field : I → Option β}
    (hfield : ∀ old new, field (merge old new) = (field new).or (field old)) (old : I)
    (news : List I) : field (news.foldl merge old) = (old :: news).reverse.findSome? field := by
  induction news using List.reverseRecOn with
  | nil => cases h : field old <;> simp [h]
  | append_singleton news new ih =>
    rw [List.foldl_append, List.foldl_cons, List.foldl_nil, hfield, ih, ← List.cons_append,
      List.reverse_append, List.reverse_singleton, List.singleton_append, List.findSome?_cons]
    cases field new <;> rfl

section Record

variable [DeepPacketInspection]

/-- The record after some results. -/
def record (info : Option DpiInfo) (results : List DpiResult) : Option DpiInfo :=
  results.foldl (fun info result => some (mergeDpiInfo info result)) info

theorem merge_dpiInfo (conn : Connection) (a : Arrival) :
    (conn.merge a).dpiInfo = record conn.dpiInfo (dpiResults [a]) := by
  rw [Connection.merge, dpiResults, List.filterMap_cons]
  rcases hresult : a.parsed.dpiResult with _ | result
  · simp only [mergePacketIntoConnection, hresult]
    rfl
  · simp only [mergePacketIntoConnection, hresult]
    rfl

theorem create_dpiInfo (a : Arrival) :
    (createConnectionFromPacket a.parsed a.now a.clock).dpiInfo = record none (dpiResults [a]) := by
  rw [dpiResults, List.filterMap_cons]
  show (a.parsed.dpiResult.map fun result : DpiResult => DpiInfo.mk result.application) = _
  rcases a.parsed.dpiResult with _ | result
  · rfl
  · rfl

theorem foldl_merge_dpiInfo (conn : Connection) (arrivals : List Arrival) :
    (arrivals.foldl Connection.merge conn).dpiInfo = record conn.dpiInfo (dpiResults arrivals) := by
  induction arrivals generalizing conn with
  | nil => rfl
  | cons a arrivals ih =>
    have happend : dpiResults (a :: arrivals) = dpiResults [a] ++ dpiResults arrivals :=
      dpiResults_append [a] arrivals
    rw [List.foldl_cons, ih, merge_dpiInfo, happend, record, record, record, List.foldl_append]

/-- The record of a tracked connection is the fold over the results. -/
theorem track_dpiInfo (first : Arrival) (rest : List Arrival) :
    (track first rest).dpiInfo = record none (dpiResults (first :: rest)) := by
  have happend : dpiResults (first :: rest) = dpiResults [first] ++ dpiResults rest :=
    dpiResults_append [first] rest
  rw [track, foldl_merge_dpiInfo, create_dpiInfo, happend, record, record, record,
    List.foldl_append]

section Projection

variable {I : Type} {proj : ApplicationProtocol → Option I} {merge : I → I → I}

theorem foldl_record_of_proj
    (hmerge : ∀ old new, proj (mergeApplication old new) =
      (proj old).map fun i => (proj new).elim i (merge i))
    (application : ApplicationProtocol) (results : List DpiResult) :
    (record (some ⟨application⟩) results).bind (fun info => proj info.application) =
      (proj application).map fun i =>
        (results.filterMap fun result => proj result.application).foldl merge i := by
  induction results generalizing application with
  | nil => exact Option.map_id'.symm
  | cons result results ih =>
    have hstep : record (some ⟨application⟩) (result :: results) =
        record (some ⟨mergeApplication application result.application⟩) results := rfl
    rw [hstep, ih, hmerge, Option.map_map, List.filterMap_cons]
    rcases proj result.application with _ | new
    · rfl
    · rfl

/-- The information of a protocol is there if the first result is of that protocol, and is merged
from the results of that protocol. -/
theorem record_of_proj
    (hmerge : ∀ old new, proj (mergeApplication old new) =
      (proj old).map fun i => (proj new).elim i (merge i))
    (results : List DpiResult) :
    (record none results).bind (fun info => proj info.application) =
      results.head?.bind fun first => (proj first.application).map fun i =>
        (results.tail.filterMap fun result => proj result.application).foldl merge i := by
  rcases results with _ | ⟨first, rest⟩
  · rfl
  · exact foldl_record_of_proj hmerge first.application rest

/-- So it is for a tracked connection. -/
theorem track_of_proj
    (hmerge : ∀ old new, proj (mergeApplication old new) =
      (proj old).map fun i => (proj new).elim i (merge i))
    (first : Arrival) (rest : List Arrival) :
    (track first rest).dpiInfo.bind (fun info => proj info.application) =
      ((dpiResults (first :: rest)).head?.bind fun result => proj result.application).map fun i =>
        ((dpiResults (first :: rest)).tail.filterMap fun result =>
          proj result.application).foldl merge i := by
  rw [track_dpiInfo, record_of_proj hmerge, Option.map_bind]
  rfl

/-- Such a field of a record is the first that any result of the protocol has. -/
theorem field_of_record {β : Type} {field : I → Option β}
    (hmerge : ∀ old new, proj (mergeApplication old new) =
      (proj old).map fun i => (proj new).elim i (merge i))
    (hfield : ∀ old new, field (merge old new) = (field old).or (field new))
    {results : List DpiResult} {info : I}
    (h : (record none results).bind (fun info => proj info.application) = some info) :
    field info = results.findSome? fun result => (proj result.application).bind field := by
  rw [record_of_proj hmerge] at h
  rcases results with _ | ⟨first, rest⟩
  · cases h
  obtain ⟨i, hi, rfl⟩ := Option.map_eq_some_iff.mp h
  rw [List.tail_cons, foldl_of_or hfield, List.findSome?_cons, List.findSome?_cons, hi,
    Option.bind_some, findSome?_filterMap]

end Projection

theorem https?_mergeApplication (old new : ApplicationProtocol) :
    (mergeApplication old new).https? =
      old.https?.map fun i => new.https?.elim i (mergeHttpsInfo i) := by
  cases old <;> cases new <;> rfl

theorem dns?_mergeApplication (old new : ApplicationProtocol) :
    (mergeApplication old new).dns? = old.dns?.map fun i => new.dns?.elim i (mergeDnsInfo i) := by
  cases old <;> cases new <;> rfl

theorem ssh?_mergeApplication (old new : ApplicationProtocol) :
    (mergeApplication old new).ssh? = old.ssh?.map fun i => new.ssh?.elim i (mergeSshInfo i) := by
  cases old <;> cases new <;> rfl

theorem ftp?_mergeApplication (old new : ApplicationProtocol) :
    (mergeApplication old new).ftp? = old.ftp?.map fun i => new.ftp?.elim i (mergeFtpInfo i) := by
  cases old <;> cases new <;> rfl

end Record

end RustNet
