import RustNet.Foundations.Table
import RustNet.Network.Types.Connection
import RustNet.Network.Types.Octets

/-!
# The process of a connection

What the lookup of `rustnet-host` answers from a map built out of a socket table. A socket can
stand in such a table with wildcard addresses, so a connection that has no entry of its own is
looked up under three relaxed keys, and an answer counts only when all entries found agree.

The map holds one owner for each key. Rows of the table that share a key, as the listeners of a
`SO_REUSEPORT` group do, collapse into the last of them before the lookup sees any.

## Main results

* `fallbackLookup_eq_some`: what the fallback answers, over any map;
* `noMisattribution_iff`: when the answer is right about the rows the map was built from.
-/

namespace RustNet.Host

/-- `ConnectionKey`: what a connection is looked up by. -/
structure ConnectionKey where
  protocol : Protocol
  localAddr : SocketAddr
  remoteAddr : SocketAddr
deriving DecidableEq

/-- `ConnectionKey::from_connection`: the protocol and both ends, and nothing else of the
connection. -/
def ConnectionKey.fromConnection (conn : Connection) : ConnectionKey where
  protocol := conn.protocol
  localAddr := conn.localAddr
  remoteAddr := conn.remoteAddr

/-- A process: its pid and its name. -/
abbrev Process := UInt32 × String

/-- `ConnectionProcessMap`: the owners of connections, one for each key. -/
abbrev ConnectionProcessMap := AList fun _ : ConnectionKey => Process

/-! ## The fallback -/

/-- The unspecified address of the family of `addr`: `zero` of `fallback_lookup`. -/
def zero (addr : SocketAddr) : IpAddr :=
  match addr.ip with
  | .v4 _ => .v4 ⟨Vector.replicate 4 0⟩
  | .v6 _ => .v6 ⟨Vector.replicate 8 0⟩

/-- The three relaxed keys: listening on a specific local address, bound to any address with a
known remote, and listening on any address. -/
def candidates (key : ConnectionKey) : List ConnectionKey :=
  let zlip := zero key.localAddr
  let zrip := zero key.remoteAddr
  [{ key with remoteAddr := ⟨zrip, 0⟩ },
    { key with localAddr := ⟨zlip, key.localAddr.port⟩ },
    { key with localAddr := ⟨zlip, key.localAddr.port⟩, remoteAddr := ⟨zrip, 0⟩ }]

/-- The loop over the candidates: the entry found so far, and none once two entries differ. -/
def collect (map : ConnectionProcessMap) (found : Option Process) :
    List ConnectionKey → Option Process
  | [] => found
  | candidate :: rest =>
    match map.lookup candidate with
    | none => collect map found rest
    | some entry =>
      match found with
      | none => collect map (some entry) rest
      | some existing => if existing = entry then collect map found rest else none

/-- `ProcessLookup::fallback_lookup`: the relaxed keys of a TCP or UDP connection, as long as they
lead to one process. -/
def fallbackLookup (map : ConnectionProcessMap) (key : ConnectionKey) : Option Process :=
  if key.protocol = .tcp ∨ key.protocol = .udp then collect map none (candidates key) else none

/-- `get_process_for_connection` of the procfs lookup. -/
def getProcessForConnection (map : ConnectionProcessMap) (conn : Connection) : Option Process :=
  let key := ConnectionKey.fromConnection conn
  match map.lookup key with
  | some entry => some entry
  | none => fallbackLookup map key

/-- With an entry in hand the loop returns it, unless a candidate has another. -/
theorem collect_some_eq_some {map : ConnectionProcessMap} {existing p : Process}
    {keys : List ConnectionKey} :
    collect map (some existing) keys = some p ↔
      existing = p ∧ ∀ key ∈ keys, ∀ q, map.lookup key = some q → q = p := by
  induction keys with
  | nil => simp [collect]
  | cons key keys ih =>
    rw [collect]
    cases hkey : map.lookup key with
    | none => simp [ih, hkey]
    | some entry =>
      by_cases heq : existing = entry
      · subst heq
        simp only [if_true, ih, List.forall_mem_cons, hkey, Option.some.injEq, forall_eq']
        tauto
      -- the loop gives up, and `p` cannot be both
      · simp only [if_neg heq, List.forall_mem_cons, hkey, Option.some.injEq, forall_eq',
          reduceCtorEq, false_iff]
        rintro ⟨rfl, rfl, -⟩
        exact heq rfl

/-- The loop returns an entry when some candidate has it and no candidate has another. -/
theorem collect_none_eq_some {map : ConnectionProcessMap} {p : Process}
    {keys : List ConnectionKey} :
    collect map none keys = some p ↔
      (∃ key ∈ keys, map.lookup key = some p) ∧
        ∀ key ∈ keys, ∀ q, map.lookup key = some q → q = p := by
  induction keys with
  | nil => simp [collect]
  | cons key keys ih =>
    rw [collect]
    cases hkey : map.lookup key with
    | none => simp [ih, hkey]
    | some entry =>
      -- from here on the loop has an entry in hand
      simp only [collect_some_eq_some, List.exists_mem_cons_iff, List.forall_mem_cons, hkey,
        Option.some.injEq, forall_eq']
      constructor
      · rintro ⟨rfl, hrest⟩
        exact ⟨Or.inl rfl, rfl, hrest⟩
      · rintro ⟨-, rfl, hrest⟩
        exact ⟨rfl, hrest⟩

theorem fallbackLookup_eq_some {map : ConnectionProcessMap} {key : ConnectionKey} {p : Process} :
    fallbackLookup map key = some p ↔
      (key.protocol = .tcp ∨ key.protocol = .udp) ∧
        (∃ candidate ∈ candidates key, map.lookup candidate = some p) ∧
          ∀ candidate ∈ candidates key, ∀ q, map.lookup candidate = some q → q = p := by
  unfold fallbackLookup
  split
  next hprotocol => simp only [collect_none_eq_some, hprotocol, true_and]
  next hprotocol => simp [hprotocol]

/-- A connection with an entry of its own is attributed to it. -/
theorem getProcessForConnection_of_lookup {map : ConnectionProcessMap} {conn : Connection}
    {p : Process} (h : map.lookup (.fromConnection conn) = some p) :
    getProcessForConnection map conn = some p := by
  simp [getProcessForConnection, h]

/-- Any other connection is left to the fallback. -/
theorem getProcessForConnection_of_lookup_none {map : ConnectionProcessMap} {conn : Connection}
    (h : map.lookup (.fromConnection conn) = none) :
    getProcessForConnection map conn = fallbackLookup map (.fromConnection conn) := by
  simp [getProcessForConnection, h]

/-! ## Rows that share a key -/

/-- The map `parse_and_map` builds: row after row is inserted. -/
def processMap (rows : List (ConnectionKey × Process)) : ConnectionProcessMap :=
  AList.insertAll rows ∅

/-- The process of the last row under `key`. -/
def lastOwner (rows : List (ConnectionKey × Process)) (key : ConnectionKey) : Option Process :=
  (rows.reverse.find? fun row => row.1 = key).map Prod.snd

@[simp]
theorem lookup_processMap (rows : List (ConnectionKey × Process)) (key : ConnectionKey) :
    (processMap rows).lookup key = lastOwner rows key := by
  rw [processMap, AList.lookup_insertAll, AList.lookup_empty, Option.or_none, lastOwner]

theorem lastOwner_append (rows rows' : List (ConnectionKey × Process)) (key : ConnectionKey) :
    lastOwner (rows ++ rows') key = (lastOwner rows' key).or (lastOwner rows key) := by
  rw [lastOwner, List.reverse_append, List.find?_append, Option.map_or]
  rfl

theorem mem_of_lastOwner {rows : List (ConnectionKey × Process)} {key : ConnectionKey}
    {p : Process} (h : lastOwner rows key = some p) : (key, p) ∈ rows :=
  AList.mem_of_find?_reverse h

/-- A key with a row has a last one. -/
theorem exists_lastOwner {rows : List (ConnectionKey × Process)} {row : ConnectionKey × Process}
    (h : row ∈ rows) : ∃ p, lastOwner rows row.1 = some p :=
  AList.exists_find?_reverse h

/-- What the fallback promises about the rows its map was built from: the process it returns owns
all rows that match the connection, and where two processes own such rows it returns none. -/
def NoMisattribution (rows : List (ConnectionKey × Process)) (key : ConnectionKey) : Prop :=
  (∀ p, fallbackLookup (processMap rows) key = some p →
    ∀ row ∈ rows, row.1 ∈ candidates key → row.2 = p) ∧
  ∀ row ∈ rows, ∀ other ∈ rows, row.1 ∈ candidates key → other.1 ∈ candidates key →
    row.2 ≠ other.2 → fallbackLookup (processMap rows) key = none

/-- No two processes own rows under one and the same relaxed key. -/
def OneOwner (rows : List (ConnectionKey × Process)) (key : ConnectionKey) : Prop :=
  ∀ row ∈ rows, ∀ other ∈ rows, row.1 ∈ candidates key → row.1 = other.1 → row.2 = other.2

/-- The last rows under two of the relaxed keys have different owners. -/
def Ambiguous (rows : List (ConnectionKey × Process)) (key : ConnectionKey) : Prop :=
  ∃ candidate ∈ candidates key, ∃ other ∈ candidates key, ∃ p q,
    lastOwner rows candidate = some p ∧ lastOwner rows other = some q ∧ p ≠ q

/-- Two candidates whose last rows differ silence the fallback. -/
theorem fallbackLookup_of_ambiguous {rows : List (ConnectionKey × Process)} {key : ConnectionKey}
    (h : Ambiguous rows key) : fallbackLookup (processMap rows) key = none := by
  obtain ⟨candidate, hcandidate, other, hother, p, q, hp, hq, hne⟩ := h
  apply Option.eq_none_iff_forall_ne_some.mpr
  intro found hfound
  obtain ⟨-, -, hagree⟩ := fallbackLookup_eq_some.mp hfound
  simp only [lookup_processMap] at hagree
  apply hne
  rw [hagree candidate hcandidate p hp, hagree other hother q hq]

/-- Without such a pair the fallback answers for every TCP or UDP connection a row matches. -/
theorem exists_fallbackLookup {rows : List (ConnectionKey × Process)} {key : ConnectionKey}
    (hprotocol : key.protocol = .tcp ∨ key.protocol = .udp) (hagree : ¬ Ambiguous rows key)
    {row : ConnectionKey × Process} (hrow : row ∈ rows) (hmatch : row.1 ∈ candidates key) :
    ∃ p, fallbackLookup (processMap rows) key = some p := by
  obtain ⟨p, hp⟩ := exists_lastOwner hrow
  refine ⟨p, fallbackLookup_eq_some.mpr ⟨hprotocol, ⟨row.1, hmatch, ?_⟩, ?_⟩⟩
  · rw [lookup_processMap, hp]
  · intro candidate hcandidate q hq
    rw [lookup_processMap] at hq
    by_contra hne
    exact hagree ⟨candidate, hcandidate, row.1, hmatch, q, p, hq, hp, hne⟩

/-- The process returned owns every matching row when the rows of a key have one owner. -/
theorem owner_eq_of_oneOwner {rows : List (ConnectionKey × Process)} {key : ConnectionKey}
    (hone : OneOwner rows key) {p : Process}
    (hfound : fallbackLookup (processMap rows) key = some p) {row : ConnectionKey × Process}
    (hrow : row ∈ rows) (hmatch : row.1 ∈ candidates key) : row.2 = p := by
  obtain ⟨-, -, hagree⟩ := fallbackLookup_eq_some.mp hfound
  obtain ⟨q, hq⟩ := exists_lastOwner hrow
  -- the last row under the key of `row` speaks for `row` as well
  have hsame : row.2 = q := hone row hrow (row.1, q) (mem_of_lastOwner hq) hmatch rfl
  rw [hsame]
  apply hagree row.1 hmatch
  rw [lookup_processMap, hq]

/-- The fallback is right about the rows exactly when the connection is neither TCP nor UDP, or the
rows under each relaxed key have one owner, or the last rows under two relaxed keys do not. The rows
are any list, in the order in which they went into the map; of two under one key the later one
stays. -/
theorem noMisattribution_iff (rows : List (ConnectionKey × Process)) (key : ConnectionKey) :
    NoMisattribution rows key ↔
      (key.protocol ≠ .tcp ∧ key.protocol ≠ .udp) ∨ OneOwner rows key ∨ Ambiguous rows key := by
  constructor
  · rintro ⟨-, hsilent⟩
    by_cases hprotocol : key.protocol = .tcp ∨ key.protocol = .udp
    · right
      by_cases hagree : Ambiguous rows key
      · exact Or.inr hagree
      -- the fallback answers, so it must not be silent about any two rows
      · left
        intro row hrow other hother hmatch hkey
        by_contra hne
        obtain ⟨p, hp⟩ := exists_fallbackLookup hprotocol hagree hrow hmatch
        rw [hsilent row hrow other hother hmatch (hkey ▸ hmatch) hne] at hp
        cases hp
    · exact Or.inl (not_or.mp hprotocol)
  · rintro (⟨htcp, hudp⟩ | hone | hagree)
    · have hnone : fallbackLookup (processMap rows) key = none := by
        simp [fallbackLookup, htcp, hudp]
      exact ⟨by simp [hnone], fun _ _ _ _ _ _ _ => hnone⟩
    · refine ⟨fun p hp row hrow hmatch => owner_eq_of_oneOwner hone hp hrow hmatch, ?_⟩
      intro row hrow other hother hmatch hmatch' hne
      apply Option.eq_none_iff_forall_ne_some.mpr
      intro p hp
      apply hne
      rw [owner_eq_of_oneOwner hone hp hrow hmatch, owner_eq_of_oneOwner hone hp hother hmatch']
    · have hnone := fallbackLookup_of_ambiguous hagree
      exact ⟨by simp [hnone], fun _ _ _ _ _ _ _ => hnone⟩

/-! ## Two listeners on one port -/

/-- A connection to port 80 of `10.0.0.1`. -/
def inbound : ConnectionKey := ⟨.tcp, .lan 1 80, .lan 2 50000⟩

/-- Two processes that listen on port 80 of any address. -/
def reusePortRows : List (ConnectionKey × Process) :=
  [(⟨.tcp, ⟨.v4 (.new 0 0 0 0), 80⟩, ⟨.v4 (.new 0 0 0 0), 0⟩⟩, (100, "nginx")),
    (⟨.tcp, ⟨.v4 (.new 0 0 0 0), 80⟩, ⟨.v4 (.new 0 0 0 0), 0⟩⟩, (200, "haproxy"))]

/-- The connection has no entry of its own, and goes to the second listener. -/
theorem reusePort_misattributed :
    (processMap reusePortRows).lookup inbound = none ∧
      fallbackLookup (processMap reusePortRows) inbound = some (200, "haproxy") ∧
        ¬ NoMisattribution reusePortRows inbound := by
  refine ⟨by decide +kernel, by decide +kernel, fun h => ?_⟩
  have hfound : fallbackLookup (processMap reusePortRows) inbound = some (200, "haproxy") := by
    decide +kernel
  have howner := h.1 _ hfound _ List.mem_cons_self (by decide +kernel)
  exact absurd howner (by decide)

end RustNet.Host
