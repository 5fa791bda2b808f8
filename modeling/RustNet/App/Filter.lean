import RustNet.Network.Types.Texts

/-!
# The connection filter

`ConnectionFilter::parse` and `ConnectionFilter::matches`: a query is cut into words, each word is
one criterion, and a connection matches if it meets all of them. A word may name the field it is
about, and its value may be a regular expression between slashes.

The engine for regular expressions is a third party's, and Unicode's lower case is long; nothing
here depends on what they do, so that both are taken from the class `TextEngine`.

## Main definitions

* `parseCriterion`, `ConnectionFilter.parse`: the criterion of a word, and those of a query;
* `FilterCriteria.Holds`, `ConnectionFilter.matches`.

## Main results

* `ConnectionFilter.matches_parse_iff`: a connection matches a query if it meets the criterion of
  each word;
* `ConnectionFilter.matches_conjunction`: two queries one behind the other are their conjunction,
  and the order of the words is of no importance.
-/

namespace RustNet

/-- Lower case and regular expressions. -/
class TextEngine where
  /-- `str::to_lowercase`. -/
  toLowercase : String → String
  /-- `regex_lite::Regex`. -/
  Regex : Type
  /-- `Regex::new`; `none` is an error. -/
  compile : String → Option Regex
  /-- `Regex::is_match`. -/
  isMatch : Regex → String → Bool

open TextEngine

section Filter

variable [TextEngine]

/-- `FilterValue`: a text that is searched for, or a regular expression that the engine has
accepted. -/
inductive FilterValue
  | literal (text : String)
  | regex (re : Regex)

/-- `PortMatch`; `substring` is the source's `Partial`. -/
inductive PortMatch
  | exact (port : UInt16)
  | substring (text : String)
  | regex (re : Regex)

/-- `FilterCriteria`: one word of a query, by its keyword. -/
inductive FilterCriteria
  | general (value : FilterValue)
  | port (value : PortMatch)
  | sourcePort (value : PortMatch)
  | destinationPort (value : PortMatch)
  | sourceIp (value : FilterValue)
  | destinationIp (value : FilterValue)
  | protocol (value : FilterValue)
  | process (value : FilterValue)
  | service (value : FilterValue)
  | sni (value : FilterValue)
  | application (value : FilterValue)
  | state (value : FilterValue)

/-- `ConnectionFilter`: the words of a query, all of which have to match. -/
structure ConnectionFilter where
  criteria : List FilterCriteria

/-! ## Parsing -/

/-- What stands between two slashes, if it is not empty. -/
def slashed (value : String) : Option String :=
  let chars := value.toList
  if chars.head? = some '/' ∧ chars.getLast? = some '/' ∧ 2 < value.utf8ByteSize then
    some (String.ofList chars.tail.dropLast)
  else none

/-- `parse_port_match`: a regular expression between slashes, a number, or a part of the digits. A
value between slashes that the engine does not accept is searched for as it is. -/
def parsePortMatch (value : String) : PortMatch :=
  match slashed value with
  | some pattern =>
    match compile pattern with
    | some re => .regex re
    | none => .substring value
  | none =>
    if value.toList.all Char.isDigit then
      match Text.fromStrRadix 10 16 value.toList with
      | some port => .exact (UInt16.ofNat port)
      | none => .substring value
    else .substring value

/-- `parse_filter_value`: a regular expression between slashes, in which case does not matter, or
the text as it is. -/
def parseFilterValue (value : String) : FilterValue :=
  match slashed value with
  | some pattern =>
    match compile ("(?i)" ++ pattern) with
    | some re => .regex re
    | none => .literal value
  | none => .literal value

/-- `split_once(':')`: what is in front of the first colon and what is behind it. -/
def splitOnceColon (part : String) : Option (String × String) :=
  if ':' ∈ part.toList then
    some (String.ofList (part.toList.takeWhile (· ≠ ':')),
      String.ofList (part.toList.dropWhile (· ≠ ':')).tail)
  else none

/-- The criterion of a keyword with a value; `none` for an unknown keyword. -/
def keywordCriterion (keyword value : String) : Option FilterCriteria :=
  match keyword with
  | "port" => some (.port (parsePortMatch value))
  | "sport" | "srcport" | "source-port" => some (.sourcePort (parsePortMatch value))
  | "dport" | "dstport" | "dest-port" | "destination-port" =>
    some (.destinationPort (parsePortMatch value))
  | "src" | "source" => some (.sourceIp (parseFilterValue value))
  | "dst" | "dest" | "destination" => some (.destinationIp (parseFilterValue value))
  | "proto" | "protocol" => some (.protocol (parseFilterValue value))
  | "process" | "proc" => some (.process (parseFilterValue value))
  | "service" | "svc" => some (.service (parseFilterValue value))
  | "sni" | "host" | "hostname" => some (.sni (parseFilterValue value))
  | "app" | "application" => some (.application (parseFilterValue value))
  | "state" => some (.state (parseFilterValue value))
  | _ => none

/-- The criterion of a word. Without a known keyword the whole word is searched for. -/
def parseCriterion (part : String) : FilterCriteria :=
  let general : FilterCriteria := .general (parseFilterValue (toLowercase part))
  match splitOnceColon part with
  | some (keyword, value) =>
    (keywordCriterion (toLowercase keyword) (toLowercase value)).getD general
  | none => general

/-- The words of a query: `query.split_whitespace()`. -/
def queryWords (query : String) : List String :=
  (Text.splitWhitespace query.toList).map String.ofList

/-- `ConnectionFilter::parse`: one criterion for each word, none for a blank query. -/
def ConnectionFilter.parse (query : String) : ConnectionFilter :=
  if Text.trim query.toList = [] then ⟨[]⟩ else ⟨(queryWords query).map parseCriterion⟩

/-! ## Matching -/

/-- `match_port`: the number itself, a part of its digits, or a match of the expression in its
digits. -/
def matchPort (port : UInt16) : PortMatch → Bool
  | .exact n => port == n
  | .substring text => Text.contains (toString port.toNat).toList text.toList
  | .regex re => isMatch re (toString port.toNat)

/-- `match_text`: a literal is looked for in the lowered text, an expression in the text as it
is. -/
def matchText (haystack : String) : FilterValue → Bool
  | .literal text => Text.contains (toLowercase haystack).toList text.toList
  | .regex re => isMatch re haystack

/-- A connection with the name of its service, which the snapshot adds. -/
structure NamedConnection extends Connection where
  serviceName : Option String

/-- The names that `sni:` looks at: the server name of TLS and QUIC, and the host of HTTP. -/
def ApplicationProtocol.hostName : ApplicationProtocol → Option String
  | .https info => info.tlsInfo.bind TlsInfo.sni
  | .quic info => info.tlsInfo.bind TlsInfo.sni
  | .http info => info.host
  | _ => none

/-- The texts of TLS: the server name and the protocols. -/
def TlsInfo.texts (info : TlsInfo) : List String := info.sni.toList ++ info.alpn

/-- What `matches_dpi_general` looks at besides the text of the record. -/
def ApplicationProtocol.texts : ApplicationProtocol → List String
  | .http info => info.host.toList ++ info.path.toList ++ info.method.toList
  | .https info => (info.tlsInfo.map TlsInfo.texts).getD []
  | .dns info => info.queryName.toList
  | .quic info => (info.tlsInfo.map TlsInfo.texts).getD []
  | .ssh info =>
    "ssh" :: (info.serverSoftware.toList ++ info.clientSoftware.toList ++
      [toLowercase info.connectionState.debug] ++ info.algorithms)
  | .ntp _ => ["ntp"]
  | .ftp info =>
    "ftp" :: (info.command.toList ++ info.username.toList ++ info.serverSoftware.toList ++
      info.systemType.toList ++ (info.responseCode.map fun code => toString code.toNat).toList)
  | .mdns info => info.queryName.toList
  | .llmnr info => info.queryName.toList
  | .dhcp info => info.hostname.toList
  | .snmp info => info.community.toList
  | .ssdp info => info.serviceType.toList
  | .netBios info => info.name.toList
  | .bitTorrent info => "bittorrent" :: info.client.toList
  | .stun info => "stun" :: info.software.toList
  | .mqtt info => "mqtt" :: (info.clientId.toList ++ info.topic.toList)

namespace NamedConnection

/-- The vendors of an ARP exchange. -/
def vendors (conn : NamedConnection) : List String :=
  match conn.protocolState with
  | .arp info => info.senderVendor.toList ++ info.targetVendor.toList
  | _ => []

/-- What a general search looks at, in the order of `matches_general`. -/
def texts (conn : NamedConnection) : List String :=
  [conn.protocol.display, conn.localAddr.display, conn.remoteAddr.display] ++
    conn.processName.toList ++ conn.serviceName.toList ++
    (match conn.dpiInfo with
      | some info => info.application.display :: info.application.texts
      | none => []) ++
    conn.vendors

end NamedConnection

/-- A criterion of `matches`, with the wall clock showing `wall`. -/
def FilterCriteria.holds (conn : NamedConnection) (wall : SystemTime) : FilterCriteria → Bool
  | .general value => conn.texts.any fun text => matchText text value
  -- either end has the port
  | .port value => matchPort conn.localAddr.port value || matchPort conn.remoteAddr.port value
  | .sourcePort value => matchPort conn.localAddr.port value
  | .destinationPort value => matchPort conn.remoteAddr.port value
  | .sourceIp value => matchText conn.localAddr.ip.display value
  | .destinationIp value => matchText conn.remoteAddr.ip.display value
  | .protocol value => matchText conn.protocol.display value
  | .process value => conn.processName.any fun name => matchText name value
  | .service value => conn.serviceName.any fun name => matchText name value
  | .sni value =>
    (conn.dpiInfo.bind fun info => info.application.hostName).any fun name => matchText name value
  | .application value =>
    conn.dpiInfo.any fun info => matchText info.application.display value
  | .state value => matchText (conn.state wall) value

namespace ConnectionFilter

/-- `ConnectionFilter::matches`: a filter without criteria matches every connection, another one
those that all its criteria hold of. -/
def «matches» (filter : ConnectionFilter) (conn : NamedConnection) (wall : SystemTime) : Bool :=
  if filter.criteria.isEmpty then true
  else filter.criteria.all fun criterion => criterion.holds conn wall

/-! ## Conjunctions -/

section Conjunction

variable {conn : NamedConnection} {wall : SystemTime}

/-- An empty query needs no case of its own. -/
theorem parse_eq (query : String) : parse query = ⟨(queryWords query).map parseCriterion⟩ := by
  rw [parse]
  split_ifs with hempty
  · rw [queryWords, Text.splitWhitespace_of_trim hempty]
    rfl
  · rfl

theorem matches_iff (filter : ConnectionFilter) :
    filter.«matches» conn wall = true ↔
      ∀ criterion ∈ filter.criteria, criterion.holds conn wall = true := by
  rw [«matches»]
  split_ifs with hempty
  · rw [List.isEmpty_iff.mp hempty]
    exact iff_of_true rfl fun _ h => absurd h List.not_mem_nil
  · exact List.all_eq_true

/-- A connection matches a query if it meets the criterion of each word. -/
theorem matches_parse_iff (query : String) :
    (parse query).«matches» conn wall = true ↔
      ∀ word ∈ queryWords query, (parseCriterion word).holds conn wall = true := by
  rw [matches_iff, parse_eq]
  exact List.forall_mem_map

omit [TextEngine] in
theorem queryWords_append (q₁ q₂ : String) :
    queryWords (q₁ ++ " " ++ q₂) = queryWords q₁ ++ queryWords q₂ := by
  have htext : (q₁ ++ " " ++ q₂).toList = q₁.toList ++ ' ' :: q₂.toList := by
    rw [String.toList_append, String.toList_append, List.append_assoc]
    rfl
  rw [queryWords, htext, Text.splitWhitespace_append_blank, List.map_append]
  rfl

/-- **Words are conjoined.** A query that is put together from two matches what both of them match,
and queries with the same words in any order match the same connections. The queries are any, with
keywords, values between slashes and blanks in any place; nothing is asked of the engine for regular
expressions. -/
theorem matches_conjunction (conn : NamedConnection) (wall : SystemTime) :
    (∀ q₁ q₂, (parse (q₁ ++ " " ++ q₂)).«matches» conn wall = true ↔
      (parse q₁).«matches» conn wall = true ∧ (parse q₂).«matches» conn wall = true) ∧
    ∀ q q', (queryWords q).Perm (queryWords q') →
      ((parse q).«matches» conn wall = true ↔ (parse q').«matches» conn wall = true) := by
  constructor
  · intro q₁ q₂
    rw [matches_parse_iff, matches_parse_iff, matches_parse_iff, queryWords_append]
    exact List.forall_mem_append
  · intro q q' hperm
    rw [matches_parse_iff, matches_parse_iff]
    exact forall_congr' fun word => imp_congr_left hperm.mem_iff

end Conjunction

end ConnectionFilter

end Filter

/-! ## Two queries -/

/-- Lower case for ASCII, and no regular expressions. -/
@[reducible]
def TextEngine.plain : TextEngine where
  toLowercase text := String.ofList (text.toList.map Char.toLower)
  Regex := Empty
  compile _ := none
  isMatch re _ := re.elim

/-- A connection to port 443. -/
def sampleNamedConnection : NamedConnection :=
  { Connection.new .tcp (.lan 1 5000) (.lan 2 443) (.tcp .established) ⟨0⟩ ⟨0⟩ with
    serviceName := some "https" }

/-- Two words and the same words the other way round. -/
theorem matches_conjunction_swapped :
    letI : TextEngine := .plain
    (queryWords "svc:http Port:443").Perm (queryWords "Port:443  svc:http") ∧
      ((ConnectionFilter.parse "svc:http Port:443").«matches» sampleNamedConnection ⟨0⟩ = true ↔
        (ConnectionFilter.parse "Port:443  svc:http").«matches» sampleNamedConnection ⟨0⟩ =
          true) := by
  let _ : TextEngine := .plain
  have hperm : (queryWords "svc:http Port:443").Perm (queryWords "Port:443  svc:http") := by
    decide +kernel
  exact ⟨hperm, (ConnectionFilter.matches_conjunction sampleNamedConnection ⟨0⟩).2 _ _ hperm⟩

end RustNet
