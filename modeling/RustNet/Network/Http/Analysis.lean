import RustNet.Foundations.Access
import RustNet.Network.LossyText
import RustNet.Network.Tls.HostName

/-!
# HTTP payloads

`analyze_http` takes a payload for HTTP if it begins with a method or a version, and reads its lines
as text: the first has three words at least, and of the headers up to the first empty line those
named `Host` and `User-Agent` are kept.

The words of the first line are taken by their index, so that the parser is a program over `Access`.
No payload makes an index fail, since the words are counted first.

## Main definitions

* `Http.isLikelyHttp`;
* `Http.Program.analyzeHttp`, and its readings `Http.analyzeHttp` and `Http.Indexed.analyzeHttp`.

## Main results

* `Http.Indexed.analyzeHttp_eq`: with its accesses checked, the parser returns, and it returns the
  same;
* `Http.parseFirstLine_words`: what is taken from a first line of three words or more.
-/

namespace RustNet

namespace Http

/-- What `is_likely_http` looks for: the methods and the versions, each with a blank. -/
def likelyPrefixes : List String :=
  ["GET ", "POST ", "PUT ", "DELETE ", "HEAD ", "OPTIONS ", "CONNECT ", "TRACE ", "PATCH ",
    "HTTP/1.0 ", "HTTP/1.1 ", "HTTP/2 "]

/-- `is_likely_http`: the payload starts as a request line or a status line does. -/
def isLikelyHttp (payload : List UInt8) : Bool :=
  if payload.length < 4 then false
  else likelyPrefixes.any fun start => (nameBytes start).isPrefixOf payload

/-- What `is_http_method` matches, in capitals alone. -/
def httpMethods : List String :=
  ["GET", "POST", "PUT", "DELETE", "HEAD", "OPTIONS", "CONNECT", "TRACE", "PATCH"]

/-- `is_http_method`: the word is a method as it stands. -/
def isHttpMethod (s : List Char) : Bool := httpMethods.any fun method => method.toList == s

/-- `parse_http_version`: a word that is none of the versions counts as 1.1. -/
def parseHttpVersion (s : List Char) : HttpVersion :=
  if s = "HTTP/1.0".toList then .http10
  else if s = "HTTP/1.1".toList then .http11
  else if s = "HTTP/2".toList then .http2
  else .http11

/-- `str::eq_ignore_ascii_case`: the two texts agree when the letters from A to Z are read as small
ones, as header names are compared. -/
def eqIgnoreAsciiCase (s t : List Char) : Bool := s.map Char.toLower == t.map Char.toLower

/-- `str::split_once`: the text in front of the first separator and the text behind it, or nothing
when there is no separator. -/
def splitOnce (sep : Char) (s : List Char) : Option (List Char × List Char) :=
  if sep ∈ s then some (s.takeWhile (· ≠ sep), (s.dropWhile (· ≠ sep)).tail) else none

/-- The body of the loop over the headers. -/
def parseHeader (info : HttpInfo) (line : List Char) : HttpInfo :=
  match splitOnce ':' line with
  | none => info
  | some (key, value) =>
    if eqIgnoreAsciiCase (Text.trim key) "host".toList then
      { info with host := some (String.ofList (Text.trim value)) }
    else if eqIgnoreAsciiCase (Text.trim key) "user-agent".toList then
      { info with userAgent := some (String.ofList (Text.trim value)) }
    else info

/-- The loop over the headers, which ends at an empty line. -/
def parseHeaders (info : HttpInfo) : List (List Char) → HttpInfo
  | [] => info
  | line :: lines => if line = [] then info else parseHeaders (parseHeader info line) lines

/-! ## Programs -/

namespace Program

open Access

variable {m : Type → Type} [Access m]

/-- What `analyze_http` takes from the first line. -/
def parseFirstLine (firstLine : List Char) : m (Option HttpInfo) := do
  let parts := Text.splitWhitespace firstLine
  if parts.length < 3 then return none
  if "HTTP/".toList.isPrefixOf firstLine then do
    let version ← index parts 0
    let statusCode ← index parts 1
    return some ⟨parseHttpVersion version, none, none, none,
      (Text.fromStrRadix 10 16 statusCode).map UInt16.ofNat, none⟩
  else do
    let method ← index parts 0
    if isHttpMethod method then do
      let path ← index parts 1
      let version ← index parts 2
      return some ⟨parseHttpVersion version, some (String.ofList method), none,
        some (String.ofList path), none, none⟩
    else return none

/-- `analyze_http`: the payload must pass the test on its first bytes; then the first line is read
as a request or a status line, and the lines behind it as headers. -/
def analyzeHttp (payload : List UInt8) : m (Option HttpInfo) := do
  if isLikelyHttp payload then
    match Text.lines (fromUtf8Lossy payload) with
    | [] => return none
    | firstLine :: lines => do
      let info? ← parseFirstLine firstLine
      return info?.map fun info => parseHeaders info lines
  else return none

end Program

/-- What `analyze_http` takes from the first line. -/
def parseFirstLine (firstLine : List Char) : Option HttpInfo :=
  Id.run (Program.parseFirstLine firstLine)

/-- `analyze_http`, with its indices read where they are: what the analysis returns when none of
them fails. -/
def analyzeHttp (payload : List UInt8) : Option HttpInfo := Id.run (Program.analyzeHttp payload)

/-- `analyze_http`, with its accesses checked. -/
def Indexed.analyzeHttp (payload : List UInt8) : Checked (Option HttpInfo) :=
  Program.analyzeHttp payload

/-! ## Every access is in range -/

section Agreement

open Access

theorem Program.agrees_parseFirstLine (firstLine : List Char) :
    Agrees (parseFirstLine firstLine) (parseFirstLine firstLine) := by
  refine Agrees.ite (fun _ => agrees_pure _) fun hlength => ?_
  refine Agrees.ite (fun _ => ?_) fun _ => ?_
  · exact (agrees_index (by omega)).bind ((agrees_index (by omega)).bind (agrees_pure _))
  · refine (agrees_index (by omega)).bind (Agrees.ite (fun _ => ?_) fun _ => agrees_pure _)
    exact (agrees_index (by omega)).bind ((agrees_index (by omega)).bind (agrees_pure _))

/-- With its accesses checked, `analyze_http` returns, and it returns the same. -/
theorem Indexed.analyzeHttp_eq (payload : List UInt8) :
    Indexed.analyzeHttp payload = pure (Http.analyzeHttp payload) := by
  show Agrees (Program.analyzeHttp payload) (Program.analyzeHttp payload)
  refine Agrees.ite (fun _ => ?_) fun _ => agrees_pure _
  cases Text.lines (fromUtf8Lossy payload) with
  | nil => exact agrees_pure _
  | cons firstLine lines =>
    exact (Program.agrees_parseFirstLine firstLine).bind (agrees_pure _)

end Agreement

/-! ## Lines -/

section Lines

variable {payload : List UInt8} {firstLine : List Char}

/-- Without three words there is no first line. -/
theorem parseFirstLine_of_length_lt (h : (Text.splitWhitespace firstLine).length < 3) :
    parseFirstLine firstLine = none := by
  unfold parseFirstLine Program.parseFirstLine
  rw [if_pos h]
  rfl

/-- What is taken from the words of a first line. -/
theorem parseFirstLine_words {part₀ part₁ part₂ : List Char} {parts : List (List Char)}
    (h : Text.splitWhitespace firstLine = part₀ :: part₁ :: part₂ :: parts) :
    parseFirstLine firstLine =
      if "HTTP/".toList.isPrefixOf firstLine then
        some ⟨parseHttpVersion part₀, none, none, none,
          (Text.fromStrRadix 10 16 part₁).map UInt16.ofNat, none⟩
      else if isHttpMethod part₀ then
        some ⟨parseHttpVersion part₂, some (String.ofList part₀), none,
          some (String.ofList part₁), none, none⟩
      else none := by
  unfold parseFirstLine Program.parseFirstLine
  rw [h, if_neg (by simp)]
  simp only [Access.run_ite, Id.run_bind, Access.run_index, Id.run_pure]
  rfl

/-- What does not look like HTTP is not taken for it. -/
theorem analyzeHttp_of_not_isLikelyHttp (h : isLikelyHttp payload = false) :
    analyzeHttp payload = none := by
  unfold analyzeHttp Program.analyzeHttp
  rw [h]
  rfl

/-- What is reported of the lines of a payload. -/
theorem analyzeHttp_lines {lines : List (List Char)} (h : isLikelyHttp payload = true)
    (hlines : Text.lines (fromUtf8Lossy payload) = firstLine :: lines) :
    analyzeHttp payload = (parseFirstLine firstLine).map fun info => parseHeaders info lines := by
  unfold analyzeHttp Program.analyzeHttp
  rw [if_pos h, hlines]
  rfl

end Lines

end Http

end RustNet
