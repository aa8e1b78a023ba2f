import ProxyMax.Server.Io

/-!
`http_parse_request` of `src/protocols/http.c`.

* `Request`: what the parser writes, the five variables of its caller.
* `scanRequestLine`: its `sscanf`, which fails where a word does not fit its
  array.
* `splitHostPort`, `hostOfHeader`, `hostOfUrl`: the two places the destination is
  taken from.
* `destinationOf`, `httpParseRequest`: the parser; `httpParseRequest_eq_some` is
  what it says of a request it accepts.
* `originText`: the text that is split into the host and the port.
-/

namespace ProxyMax

open CString

/-- `MAX_HOSTNAME`. -/
def maxHostname : ℕ := 256

/-- `MAX_PATH`. -/
def maxPath : ℕ := 4096

/-- The carriage return and the line feed. -/
def crlf : Bytes := [13, 10]

/-- The variables of the caller that the parser writes. -/
structure Request where
  method : Bytes
  url : Bytes
  version : Bytes
  host : Bytes
  port : ℤ
deriving DecidableEq, Repr

/-- A `%s` into an array of `size` bytes: the word and the text after it, or
`none` at the end of the text. -/
def scanWord (size : ℕ) (s : Bytes) : Except Fault (Option (Bytes × Bytes)) :=
  let (word, rest) := scanToken s
  if word = [] then .ok none
  else if size ≤ word.length then .error .overrun
  else .ok (some (word, rest))

/-- `sscanf(buffer, "%s %s %s", method, url, version)`: the three words, or `none`
when there are fewer. -/
def scanRequestLine (buffer : Bytes) : Except Fault (Option (Bytes × Bytes × Bytes)) := do
  match ← scanWord 16 buffer with
  | none => pure none
  | some (method, rest) =>
      match ← scanWord maxPath rest with
      | none => pure none
      | some (url, rest) =>
          match ← scanWord 16 rest with
          | none => pure none
          | some (version, _) => pure (some (method, url, version))

/-- The host and the port of the text in `host_port`. -/
def splitHostPort (hostPort : Bytes) : Bytes × ℤ :=
  match strchr hostPort 58 with
  | some colon => (hostPort.takeWhile (· ≠ 58), atoi colon.tail)
  | none => (hostPort, 80)

/-- The destination in a `Host` header, found at `hostHeader`; `none` when no line
end follows, and nothing is written. -/
def hostOfHeader (hostHeader : Bytes) : Option (Bytes × ℤ) :=
  let hostHeader := (hostHeader.drop 5).dropWhile (· = 32)
  (strstr hostHeader crlf).map fun hostEnd =>
    splitHostPort (hostHeader.take (min (hostHeader.length - hostEnd.length) (maxHostname - 1)))

/-- The destination in an absolute URL; `none` when there is none, and nothing is
written. -/
def hostOfUrl (url : Bytes) : Option (Bytes × ℤ) :=
  if url.take 7 = ascii "http://" then
    let hostStart := url.drop 7
    (strchr hostStart 47).map fun pathStart =>
      splitHostPort (hostStart.take (min (hostStart.length - pathStart.length) (maxHostname - 1)))
  else none

/-- The destination that the parser writes, if it writes one: from the first
`Host:` of the text, else from the URL. -/
def destinationOf (buffer url : Bytes) : Option (Bytes × ℤ) :=
  match strcasestr buffer (ascii "Host:") with
  | some hostHeader => hostOfHeader hostHeader
  | none => hostOfUrl url

/-- `http_parse_request`: `none` where it returns -1. The text is the string in
`buffer`, and `host` and `port` are what the variables held before. -/
def httpParseRequest (buffer host : Bytes) (port : ℤ) : Except Fault (Option Request) := do
  if strstr buffer crlf = none then pure none
  else
    match ← scanRequestLine buffer with
    | none => pure none
    | some (method, url, version) =>
        let (host, port) := (destinationOf buffer url).getD (host, port)
        pure (some { method, url, version, host, port })

/-- **A successful parse.** -/
lemma httpParseRequest_eq_some {buffer host : Bytes} {port : ℤ} {request : Request}
    (h : httpParseRequest buffer host port = .ok (some request)) :
    scanRequestLine buffer = .ok (some (request.method, request.url, request.version)) ∧
      (request.host, request.port) = (destinationOf buffer request.url).getD (host, port) := by
  rw [httpParseRequest] at h
  split at h
  · simp [pure, Except.pure] at h
  · cases hline : scanRequestLine buffer with
    | error fault => simp [hline, bind, Except.bind] at h
    | ok words =>
        rcases words with _ | ⟨method, url, version⟩
        · simp [hline, bind, Except.bind, pure, Except.pure] at h
        · simp only [hline, bind, Except.bind, pure, Except.pure, Except.ok.injEq,
            Option.some.injEq] at h
          subst h
          exact ⟨rfl, rfl⟩

/-! ### The text of the destination -/

/-- The value of the `Host` header found at `hostHeader`, as far as `host_port` holds it. -/
def headerText (hostHeader : Bytes) : Option Bytes :=
  let value := (hostHeader.drop 5).dropWhile (· = 32)
  (strstr value crlf).map fun hostEnd =>
    value.take (min (value.length - hostEnd.length) (maxHostname - 1))

/-- The authority of an absolute URL, as far as `host_port` holds it. -/
def urlText (url : Bytes) : Option Bytes :=
  if url.take 7 = ascii "http://" then
    (strchr (url.drop 7) 47).map fun pathStart =>
      (url.drop 7).take (min ((url.drop 7).length - pathStart.length) (maxHostname - 1))
  else none

/-- The text that the destination of a request is read from: the value of the first
`Host:` of the message, else the authority of the URL. -/
def originText (buffer url : Bytes) : Option Bytes :=
  match strcasestr buffer (ascii "Host:") with
  | some hostHeader => headerText hostHeader
  | none => urlText url

lemma hostOfHeader_eq (hostHeader : Bytes) :
    hostOfHeader hostHeader = (headerText hostHeader).map splitHostPort := by
  rw [hostOfHeader, headerText, Option.map_map]
  rfl

lemma hostOfUrl_eq (url : Bytes) : hostOfUrl url = (urlText url).map splitHostPort := by
  rw [hostOfUrl, urlText]
  split
  · rw [Option.map_map]
    rfl
  · rfl

lemma destinationOf_eq (buffer url : Bytes) :
    destinationOf buffer url = (originText buffer url).map splitHostPort := by
  rw [destinationOf, originText]
  split
  · exact hostOfHeader_eq _
  · exact hostOfUrl_eq _

/-- The origin of a request that names one is the text, split. -/
lemma origin_of_originText {buffer host text : Bytes} {port : ℤ} {request : Request}
    (h : httpParseRequest buffer host port = .ok (some request))
    (htext : originText buffer request.url = some text) :
    (request.host, request.port) = splitHostPort text := by
  rw [(httpParseRequest_eq_some h).2, destinationOf_eq, htext]
  rfl

/-! ### The destination in the URL -/

/-- The host is a part of the text it is taken from. -/
lemma splitHostPort_prefix (hostPort : Bytes) : (splitHostPort hostPort).1 <+: hostPort := by
  rw [splitHostPort]
  split
  · exact List.takeWhile_prefix _
  · exact List.prefix_refl _

lemma hostOfUrl_isInfix {url host : Bytes} {port : ℤ} (h : hostOfUrl url = some (host, port)) :
    host <:+: url := by
  rw [hostOfUrl] at h
  split at h
  · obtain ⟨pathStart, _, hsplit⟩ := Option.map_eq_some_iff.mp h
    have hpre := splitHostPort_prefix ((url.drop 7).take
      (min ((url.drop 7).length - pathStart.length) (maxHostname - 1)))
    rw [hsplit] at hpre
    calc host <:+: (url.drop 7).take
          (min ((url.drop 7).length - pathStart.length) (maxHostname - 1)) := hpre.isInfix
      _ <:+: url.drop 7 := (List.take_prefix _ _).isInfix
      _ <:+: url := (List.drop_suffix _ _).isInfix
  · simp at h

end ProxyMax
