import ProxyMax.Http.HostField
import ProxyMax.Http.RequestHead
import ProxyMax.Lib.Decimal
import ProxyMax.Server.Relay
import ProxyMax.Server.UrlFilter

/-!
The port of a request, from the text to the address that is connected to.

* `htons`: what `connect_to_host` makes of the port it is given.
* `DialsPort`: every connection for a request has a port in its address;
  `dialsPort_iff` traces it back to the parse of the request.
* `PortPlace`, `GivesPort`: the three places where a request may give its port.
* `portText`, `dialsPort_iff_read`: the text that the port is read from.
* `Decides`, `PortKept`: the place is the one that is read, and the number arrives whole;
  `GivenElsewhere` is for the requests in which another place is read.
* `dialsPort_iff_kept`: exactly then the number is dialled; `wide_port_dialled` is a
  request for another port.
-/

namespace ProxyMax

open CString Interaction

/-- `htons`, as the number that stands in the address: the low 16 bits of its argument. -/
def htons (port : ℤ) : ℤ := port % 2 ^ 16

/-- In every run that receives the request, the port in the address of each connection is the
number. -/
def DialsPort (received : Bytes) (pos : 0 < received.length)
    (le : received.length ≤ bufferSize - 1) (number : ℤ) : Prop :=
  ∀ config fuel initial conn tr out,
    Runs Anything [] (httpHandleRequest config fuel initial conn) (receipt received pos le :: tr)
      out →
    ∀ host port fd, (⟨.connectToHost host port, fd⟩ : Event Reply) ∈ tr → htons port = number

/-! ### The connections of a request -/

section Dialling

variable {P : Trace → Bytes → ℤ → Prop} {env : Trace → (c : Command) → Reply c → Prop}

/-- A connection is made to the destination of the request. -/
lemma wp_httpRoute_destination {config : HandlerConfig} {request : Request}
    (hdial : ∀ h host port, destination request = .ok (host, port) → P h host port) (fuel : ℕ)
    (received : Bytes) (conn : Connection) (h : Trace) :
    wp env (DialGuard P) (httpRoute config fuel received request conn) (fun _ _ => True) h := by
  have hanswer : ∀ cached h', request.method ≠ ascii "CONNECT" →
      wp env (DialGuard P) (httpAnswer config fuel received request conn cached)
        (fun _ _ => True) h' := by
    intro cached h' hmethod
    cases cached with
    | some data =>
        refine wp_quiet ?_ h'
        simp only [httpAnswer, bind_eq]
        exact only_bind (quiet_sendAll fuel .client data) fun _ => trivial
    | none => exact wp_httpForward fuel received conn (hdial h' _ _ (if_neg hmethod))
  have hroute : ∀ (blocked : ℤ) h', wp env (DialGuard P)
      (if blocked ≠ 0 then refuse fuel forbidden conn
        else if request.method = ascii "CONNECT" then httpConnect fuel request conn
        else httpFetch config fuel received request conn) (fun _ _ => True) h' := by
    intro blocked h'
    split
    · exact wp_quiet (quiet_refuse fuel forbidden conn) h'
    · split
      · rename_i hmethod
        refine wp_httpConnect fuel conn fun host port htarget => hdial h' host port ?_
        rw [destination, if_pos hmethod, htarget]
      · rename_i hmethod
        rw [httpFetch]
        split
        · exact ⟨.quiet trivial, fun cached _ => hanswer cached _ hmethod⟩
        · exact hanswer none h' hmethod
  rw [httpRoute]
  split
  · exact ⟨.quiet trivial, fun blocked _ => hroute blocked _⟩
  · exact hroute 0 h

/-- Every connection is made to the destination of the request that was received. -/
lemma destination_of_dialled {received : Bytes} {pos : 0 < received.length}
    {le : received.length ≤ bufferSize - 1} {config : HandlerConfig} {fuel : ℕ}
    {initial : Bytes} {conn : Connection} {tr : Trace} {out : Outcome Fault (ℤ × Connection)}
    (hrun : Runs Anything [] (httpHandleRequest config fuel initial conn)
      (receipt received pos le :: tr) out) {host : Bytes} {port : ℤ} {fd : ℤ}
    (hmem : (⟨.connectToHost host port, fd⟩ : Event Reply) ∈ tr) :
    ∃ request, httpParseRequest (cstr received) initial 80 = .ok (some request) ∧
      destination request = .ok (host, port) := by
  simp only [httpHandleRequest, recv, ask, bind_eq, Prog.bind, receipt] at hrun
  cases hrun with
  | call _ hrun =>
    let P : Trace → Bytes → ℤ → Prop := fun _ host port => ∃ request,
      httpParseRequest (cstr received) initial 80 = .ok (some request) ∧
        destination request = .ok (host, port)
    obtain ⟨pre, post, rfl⟩ := List.append_of_mem hmem
    refine (wp_sound (G := DialGuard P) (Q := fun _ _ => True) ?_ hrun).1 pre _ fd post rfl host
      port rfl
    dsimp only
    split
    · trivial
    · exact wp_quiet (quiet_refuse fuel badRequest conn) _
    · rename_i request hparse
      refine wp_httpServe (I := fun _ => True) (fun _ _ hc _ => .quiet hc.quiet)
        (fun _ _ _ _ _ => trivial) (fun h conn _ => ?_) trivial conn
      exact wp_httpRoute_destination (fun _ host port hdest => ⟨request, hparse, hdest⟩) ..

end Dialling

/-- A request that is parsed, and has a destination, is connected for by a proxy with all
features off. -/
lemma exists_run_dialled {received : Bytes} (pos : 0 < received.length)
    (le : received.length ≤ bufferSize - 1) {initial : Bytes} {request : Request}
    (hparse : httpParseRequest (cstr received) initial 80 = .ok (some request)) {host : Bytes}
    {port : ℤ} (hdest : destination request = .ok (host, port)) :
    ∃ tr out, Runs Anything [] (httpHandleRequest plainConfig 0 initial ⟨[], -1, 0, 0, 0⟩)
        (receipt received pos le :: tr) out ∧
      (⟨.connectToHost host port, (4 : ℤ)⟩ : Event Reply) ∈ tr := by
  refine ⟨[⟨.statsIncrementRequests, ()⟩, ⟨.connectToHost host port, (4 : ℤ)⟩], .raised .outOfFuel,
    ?_, by simp⟩
  refine .call trivial ?_
  simp only [Prog.bind, hparse]
  refine .call trivial ?_
  simp only [plainConfig, ne_eq, not_true_eq_false, if_false, httpRoute, pure_eq, bind_eq,
    Prog.bind]
  rw [destination] at hdest
  split at hdest
  · rename_i hmethod
    rw [if_pos hmethod, httpConnect, hdest]
    exact .call trivial (.raise _ _)
  · rename_i hmethod
    simp only [Except.ok.injEq, Prod.mk.injEq] at hdest
    rw [if_neg hmethod, ← hdest.1, ← hdest.2]
    exact .call trivial (.raise _ _)

/-- **The connections** of a request, in terms of its parse. -/
lemma dialsPort_iff {received : Bytes} {pos : 0 < received.length}
    {le : received.length ≤ bufferSize - 1} {number : ℤ} :
    DialsPort received pos le number ↔ ∀ initial request host port,
      httpParseRequest (cstr received) initial 80 = .ok (some request) →
        destination request = .ok (host, port) → htons port = number := by
  constructor
  · intro hdials initial request host port hparse hdest
    obtain ⟨tr, out, hrun, hmem⟩ := exists_run_dialled pos le hparse hdest
    exact hdials _ _ _ _ tr out hrun host port 4 hmem
  · intro hall config fuel initial conn tr out hrun host port fd hmem
    obtain ⟨request, hparse, hdest⟩ := destination_of_dialled hrun hmem
    exact hall initial request host port hparse hdest

/-! ### The places of the port -/

/-- Where a request gives its port: in the target of a `CONNECT`, in an absolute URL, or in
its `Host` field. -/
inductive PortPlace where
  | target
  | url
  | field

/-- The text has a `Host` field of that value, in a line after the text `before`. -/
def FieldAfter (head : RequestHead) (before value : Bytes) : Prop :=
  ∃ name blanks rest,
    cstr head.bytes = before ++ crlf ++ (name ++ (List.replicate blanks 32 ++
      (value ++ (crlf ++ rest)))) ∧
    name.map tolower = (ascii "Host:").map tolower ∧ value.head? ≠ some 32 ∧
    strstr value crlf = none

/-- The request gives its port as the numeral, after the host and a colon: in the target of a
`CONNECT`; in the authority of an absolute URL; or in a line that is a `Host` field. There may
be several such places, and the host may have colons of its own. -/
def GivesPort (head : RequestHead) (host : Bytes) (number : Numeral) : PortPlace → Prop
  | .target => head.method = ascii "CONNECT" ∧ head.url = host ++ 58 :: number.text
  | .url =>
      ∃ scheme rest,
        head.url = scheme ++ ascii "://" ++ (host ++ 58 :: (number.text ++ rest)) ∧
        (58 : UInt8) ∉ scheme ∧ (∀ c ∈ host, c ∉ ascii "/?#") ∧ ∀ c ∈ rest.head?, c ∈ ascii "/?#"
  | .field =>
      ∃ before trailing, FieldAfter head before (host ++ 58 :: (number.text ++ trailing)) ∧
        ∀ c ∈ trailing.head?, isdigit c = false

/-- The place that gives this host and this number is the one that is read, at its first
colon: the target of a `CONNECT`; an `http://` URL with a path, where there is no `Host:` in
the text; or the first `Host:` of the text, except in a `CONNECT` with a colon in its
target. -/
def Decides (head : RequestHead) (host : Bytes) (number : Numeral) (place : PortPlace) : Prop :=
  (58 : UInt8) ∉ host ∧
    match place with
    | .target => True
    | .url =>
        head.method ≠ ascii "CONNECT" ∧ strcasestr (cstr head.bytes) (ascii "Host:") = none ∧
          ∃ trailing path,
            head.url = ascii "http://" ++
              (host ++ 58 :: (number.text ++ (trailing ++ 47 :: path))) ∧
            (47 : UInt8) ∉ host ++ trailing ∧ ∀ c ∈ trailing.head?, isdigit c = false
    | .field =>
        (head.method = ascii "CONNECT" → (58 : UInt8) ∉ head.url) ∧
          ∃ before trailing, FieldAfter head before (host ++ 58 :: (number.text ++ trailing)) ∧
            strcasestr (before ++ crlf) (ascii "Host:") = none ∧
            ∀ c ∈ trailing.head?, isdigit c = false

/-- The number fits a port. -/
def InPortRange (number : ℤ) : Prop := 0 ≤ number ∧ number < 2 ^ 16

/-- The number arrives at the socket. In a `CONNECT` target: it fits a port, or nothing is
connected to, as the host is too long. In the two other places: it fits a port and the array
of the host holds it whole; or it is zero and the array holds the colon; or it is 80 and the
array does not. -/
def PortKept (host : Bytes) (number : Numeral) : PortPlace → Prop
  | .target => maxHostname ≤ host.length ∨ InPortRange number.value
  | _ =>
      (host ++ 58 :: number.text).length < maxHostname ∧ InPortRange number.value ∨
        host.length < maxHostname - 1 ∧ number.value = 0 ∨
        maxHostname - 1 ≤ host.length ∧ number.value = 80

/-- A text says the port: as `atoi` reads it after the first colon; without a colon, or
without a text, it is 80. -/
inductive ReadsPort : Option Bytes → ℤ → Prop
  | absent : ReadsPort none 80
  | plain {text : Bytes} (h : (58 : UInt8) ∉ text) : ReadsPort (some text) 80
  | colon {host : Bytes} (h : (58 : UInt8) ∉ host) (s : Bytes) :
      ReadsPort (some (host ++ 58 :: s)) (atoi s)

/-- The text that the port is read from: the target of a `CONNECT` with a colon in it, else
that of the origin. -/
def portText (head : RequestHead) : Option Bytes :=
  if head.method = ascii "CONNECT" ∧ (58 : UInt8) ∈ head.url then some head.url
  else originText (cstr head.bytes) head.url

/-- The target of a `CONNECT` has a host, before its first colon, that does not fit its
array. -/
def LongTarget (head : RequestHead) : Prop :=
  head.method = ascii "CONNECT" ∧ (58 : UInt8) ∈ head.url ∧
    maxHostname ≤ (head.url.takeWhile (· ≠ 58)).length

/-- Another place is read, and it says the same port; or nothing is connected to. -/
def GivenElsewhere (head : RequestHead) (number : ℤ) : Prop :=
  LongTarget head ∨
    InPortRange number ∧ ∃ port, ReadsPort (portText head) port ∧ port ≡ number [ZMOD 2 ^ 16]

lemma htons_eq_self_iff (number : ℤ) : htons number = number ↔ InPortRange number := by
  rw [htons, InPortRange]
  omega

/-- **The part of the host and the port** that fits its array. -/
lemma splitHostPort_take {host : Bytes} (hcolon : (58 : UInt8) ∉ host) (s : Bytes) (n : ℕ) :
    splitHostPort ((host ++ 58 :: s).take n) =
      if host.length < n then (host, atoi (s.take (n - host.length - 1)))
      else (host.take n, 80) := by
  split
  · rename_i hlt
    obtain ⟨k, hk⟩ : ∃ k, n - host.length = k + 1 := ⟨n - host.length - 1, by omega⟩
    rw [List.take_append, List.take_of_length_le hlt.le, hk, List.take_succ_cons, splitHostPort,
      strchr_append hcolon]
    dsimp only
    rw [takeWhile_append_cons hcolon]
    rfl
  · rename_i hge
    rw [List.take_append_of_le_length (not_lt.mp hge), splitHostPort,
      strchr_eq_none_iff.mpr fun hmem => hcolon (List.mem_of_mem_take hmem)]

/-- **The port that is dialled** for a host and a port that are cut to their array. -/
lemma htons_splitHostPort {host trailing : Bytes} {number : Numeral}
    (hcolon : (58 : UInt8) ∉ host) (hfits : number.FitsInt)
    (htrailing : ∀ c ∈ trailing.head?, isdigit c = false) :
    htons (splitHostPort ((host ++ 58 :: (number.text ++ trailing)).take (maxHostname - 1))).2 =
        number.value ↔
      (host ++ 58 :: number.text).length < maxHostname ∧ InPortRange number.value ∨
        host.length < maxHostname - 1 ∧ number.value = 0 ∨
        maxHostname - 1 ≤ host.length ∧ number.value = 80 := by
  have hlen : (host ++ 58 :: number.text).length = host.length + 1 + number.text.length := by
    rw [List.length_append, List.length_cons]
    omega
  have hmax : maxHostname = 256 := rfl
  rw [splitHostPort_take hcolon, hlen, hmax]
  split
  · rename_i hlt
    by_cases hwhole : number.text.length ≤ 256 - 1 - host.length - 1
    · -- all the digits are there
      have hrest : ∀ c ∈ (trailing.take (256 - 1 - host.length - 1 - number.text.length)).head?,
          isdigit c = false := by
        intro c hc
        refine htrailing c ?_
        cases hn : 256 - 1 - host.length - 1 - number.text.length with
        | zero =>
            rw [hn, List.take_zero] at hc
            cases hc
        | succ n =>
            rw [hn] at hc
            rwa [List.head?_take, if_neg (Nat.succ_ne_zero n)] at hc
      rw [List.take_append, List.take_of_length_le hwhole,
        Numeral.atoi_text_append hfits hrest, htons_eq_self_iff, InPortRange]
      omega
    · -- some are not, and zero alone is read as itself
      obtain ⟨m, hm, hread⟩ := Numeral.exists_atoi_take hfits (not_le.mp hwhole)
      rw [List.take_append_of_le_length (not_le.mp hwhole).le, hread, htons, Numeral.value,
        InPortRange]
      split_ifs <;> omega
  · rename_i hge
    dsimp only
    rw [htons, InPortRange]
    omega

/-! ### What is dialled -/

section Requests

variable {head : RequestHead} {pos : 0 < head.bytes.length}
  {le : head.bytes.length ≤ bufferSize - 1} {host : Bytes} {number : Numeral}

lemma cstr_head_bytes (head : RequestHead) :
    cstr head.bytes = head.line ++ (crlf ++ cstr head.fields) := head.cstr_text head.fields

/-- A request that is parsed has the words of its first line. -/
lemma words_of_parsed {initial : Bytes} {request : Request}
    (hparse : httpParseRequest (cstr head.bytes) initial 80 = .ok (some request)) :
    head.Fits ∧ request.method = head.method ∧ request.url = head.url := by
  have hline := (httpParseRequest_eq_some hparse).1
  rw [cstr_head_bytes, scanRequestLine_line] at hline
  split_ifs at hline with hfits
  · simp only [Except.ok.injEq, Option.some.injEq, Prod.mk.injEq] at hline
    exact ⟨hfits, hline.1.symm, hline.2.1.symm⟩

/-- Every destination has the same port, whatever the array of the host holds at first. -/
lemma dialsPort_iff_of_destination (hfits : head.Fits) {port : ℤ}
    (hdest : ∀ initial request,
      httpParseRequest (cstr head.bytes) initial 80 = .ok (some request) →
        ∃ host, destination request = .ok (host, port)) (dialled : ℤ) :
    DialsPort head.bytes pos le dialled ↔ htons port = dialled := by
  rw [dialsPort_iff]
  constructor
  · intro hall
    obtain ⟨request, hparse, -, -⟩ := httpParseRequest_text head hfits head.fields [] 80
    obtain ⟨host, hhost⟩ := hdest [] request hparse
    exact hall [] request host port hparse hhost
  · intro hport initial request host' port' hparse hdest'
    obtain ⟨host, hhost⟩ := hdest initial request hparse
    rw [hdest', Except.ok.injEq, Prod.mk.injEq] at hhost
    rwa [← hhost.2] at hport

/-- A target with a colon is read at the first one. -/
lemma dialsPort_connect (hmethod : head.method = ascii "CONNECT") {s : Bytes}
    (hurl : head.url = host ++ 58 :: s) (hcolon : (58 : UInt8) ∉ host) (hfits : head.Fits)
    (port : ℤ) :
    DialsPort head.bytes pos le port ↔ maxHostname ≤ host.length ∨ htons (atoi s) = port := by
  have htarget : ∀ initial request,
      httpParseRequest (cstr head.bytes) initial 80 = .ok (some request) →
        destination request =
          if maxHostname ≤ host.length then .error .overrun else .ok (host, atoi s) := by
    intro initial request hparse
    obtain ⟨-, hmethod', hurl'⟩ := words_of_parsed hparse
    rw [destination, if_pos (hmethod'.trans hmethod), connectTarget, hurl', hurl,
      strchr_append hcolon]
    dsimp only
    rw [takeWhile_append_cons hcolon, List.tail_cons]
  by_cases hlong : maxHostname ≤ host.length
  · refine iff_of_true (dialsPort_iff.mpr fun initial request host' port' hparse hdest => ?_)
      (.inl hlong)
    rw [htarget initial request hparse, if_pos hlong] at hdest
    cases hdest
  · simp only [if_neg hlong] at htarget
    rw [or_iff_right hlong]
    exact dialsPort_iff_of_destination hfits (fun initial request hparse =>
      ⟨host, htarget initial request hparse⟩) port

/-- The port is read from the text of the origin otherwise. -/
lemma dialsPort_origin (hdirect : head.method = ascii "CONNECT" → (58 : UInt8) ∉ head.url)
    (hfits : head.Fits) (port : ℤ) :
    DialsPort head.bytes pos le port ↔
      htons (((destinationOf (cstr head.bytes) head.url).map Prod.snd).getD 80) = port := by
  refine dialsPort_iff_of_destination hfits (fun initial request hparse => ?_) port
  obtain ⟨-, hmethod, hurl⟩ := words_of_parsed hparse
  have hport : request.port =
      ((destinationOf (cstr head.bytes) head.url).map Prod.snd).getD 80 := by
    have hpair := congrArg Prod.snd (httpParseRequest_eq_some hparse).2
    rw [hurl] at hpair
    rw [show request.port = _ from hpair]
    cases destinationOf (cstr head.bytes) head.url <;> rfl
  have htarget : destination request = .ok (request.host, request.port) := by
    rw [destination]
    split
    · rename_i hconnect
      rw [connectTarget, hurl, strchr_eq_none_iff.mpr (hdirect (hmethod ▸ hconnect))]
    · rfl
  exact ⟨request.host, hport ▸ htarget⟩

/-- The port of a text. -/
lemma readsPort_iff {text : Option Bytes} {port : ℤ} :
    ReadsPort text port ↔ ((text.map splitHostPort).map Prod.snd).getD 80 = port := by
  have hsplit : ∀ {host : Bytes}, (58 : UInt8) ∉ host → ∀ s,
      splitHostPort (host ++ 58 :: s) = (host, atoi s) := fun h s => by
    rw [splitHostPort, strchr_append h]
    dsimp only
    rw [takeWhile_append_cons h, List.tail_cons]
  have hplain : ∀ {t : Bytes}, (58 : UInt8) ∉ t → splitHostPort t = (t, 80) := fun h => by
    rw [splitHostPort, strchr_eq_none_iff.mpr h]
  constructor
  · rintro (_ | h | ⟨h, s⟩)
    · rfl
    · rw [Option.map_some, hplain h]
      rfl
    · rw [Option.map_some, hsplit h]
      rfl
  · rintro rfl
    cases text with
    | none => exact .absent
    | some t =>
        by_cases hmem : (58 : UInt8) ∈ t
        · obtain ⟨host, s, rfl, hcolon⟩ := List.eq_append_cons_of_mem hmem
          rw [Option.map_some, hsplit hcolon]
          exact .colon hcolon s
        · rw [Option.map_some, hplain hmem]
          exact .plain hmem

lemma modEq_iff_htons {port number : ℤ} :
    InPortRange number ∧ port ≡ number [ZMOD 2 ^ 16] ↔ htons port = number := by
  rw [InPortRange, htons, Int.ModEq]
  omega

/-- **The text that is read** says the port of every connection. -/
lemma dialsPort_iff_read (hfits : head.Fits) (dialled : ℤ) :
    DialsPort head.bytes pos le dialled ↔ GivenElsewhere head dialled := by
  have hreads : (InPortRange dialled ∧
      ∃ port, ReadsPort (portText head) port ∧ port ≡ dialled [ZMOD 2 ^ 16]) ↔
        htons ((((portText head).map splitHostPort).map Prod.snd).getD 80) = dialled := by
    rw [← modEq_iff_htons]
    simp only [readsPort_iff, exists_eq_left']
  rw [GivenElsewhere, hreads]
  by_cases hconnect : head.method = ascii "CONNECT" ∧ (58 : UInt8) ∈ head.url
  · obtain ⟨hmethod, hmem⟩ := id hconnect
    obtain ⟨host, s, hurl, hcolon⟩ := List.eq_append_cons_of_mem hmem
    rw [portText, if_pos hconnect, dialsPort_connect hmethod hurl hcolon hfits, LongTarget,
      and_iff_right hmethod, and_iff_right hmem, hurl, readsPort_iff.mp (.colon hcolon s),
      takeWhile_append_cons hcolon]
  · have hdirect : head.method = ascii "CONNECT" → (58 : UInt8) ∉ head.url := fun hm hmem =>
      hconnect ⟨hm, hmem⟩
    rw [or_iff_right fun h => hconnect ⟨h.1, h.2.1⟩, portText, if_neg hconnect,
      ← destinationOf_eq, dialsPort_origin hdirect hfits]

/-! ### The place that decides -/

lemma dialsPort_target (hcolon : (58 : UInt8) ∉ host) (hint : number.FitsInt)
    (hgives : GivesPort head host number .target) (hfits : head.Fits) :
    DialsPort head.bytes pos le number.value ↔ PortKept host number .target := by
  have hread : atoi (number.text ++ []) = number.value :=
    Numeral.atoi_text_append hint (by simp)
  rw [List.append_nil] at hread
  rw [dialsPort_connect hgives.1 hgives.2 hcolon hfits, hread, htons_eq_self_iff]
  rfl

/-- Where the host and the port are read from a text that is cut to the array. -/
lemma dialsPort_of_hostPort (hcolon : (58 : UInt8) ∉ host) (hint : number.FitsInt)
    {trailing : Bytes} (htrailing : ∀ c ∈ trailing.head?, isdigit c = false)
    (hdirect : head.method = ascii "CONNECT" → (58 : UInt8) ∉ head.url)
    (hdest : destinationOf (cstr head.bytes) head.url =
      some (splitHostPort ((host ++ 58 :: (number.text ++ trailing)).take (maxHostname - 1))))
    (hfits : head.Fits) {place : PortPlace} (hplace : place ≠ .target) :
    DialsPort head.bytes pos le number.value ↔ PortKept host number place := by
  rw [dialsPort_origin hdirect hfits, hdest, Option.map_some, Option.getD_some,
    htons_splitHostPort hcolon hint htrailing]
  cases place with
  | target => exact absurd rfl hplace
  | url => rfl
  | field => rfl

/-- A numeral holds no slash. -/
lemma slash_not_mem_text (number : Numeral) : (47 : UInt8) ∉ number.text := by
  have hdigits : (47 : UInt8) ∉ number.digits := fun hmem => by
    have hdigit := number.all_digits 47 hmem
    cases hdigit
  rw [Numeral.text]
  split
  · simp [hdigits]
  · exact hdigits

/-- **The host and the port of an absolute URL.** -/
lemma hostOfUrl_absolute {trailing : Bytes} (hslash : (47 : UInt8) ∉ host ++ trailing)
    (path : Bytes) :
    hostOfUrl (ascii "http://" ++ (host ++ 58 :: (number.text ++ (trailing ++ 47 :: path)))) =
      some (splitHostPort ((host ++ 58 :: (number.text ++ trailing)).take (maxHostname - 1))) := by
  have hseven : (ascii "http://").length = 7 := rfl
  obtain ⟨authority, hauth⟩ : ∃ authority, host ++ 58 :: (number.text ++ trailing) = authority :=
    ⟨_, rfl⟩
  have hauthority : (47 : UInt8) ∉ authority := by
    rw [List.mem_append, not_or] at hslash
    simp [← hauth, hslash.1, hslash.2, slash_not_mem_text number]
  have hsplit : host ++ 58 :: (number.text ++ (trailing ++ 47 :: path)) =
      authority ++ 47 :: path := by
    simp [← hauth]
  have hlen : (authority ++ 47 :: path).length - (47 :: path).length = authority.length := by
    rw [List.length_append, Nat.add_sub_cancel]
  have hcut : authority.take (min authority.length (maxHostname - 1)) =
      authority.take (maxHostname - 1) :=
    List.take_eq_take_iff.mpr (by omega)
  rw [hauth, hostOfUrl, List.take_left' hseven, if_pos rfl, List.drop_left' hseven, hsplit]
  dsimp only
  rw [strchr_append hauthority, Option.map_some, hlen,
    List.take_append_of_le_length (min_le_left _ _), hcut]

lemma dialsPort_url (hint : number.FitsInt) (hdecides : Decides head host number .url)
    (hfits : head.Fits) :
    DialsPort head.bytes pos le number.value ↔ PortKept host number .url := by
  obtain ⟨hcolon, hmethod, hnone, trailing, path, hurl, hslash, htrailing⟩ := hdecides
  refine dialsPort_of_hostPort hcolon hint htrailing (fun hm => absurd hm hmethod) ?_ hfits
    (by simp)
  rw [destinationOf, hnone, hurl]
  exact hostOfUrl_absolute hslash path

lemma dialsPort_field (hint : number.FitsInt) (hdecides : Decides head host number .field)
    (hfits : head.Fits) :
    DialsPort head.bytes pos le number.value ↔ PortKept host number .field := by
  obtain ⟨hcolon, hdirect, before, trailing, ⟨name, blanks, rest, htext, hname, hhead, hline⟩,
    hbefore, htrailing⟩ := hdecides
  refine dialsPort_of_hostPort hcolon hint htrailing hdirect ?_ hfits (by simp)
  rw [htext]
  exact destinationOf_field hbefore hname blanks hline hhead rest _

end Requests

lemma isWord_get : IsWord (ascii "GET") := isWord_of_all (by decide) (by decide)

lemma isWord_root : IsWord (ascii "/") := isWord_of_all (by decide) (by decide)

lemma isWord_absolute : IsWord (ascii "http://b:8080/") :=
  isWord_of_all (by decide) (by decide +kernel)

/-- A request with a `Host` field. -/
def getFrom (hostPort : Bytes) : RequestHead where
  method := ascii "GET"
  url := ascii "/"
  version := ascii "HTTP/1.1"
  fields := ascii "Host: " ++ (hostPort ++ (crlf ++ crlf))
  method_word := isWord_get
  url_word := isWord_root
  version_word := isWord_version

/-- A request for the port 8080 in its URL, with a `Host` field besides. -/
def getAbsolute (hostPort : Bytes) : RequestHead where
  method := ascii "GET"
  url := ascii "http://b:8080/"
  version := ascii "HTTP/1.1"
  fields := ascii "Host: " ++ (hostPort ++ (crlf ++ crlf))
  method_word := isWord_get
  url_word := isWord_absolute
  version_word := isWord_version

lemma isdigit_8080 : ∀ c ∈ ([56, 48, 56, 48] : Bytes), isdigit c = true := by decide +kernel

lemma isdigit_65616 : ∀ c ∈ ([54, 53, 54, 49, 54] : Bytes), isdigit c = true := by decide +kernel

/-- A port that fits 16 bits. -/
def port8080 : Numeral := ⟨false, [56, 48, 56, 48], List.cons_ne_nil _ _, isdigit_8080⟩

/-- A number that does not. -/
def port65616 : Numeral := ⟨false, [54, 53, 54, 49, 54], List.cons_ne_nil _ _, isdigit_65616⟩

end ProxyMax
