import ProxyMax.Http.Handler
import ProxyMax.Http.RequestHead
import ProxyMax.Server.Network
import ProxyMax.Socks5.Messages

/-!
The bytes that arrive right after a request for a tunnel.

* `Connected`: the connection to the destination was made.
* `CarriesOver`: in every run that connects, the bytes after the request are the first
  ones that the destination gets.
* `Silent`: a connection, and nothing sent through it.
* `RequestHead.Admitted`: the requests that the handler connects for.
* `carriesOver_iff`: no such bytes are carried over.
-/

namespace ProxyMax

open CString Interaction

/-- The connection to the destination was made. -/
def Connected (h : Trace) : Prop :=
  ∃ host port, ∃ fd : ℤ, 0 ≤ fd ∧ (⟨.connectToHost host port, fd⟩ : Event Reply) ∈ h

/-- The request and the bytes `extra` arrive at once. In every run that connects, the
destination gets these bytes first. -/
def CarriesOver (request extra : Bytes) (p : ℕ → Handler (ℤ × Connection)) : Prop :=
  ∀ net : Network, net.pieces = [request ++ extra] → ∀ fuel tr a,
    Runs net.answers [] (p fuel) tr (.returned a) → Connected tr → extra <+: acceptedBy .remote tr

/-- The handler connects, and sends nothing to the destination. -/
structure Silent (h h' : Trace) : Prop where
  connected : Connected h'
  toRemote : acceptedBy .remote h' = acceptedBy .remote h

/-- A run without a word to the destination carries nothing over. -/
lemma not_carriesOver {request extra : Bytes} (hextra : extra ≠ [])
    {p : ℕ → Handler (ℤ × Connection)} {fuel : ℕ}
    (hends : Ends (Network.plain [request ++ extra]).answers (fun _ => False) (p fuel)
      (fun _ h' => Silent [] h') []) : ¬CarriesOver request extra p := by
  intro hcarries
  obtain ⟨tr, a, hrun, hsilent⟩ := exists_returned (Network.exists_answer _) hends
  have hnothing : acceptedBy .remote tr = [] := hsilent.toRemote
  have hfirst := hcarries _ rfl fuel tr a hrun hsilent.connected
  rw [hnothing] at hfirst
  exact hextra (List.prefix_nil.mp hfirst)

/-- A call that does not connect. -/
def Unconnecting (_ : Trace) (c : Command) : Prop := ∀ host port, c ≠ .connectToHost host port

/-- Where no connection is made there is nothing to carry over. -/
lemma carriesOver_of_wp {request extra : Bytes} {p : ℕ → Handler (ℤ × Connection)}
    (hwp : ∀ net : Network, net.pieces = [request ++ extra] → ∀ fuel,
      wp net.answers Unconnecting (p fuel) (fun _ _ => True) []) :
    CarriesOver request extra p := by
  rintro net hpieces fuel tr a hrun ⟨host, port, fd, -, hmem⟩
  obtain ⟨pre, post, htr⟩ := List.append_of_mem hmem
  exact absurd rfl ((wp_sound (hwp net hpieces fuel) hrun).1 pre _ fd post htr host port)

lemma wp_refuse_unconnecting {env : Trace → (c : Command) → Reply c → Prop} (fuel : ℕ)
    (response : Bytes) (conn : Connection) (h : Trace) :
    wp env Unconnecting (refuse fuel response conn) (fun _ _ => True) h := by
  refine wp_of_only (I := fun _ => True) (fun h c hc _ => ?_) (fun _ _ _ _ _ => trivial)
    (only_refuse fuel response conn) trivial
  obtain ⟨bytes, rfl⟩ := hc
  exact fun host port hne => by simp at hne

namespace Silent

variable {h h' h'' : Trace}

lemma of_connect (h : Trace) (host : Bytes) (port : ℤ) {fd : ℤ} (hfd : 0 ≤ fd) :
    Silent h (h ++ [⟨.connectToHost host port, fd⟩]) := by
  refine ⟨⟨host, port, fd, hfd, by simp⟩, ?_⟩
  rw [acceptedBy_snoc]
  exact List.append_nil _

lemma snoc (hs : Silent h h') {e : Event Reply} (he : accepted .remote e = []) :
    Silent h (h' ++ [e]) := by
  obtain ⟨⟨host, port, fd, hfd, hmem⟩, hremote⟩ := hs
  refine ⟨⟨host, port, fd, hfd, List.mem_append_left _ hmem⟩, ?_⟩
  rw [acceptedBy_snoc, he, List.append_nil, hremote]

lemma sent (hs : Silent h h') {bytes : Bytes} (ht : SentTo .client bytes h' h'') :
    Silent h h'' := by
  obtain ⟨⟨host, port, fd, hfd, hmem⟩, hremote⟩ := hs
  refine ⟨⟨host, port, fd, hfd, ?_⟩, ?_⟩
  · obtain ⟨tr, rfl, -⟩ := ht
    exact List.mem_append_left _ hmem
  · exact (ht.acceptedBy_other (Peer.other_ne .client)).trans hremote

lemma trans_left (h : Trace) {h₀ h' : Trace} (hs : Silent h₀ h')
    (he : acceptedBy .remote h₀ = acceptedBy .remote h) : Silent h h' :=
  ⟨hs.connected, hs.toRemote.trans he⟩

end Silent

/-! ### The tunnels -/

section Tunnels

variable {net : Network} (hquiet : net.quiet = true)
  (hconnect : ∀ host port, 0 ≤ net.connect host port) {F : Fault → Prop} {fuel : ℕ}

include hquiet hconnect

lemma ends_httpConnect (hfuel : connectionEstablished.length < fuel) {request : Request}
    {target : Bytes × ℤ} (htarget : connectTarget request = .ok target) (conn : Connection)
    (h : Trace) :
    Ends net.answers F (httpConnect fuel request conn) (fun _ h' => Silent h h') h := by
  rw [httpConnect, htarget]
  obtain ⟨host, port⟩ := target
  simp only [connectToHost, bind_eq, pure_eq, ends_bind, ends_ask]
  intro (fd : ℤ) hfd
  have hfd' : 0 ≤ fd := (hconnect host port).trans_eq (Eq.symm hfd)
  rw [if_neg (not_lt.mpr hfd')]
  refine (ends_bind ..).mpr (ends_mono (ends_sendAll net.sendsSucceed hfuel) ?_)
  rintro ret h₁ ⟨-, hs⟩
  refine (ends_bind ..).mpr (ends_mono (ends_tunnel_quiet hquiet (by omega) _ _ _ h₁) ?_)
  rintro conn' h₂ ⟨-, rfl⟩
  exact ((Silent.of_connect h host port hfd').sent hs).snoc rfl

lemma ends_socks5Connect_silent (hfuel : 10 < fuel) (host : Bytes) (port : ℤ) (conn : Connection)
    (h : Trace) :
    Ends net.answers F (socks5Connect fuel host port conn) (fun _ h' => Silent h h') h := by
  simp only [socks5Connect, connectToHost, getsockname, bind_eq, pure_eq, ends_bind, ends_ask]
  intro (fd : ℤ) hfd
  have hfd' : 0 ≤ fd := (hconnect host port).trans_eq (Eq.symm hfd)
  rw [if_neg (not_lt.mpr hfd')]
  simp only [ends_bind, ends_ask]
  intro address _
  refine ends_mono (ends_sendAll net.sendsSucceed ?_) ?_
  · rw [List.length_append, address.property]
    exact hfuel
  rintro ret h₁ ⟨rfl, hs⟩
  rw [if_neg (by omega)]
  refine (ends_bind ..).mpr (ends_mono (ends_tunnel_quiet hquiet (by omega) _ _ _ h₁) ?_)
  rintro conn' h₂ ⟨-, rfl⟩
  exact (((Silent.of_connect h host port hfd').snoc rfl).sent hs).snoc rfl

end Tunnels

/-- A message in one piece that fits the `recv` is received at once. -/
lemma received_whole {net : Network} {message : Bytes} (hpieces : net.pieces = [message])
    {size : ℕ} (hpos : 0 < message.length) (hlen : message.length ≤ size)
    {r : Reply (.recv .client size)} (hr : net.answers [] (.recv .client size) r) :
    r = .data message hpos hlen := by
  have hnext : net.next [] = message := by
    rw [Network.next, hpieces]
    exact nextPiece_cons (List.length_pos_iff.mp hpos) []
  obtain ⟨pos, le, rfl⟩ := Network.answered_recv (hpos.trans_le hlen)
    (hnext ▸ List.length_pos_iff.mp hpos) hr
  simp only [hnext, List.take_of_length_le hlen]

/-! ### SOCKS5 -/

section Socks5

variable {request : ConnectRequest} {extra : Bytes}

lemma ends_socks5_silent (hlen : (request.bytes ++ extra).length ≤ 512) {host : Bytes}
    (hhost : request.address.host = some host) (buffer : Bytes) (conn : Connection) :
    Ends (Network.plain [request.bytes ++ extra]).answers (fun _ => False)
      (socks5HandleRequest 11 buffer conn) (fun _ h' => Silent [] h') [] := by
  simp only [socks5HandleRequest, recv, bind_eq, pure_eq, ends_bind, ends_ask]
  intro r hr
  have hpos : 0 < (request.bytes ++ extra).length := Nat.succ_pos _
  obtain rfl := received_whole rfl hpos hlen hr
  dsimp only
  rw [parseRequest_supported hhost (List.prefix_refl _), if_pos (by simp)]
  dsimp only
  rw [if_pos rfl]
  exact (ends_mono (ends_socks5Connect_silent rfl (fun _ _ => Int.natCast_nonneg 4) (by decide)
    host request.port conn _) fun _ h' hs => hs.trans_left [] rfl)

lemma wp_socks5_ipv6 (hlen : (request.bytes ++ extra).length ≤ 512)
    (hhost : request.address.host = none) {net : Network}
    (hpieces : net.pieces = [request.bytes ++ extra]) (fuel : ℕ) (buffer : Bytes)
    (conn : Connection) :
    wp net.answers Unconnecting (socks5HandleRequest fuel buffer conn) (fun _ _ => True) [] := by
  simp only [socks5HandleRequest, recv, bind_eq, pure_eq, wp_bind, wp_ask]
  refine ⟨fun host port hne => by simp at hne, fun r hr => ?_⟩
  have hpos : 0 < (request.bytes ++ extra).length := Nat.succ_pos _
  have h4 : 4 ≤ (request.bytes ++ extra).length := by
    simp only [ConnectRequest.bytes, List.length_cons, List.length_append, List.length_nil]
    omega
  obtain rfl := received_whole hpieces hpos hlen hr
  dsimp only
  rw [parseRequest_ipv6 hhost (List.prefix_refl _), if_pos h4]
  exact wp_refuse_unconnecting fuel (socks5Reply 8) conn _

lemma socks5_carriesOver_iff (hlen : (request.bytes ++ extra).length ≤ 512) (buffer : Bytes)
    (conn : Connection) :
    CarriesOver request.bytes extra (fun fuel => socks5HandleRequest fuel buffer conn) ↔
      extra = [] ∨ request.address.host = none := by
  constructor
  · intro hcarries
    by_contra hnot
    obtain ⟨hextra, hsome⟩ := not_or.mp hnot
    obtain ⟨host, hhost⟩ := Option.ne_none_iff_exists'.mp hsome
    exact not_carriesOver hextra (ends_socks5_silent hlen hhost buffer conn) hcarries
  · rintro (rfl | hnone)
    · intro net hpieces fuel tr a hrun hconnected
      exact List.nil_prefix
    · exact carriesOver_of_wp fun net hpieces fuel =>
        wp_socks5_ipv6 hlen hnone hpieces fuel buffer conn

end Socks5

/-! ### `CONNECT` -/

section Connect

variable {head : RequestHead} {extra : Bytes} {config : HandlerConfig}

/-- The host in the target of a `CONNECT` fits the array `host`. -/
def RequestHead.HostFits (head : RequestHead) : Prop :=
  58 ∈ head.url → (head.url.takeWhile (· ≠ 58)).length < maxHostname

/-- Credentials are given if they are asked for, and fit their arrays. -/
def CredentialsGiven (config : HandlerConfig) (received : Bytes) : Prop :=
  config.enableAuth ≠ 0 → ∃ username password,
    httpCredentials (cstr received) = some (username, password) ∧ username.length < 128 ∧
      password.length < 128

/-- The handler connects for the request, if the credentials are right and the URL is not
blocked. -/
structure RequestHead.Admitted (head : RequestHead) (config : HandlerConfig) (received : Bytes) :
    Prop where
  fits : head.Fits
  hostFits : head.HostFits
  credentials : CredentialsGiven config received

lemma connectTarget_ok (hfits : head.HostFits) {request : Request} (hurl : request.url = head.url) :
    ∃ target, connectTarget request = .ok target := by
  rw [connectTarget, hurl]
  cases hcolon : strchr head.url 58 with
  | none => exact ⟨_, rfl⟩
  | some colon =>
      have hmem : 58 ∈ head.url := by
        by_contra hnot
        rw [strchr_eq_none_iff.mpr hnot] at hcolon
        simp at hcolon
      refine ⟨_, if_neg ?_⟩
      exact not_le.mpr (hfits hmem)

lemma connectTarget_overrun (hfits : ¬head.HostFits) {request : Request}
    (hurl : request.url = head.url) : connectTarget request = .error .overrun := by
  obtain ⟨hmem, hlong⟩ := not_forall.mp hfits
  rw [connectTarget, hurl]
  cases hcolon : strchr head.url 58 with
  | none => exact absurd hmem (strchr_eq_none_iff.mp hcolon)
  | some colon => exact if_pos (not_lt.mp hlong)

/-- A `CONNECT` that is routed is connected. -/
lemma ends_httpRoute_silent {pieces : List Bytes} {fuel : ℕ}
    (hfuel : connectionEstablished.length < fuel) {request : Request}
    (hmethod : request.method = ascii "CONNECT") {target : Bytes × ℤ}
    (htarget : connectTarget request = .ok target) (bytes : Bytes) (conn : Connection) {h : Trace}
    (hnothing : acceptedBy .remote h = []) :
    Ends (Network.plain pieces).answers (fun _ => False)
      (httpRoute config fuel bytes request conn) (fun _ h' => Silent [] h') h := by
  have hconnect : ∀ h, acceptedBy .remote h = [] → Ends (Network.plain pieces).answers
      (fun _ => False) (httpConnect fuel request conn) (fun _ h' => Silent [] h') h :=
    fun h hnothing => ends_mono (ends_httpConnect rfl (fun _ _ => Int.natCast_nonneg 4) hfuel
      htarget conn h) fun _ _ hs => hs.trans_left [] hnothing
  rw [httpRoute, hmethod]
  by_cases hfiltering : config.enableFiltering = 0
  · simp only [hfiltering, bind_eq, pure_eq, ne_eq, not_true_eq_false, if_false, Prog.bind]
    exact hconnect h hnothing
  · simp only [hfiltering, callFilterCheckUrl, bind_eq, ne_eq, not_false_eq_true, if_true,
      ends_bind, ends_ask]
    intro blocked hblocked
    obtain rfl : blocked = (0 : ℤ) := hblocked
    refine hconnect _ ?_
    rw [acceptedBy_snoc, hnothing]
    rfl

/-- An admitted request is connected. -/
lemma ends_http_silent (hmethod : head.method = ascii "CONNECT")
    (hlen : (head.bytes ++ extra).length ≤ bufferSize - 1)
    (hadmitted : head.Admitted config (head.bytes ++ extra)) (host : Bytes) (conn : Connection) :
    Ends (Network.plain [head.bytes ++ extra]).answers (fun _ => False)
      (httpHandleRequest config (connectionEstablished.length + 1) host conn)
      (fun _ h' => Silent [] h') [] := by
  obtain ⟨request, hparse, hmethod', hurl⟩ :=
    httpParseRequest_text head hadmitted.fits (head.fields ++ extra) host 80
  rw [← head.bytes_append] at hparse
  obtain ⟨target, htarget⟩ := connectTarget_ok hadmitted.hostFits hurl
  simp only [httpHandleRequest, recv, bind_eq, ends_bind, ends_ask]
  intro r hr
  obtain rfl := received_whole rfl (head.length_pos extra) hlen hr
  dsimp only
  rw [hparse]
  simp only [httpServe, statsIncrementRequests, bind_eq, ends_bind, ends_ask]
  intro _ _
  by_cases hauth : config.enableAuth = 0
  · rw [if_neg (not_not.mpr hauth)]
    exact ends_httpRoute_silent (Nat.lt_succ_self _) (hmethod'.trans hmethod) htarget _ _ rfl
  · obtain ⟨username, password, hcredentials, hu, hp⟩ := hadmitted.credentials hauth
    rw [if_pos hauth, httpAuthenticate, hcredentials]
    simp only [not_or.mpr ⟨not_le.mpr hu, not_le.mpr hp⟩, if_false, callAuthVerify, bind_eq,
      pure_eq, ends_bind, ends_ask, ends_ret]
    intro ret hret
    obtain rfl : ret = (0 : ℤ) := hret
    exact ends_httpRoute_silent (Nat.lt_succ_self _) (hmethod'.trans hmethod) htarget _ _ rfl

/-- Without the credentials that are asked for, the request is refused. -/
lemma wp_httpServe_of_no_credentials {env : Trace → (c : Command) → Reply c → Prop}
    {bytes : Bytes} (hnot : ¬CredentialsGiven config bytes) (fuel : ℕ) (request : Request)
    (conn : Connection) (h : Trace) :
    wp env Unconnecting (httpServe config fuel bytes request conn) (fun _ _ => True) h := by
  obtain ⟨hauth, hnone⟩ := not_forall.mp hnot
  simp only [httpServe, statsIncrementRequests, bind_eq, wp_bind, wp_ask]
  refine ⟨fun host port hne => by simp at hne, fun _ _ => ?_⟩
  rw [if_pos hauth, httpAuthenticate]
  cases hcredentials : httpCredentials (cstr bytes) with
  | none => exact wp_refuse_unconnecting fuel authRequired conn _
  | some credentials =>
      obtain ⟨username, password⟩ := credentials
      have hlong : 128 ≤ username.length ∨ 128 ≤ password.length := by
        by_contra hshort
        obtain ⟨hu, hp⟩ := not_or.mp hshort
        exact hnone ⟨username, password, hcredentials, not_le.mp hu, not_le.mp hp⟩
      simp only [if_pos hlong]
      trivial

/-- With a host that does not fit, there is no connection either. -/
lemma wp_httpServe_of_long_host {env : Trace → (c : Command) → Reply c → Prop} {request : Request}
    (hmethod : request.method = ascii "CONNECT")
    (htarget : connectTarget request = .error .overrun) (fuel : ℕ) (bytes : Bytes)
    (conn : Connection) (h : Trace) :
    wp env Unconnecting (httpServe config fuel bytes request conn) (fun _ _ => True) h := by
  refine wp_httpServe (I := fun _ => True) ?_ (fun _ _ _ _ _ => trivial) ?_ trivial conn
  · rintro h c hc - host port rfl
    exact hc
  · intro h conn _
    have hconnect : ∀ h,
        wp env Unconnecting (httpConnect fuel request conn) (fun _ _ => True) h := by
      intro h
      rw [httpConnect, htarget]
      trivial
    rw [httpRoute, hmethod]
    by_cases hfiltering : config.enableFiltering = 0
    · simp only [hfiltering, bind_eq, pure_eq, ne_eq, not_true_eq_false, if_false, Prog.bind]
      exact hconnect h
    · simp only [hfiltering, callFilterCheckUrl, bind_eq, ne_eq, not_false_eq_true, if_true,
        wp_bind, wp_ask]
      refine ⟨fun host port hne => by simp at hne, fun blocked _ => ?_⟩
      split
      · exact wp_refuse_unconnecting fuel forbidden conn _
      · exact hconnect _

/-- Another request is not connected. -/
lemma wp_http_not_admitted (hmethod : head.method = ascii "CONNECT")
    (hlen : (head.bytes ++ extra).length ≤ bufferSize - 1)
    (hnot : ¬head.Admitted config (head.bytes ++ extra)) {net : Network}
    (hpieces : net.pieces = [head.bytes ++ extra]) (fuel : ℕ) (host : Bytes) (conn : Connection) :
    wp net.answers Unconnecting (httpHandleRequest config fuel host conn) (fun _ _ => True) [] := by
  simp only [httpHandleRequest, recv, bind_eq, wp_bind, wp_ask]
  refine ⟨fun host port hne => by simp at hne, fun r hr => ?_⟩
  obtain rfl := received_whole hpieces (head.length_pos extra) hlen hr
  dsimp only
  by_cases hfits : head.Fits
  · obtain ⟨request, hparse, hmethod', hurl⟩ :=
      httpParseRequest_text head hfits (head.fields ++ extra) host 80
    rw [← head.bytes_append] at hparse
    rw [hparse]
    dsimp only
    by_cases hhost : head.HostFits
    · have hcredentials : ¬CredentialsGiven config (head.bytes ++ extra) := fun hcredentials =>
        hnot ⟨hfits, hhost, hcredentials⟩
      exact wp_httpServe_of_no_credentials hcredentials fuel request conn _
    · exact wp_httpServe_of_long_host (hmethod'.trans hmethod) (connectTarget_overrun hhost hurl)
        fuel _ conn _
  · have hparse := httpParseRequest_overrun head hfits (head.fields ++ extra) host 80
    rw [← head.bytes_append] at hparse
    rw [hparse]
    trivial

lemma http_carriesOver_iff (hmethod : head.method = ascii "CONNECT")
    (hlen : (head.bytes ++ extra).length < bufferSize) (host : Bytes) (conn : Connection) :
    CarriesOver head.bytes extra (fun fuel => httpHandleRequest config fuel host conn) ↔
      extra = [] ∨ ¬head.Admitted config (head.bytes ++ extra) := by
  have hle : (head.bytes ++ extra).length ≤ bufferSize - 1 := Nat.le_pred_of_lt hlen
  constructor
  · intro hcarries
    by_contra hnot
    obtain ⟨hextra, hadmitted⟩ := not_or.mp hnot
    exact not_carriesOver hextra (ends_http_silent hmethod hle (not_not.mp hadmitted) host conn)
      hcarries
  · rintro (rfl | hnot)
    · intro net hpieces fuel tr a hrun hconnected
      exact List.nil_prefix
    · exact carriesOver_of_wp fun net hpieces fuel =>
        wp_http_not_admitted hmethod hle hnot hpieces fuel host conn

end Connect

/-- **No bytes are carried over into a tunnel.** Bytes that are received together with a
`CONNECT`, or with a request of SOCKS5, never are the first ones that the destination gets,
unless there are none, or the handler does not connect for the request. -/
theorem carriesOver_iff (head : RequestHead) (hmethod : head.method = ascii "CONNECT")
    (extra : Bytes) (hlen : (head.bytes ++ extra).length < bufferSize) (config : HandlerConfig)
    (host : Bytes) (request : ConnectRequest) (extra' : Bytes)
    (hlen' : (request.bytes ++ extra').length ≤ 512) (buffer : Bytes) (conn : Connection) :
    (CarriesOver head.bytes extra (fun fuel => httpHandleRequest config fuel host conn) ↔
      extra = [] ∨ ¬head.Admitted config (head.bytes ++ extra)) ∧
    (CarriesOver request.bytes extra' (fun fuel => socks5HandleRequest fuel buffer conn) ↔
      extra' = [] ∨ request.address.host = none) :=
  ⟨http_carriesOver_iff hmethod hlen host conn, socks5_carriesOver_iff hlen' buffer conn⟩

/-- A `CONNECT`. -/
def connectHead : RequestHead where
  method := ascii "CONNECT"
  url := ascii "h:443"
  version := ascii "HTTP/1.1"
  fields := crlf
  method_word := isWord_of_all (by decide) (by decide)
  url_word := isWord_of_all (by decide) (by decide)
  version_word := isWord_version

/-- A request to `10.0.0.1`. -/
def socks5Head : ConnectRequest := ⟨.ipv4 10 0 0 1, 1, 187⟩

/-- A request to an address of IPv6. -/
def socks5Unread : ConnectRequest := ⟨.ipv6 (List.replicate 15 0 ++ [1]) rfl, 1, 187⟩

/-- A request that arrives with nothing after it, and one whose host is not read. -/
theorem carriesOver_iff_examples :
    CarriesOver connectHead.bytes []
        (fun fuel => httpHandleRequest plainConfig fuel [] ⟨[], -1, 0, 0, 0⟩) ∧
      CarriesOver socks5Unread.bytes [22]
        (fun fuel => socks5HandleRequest fuel [] ⟨[], -1, 0, 0, 0⟩) := by
  obtain ⟨hhttp, hsocks⟩ := carriesOver_iff connectHead rfl [] (by decide) plainConfig []
    socks5Unread [22] (by decide) [] ⟨[], -1, 0, 0, 0⟩
  exact ⟨hhttp.mpr (.inl rfl), hsocks.mpr (.inr rfl)⟩

lemma connectHead_admitted (bytes : Bytes) : connectHead.Admitted plainConfig bytes :=
  ⟨by decide, fun _ => by decide, fun hauth => absurd rfl hauth⟩

/-- The first byte of a TLS hello is lost in either tunnel. -/
theorem hello_lost :
    ¬CarriesOver connectHead.bytes [22]
        (fun fuel => httpHandleRequest plainConfig fuel [] ⟨[], -1, 0, 0, 0⟩) ∧
      ¬CarriesOver socks5Head.bytes [22]
        (fun fuel => socks5HandleRequest fuel [] ⟨[], -1, 0, 0, 0⟩) := by
  constructor
  · rw [http_carriesOver_iff rfl (by decide)]
    exact fun h => h.elim (List.cons_ne_nil _ _) fun hnot => hnot (connectHead_admitted _)
  · rw [socks5_carriesOver_iff (by decide)]
    exact fun h => h.elim (List.cons_ne_nil _ _) fun hnone => by
      simp [socks5Head, Address.host] at hnone

end ProxyMax
