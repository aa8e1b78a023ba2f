import ProxyMax.Server.Connection

/-!
What the filter says about the hosts that are dialled.

* `destination`: the host and the port that a request in HTTP mode goes to.
* `UrlAllowed`, `DialledFor`: the URL of a request passed the blacklist, and the
  request that a connection is made for.
* `DialGuard`: the condition on the calls of `connect_to_host`; `wp_quiet` is for
  the parts of the handlers that do not make any.
* `FromUrl`: the requests whose host is taken from the checked URL.
* `url_filter_gate`: in every run, what precedes a connection.
-/

namespace ProxyMax

open CString Interaction

/-- Where a request goes to. -/
def destination (request : Request) : Except Fault (Bytes × ℤ) :=
  if request.method = ascii "CONNECT" then connectTarget request
  else .ok (request.host, request.port)

/-- The URL matches no pattern of the blacklist. -/
def UrlAllowed (filters : Filters) (url : Bytes) : Prop :=
  ∀ node ∈ filters.urlBlacklist, patternMatch (cstr node.pattern) url = false

/-- The connection to the host is made for a request that the client sent and
whose URL is allowed. -/
def DialledFor (filters : Filters) (initialHost : Bytes) (h : Trace) (host : Bytes) (port : ℤ)
    (message : Bytes) (request : Request) : Prop :=
  (∃ size pos le, ⟨.recv .client size, Received.data message pos le⟩ ∈ h) ∧
    httpParseRequest (cstr message) initialHost 80 = .ok (some request) ∧
    UrlAllowed filters request.url ∧ destination request = .ok (host, port)

/-- A condition on the calls of `connect_to_host`. -/
def DialGuard (P : Trace → Bytes → ℤ → Prop) (h : Trace) (c : Command) : Prop :=
  ∀ host port, c = .connectToHost host port → P h host port

/-- A call of another function. -/
def Command.Quiet : Command → Prop
  | .connectToHost _ _ => False
  | _ => True

variable {P : Trace → Bytes → ℤ → Prop}

lemma DialGuard.quiet {h : Trace} {c : Command} (hc : c.Quiet) : DialGuard P h c := by
  rintro host port rfl
  exact absurd hc id

/-! ### The parts that make no connection -/

lemma Command.SendsTo.quiet {peer : Peer} {c : Command} (h : c.SendsTo peer) : c.Quiet := by
  obtain ⟨bytes, rfl⟩ := h
  trivial

lemma Command.Relays.quiet {c : Command} (h : c.Relays) : c.Quiet := by
  rcases h with ⟨seconds, rfl⟩ | ⟨peer, size, rfl⟩ | ⟨peer, h⟩ | ⟨n, rfl⟩
  · trivial
  · trivial
  · exact h.quiet
  · trivial

lemma quiet_sendAll (fuel : ℕ) (peer : Peer) (buffer : Bytes) :
    Only Command.Quiet (sendAll fuel peer buffer) :=
  only_mono (only_sendAll fuel peer buffer) fun _ h => h.quiet

lemma quiet_refuse (fuel : ℕ) (response : Bytes) (conn : Connection) :
    Only Command.Quiet (refuse fuel response conn) :=
  only_mono (only_refuse fuel response conn) fun _ h => h.quiet

lemma quiet_tunnel (fuel size seconds : ℕ) (conn : Connection) :
    Only Command.Quiet (tunnel fuel size seconds conn) :=
  only_mono (only_tunnel fuel size seconds conn) fun _ h => h.quiet

lemma quiet_keepChunk (response : ResponseBuffer) (chunk : Bytes) :
    Only Command.Quiet (keepChunk response chunk) := by
  cases response with
  | none => trivial
  | some r =>
      rw [keepChunk]
      split
      · refine only_bind (only_ask trivial) ?_
        intro ok
        split
        · split <;> trivial
        · trivial
      · split <;> trivial

lemma quiet_relayResponse (fuel : ℕ) (response : ResponseBuffer) (conn : Connection) :
    Only Command.Quiet (relayResponse fuel response conn) := by
  refine only_loop (fun state => ?_) fuel (response, conn)
  refine only_bind (only_ask trivial) ?_
  intro r
  cases r with
  | closed => trivial
  | error => trivial
  | data chunk pos le =>
      refine only_bind (quiet_sendAll fuel .client chunk) ?_
      intro ret
      split
      · trivial
      · refine only_bind (only_ask trivial) ?_
        intro _
        exact only_bind (quiet_keepChunk state.1 chunk) fun _ => trivial

lemma quiet_storeResponse (config : HandlerConfig) (request : Request)
    (response : ResponseBuffer) : Only Command.Quiet (storeResponse config request response) := by
  cases response with
  | none => trivial
  | some r =>
      rw [storeResponse]
      split
      · exact only_bind (only_ask trivial) fun _ => trivial
      · trivial

/-- Nothing is asked of a part that makes no connection. -/
lemma wp_quiet {env : Trace → (c : Command) → Reply c → Prop} {α : Type} {p : Handler α}
    (hp : Only Command.Quiet p) (h : Trace) : wp env (DialGuard P) p (fun _ _ => True) h :=
  wp_of_only (fun _ _ hc _ => .quiet hc) (fun _ _ _ _ _ => trivial) hp trivial

/-! ### The stages of a request -/

lemma wp_httpConnect {env : Trace → (c : Command) → Reply c → Prop} {request : Request}
    {h : Trace} (fuel : ℕ) (conn : Connection)
    (hdial : ∀ host port, connectTarget request = .ok (host, port) → P h host port) :
    wp env (DialGuard P) (httpConnect fuel request conn) (fun _ _ => True) h := by
  rw [httpConnect]
  split
  · trivial
  · rename_i host port htarget
    simp only [connectToHost, bind_eq, wp_bind, wp_ask]
    refine ⟨fun host' port' heq => ?_, fun fd _ => ?_⟩
    · cases heq
      exact hdial host port htarget
    · split
      · exact wp_quiet (quiet_refuse fuel badGateway _) _
      · refine wp_quiet (only_bind (quiet_sendAll fuel .client _) fun _ => ?_) _
        exact only_bind (quiet_tunnel fuel bufferSize 300 _) fun _ => trivial

lemma wp_httpForward {env : Trace → (c : Command) → Reply c → Prop} {config : HandlerConfig}
    {request : Request} {h : Trace} (fuel : ℕ) (received : Bytes) (conn : Connection)
    (hdial : P h request.host request.port) :
    wp env (DialGuard P) (httpForward config fuel received request conn) (fun _ _ => True) h := by
  simp only [httpForward, connectToHost, bind_eq, wp_bind, wp_ask]
  refine ⟨fun host' port' heq => ?_, fun fd _ => ?_⟩
  · cases heq
    exact hdial
  · split
    · exact wp_quiet (quiet_refuse fuel badGateway _) _
    · refine wp_quiet (only_bind (quiet_sendAll fuel .remote received) fun ret => ?_) _
      split
      · trivial
      · have hstore : ∀ (response : ResponseBuffer) (conn : Connection), Only Command.Quiet
            ((relayResponse fuel response conn).bind fun x =>
              (storeResponse config request x.1).bind fun _ =>
                (Prog.ret ((0 : ℤ), x.2) : Handler (ℤ × Connection))) := fun response conn =>
          only_bind (quiet_relayResponse fuel response conn) fun x =>
            only_bind (quiet_storeResponse config request x.1) fun _ => trivial
        split
        · exact only_bind (only_ask trivial) fun _ => hstore _ _
        · exact hstore _ _

/-- **After authentication**: a connection is made when the URL is allowed, and to
the destination of the request. -/
lemma wp_httpRoute {globals : Globals} (hwhite : globals.filters.urlWhitelist = [])
    {config : HandlerConfig} (hfilter : config.enableFiltering ≠ 0) {request : Request} {h : Trace}
    (fuel : ℕ) (received : Bytes) (conn : Connection)
    (hdial : UrlAllowed globals.filters request.url → ∀ h' host port, h <+: h' →
      destination request = .ok (host, port) → P h' host port) :
    wp (answers globals) (DialGuard P) (httpRoute config fuel received request conn)
      (fun _ _ => True) h := by
  simp only [httpRoute, if_pos hfilter, callFilterCheckUrl, bind_eq, wp_bind, wp_ask]
  refine ⟨.quiet trivial, ?_⟩
  intro ret hret
  split
  · exact wp_quiet (quiet_refuse fuel forbidden conn) _
  · rename_i h0
    have hallowed : UrlAllowed globals.filters request.url :=
      patternMatch_of_filterCheckUrl hwhite (hret.symm.trans (not_not.mp h0))
    split
    · rename_i hmethod
      refine wp_httpConnect fuel conn ?_
      intro host port htarget
      have hdest : destination request = .ok (host, port) := by
        rw [destination, if_pos hmethod, htarget]
      exact hdial hallowed _ host port (List.prefix_append _ _) hdest
    · rename_i hmethod
      have hhost : destination request = .ok (request.host, request.port) := if_neg hmethod
      have hrest : ∀ (h' : Trace) (cached : Option Bytes), h <+: h' →
          wp (answers globals) (DialGuard P) (httpAnswer config fuel received request conn cached)
            (fun _ _ => True) h' := by
        intro h' cached hpre
        cases cached with
        | some data =>
            refine wp_quiet ?_ h'
            simp only [httpAnswer, bind_eq]
            exact only_bind (quiet_sendAll fuel .client data) fun _ => trivial
        | none => exact wp_httpForward fuel received conn (hdial hallowed h' _ _ hpre hhost)
      rw [httpFetch]
      split
      · simp only [callCacheGet, bind_eq, wp_bind, wp_ask]
        refine ⟨.quiet trivial, fun cached _ => hrest _ cached ?_⟩
        rw [List.append_assoc]
        exact List.prefix_append _ _
      · exact hrest _ none (List.prefix_append _ _)

lemma Command.Admits.quiet {c : Command} (h : c.Admits) : c.Quiet := by
  cases c with
  | connectToHost host port => exact h
  | _ => trivial

/-- **The HTTP handler.** -/
lemma wp_httpHandleRequest_dial {globals : Globals} (hwhite : globals.filters.urlWhitelist = [])
    {config : HandlerConfig} (hfilter : config.enableFiltering ≠ 0) {h : Trace} (fuel : ℕ)
    (initialHost : Bytes) (conn : Connection)
    (hdial : ∀ h' host port message request, h <+: h' →
      DialledFor globals.filters initialHost h' host port message request → P h' host port) :
    wp (answers globals) (DialGuard P) (httpHandleRequest config fuel initialHost conn)
      (fun _ _ => True) h := by
  simp only [httpHandleRequest, recv, bind_eq, pure_eq, wp_bind, wp_ask]
  refine ⟨.quiet trivial, ?_⟩
  intro r _
  cases r with
  | closed => trivial
  | error => trivial
  | data received pos le =>
      simp only
      split
      · trivial
      · exact wp_quiet (quiet_refuse fuel badRequest conn) _
      · rename_i request hparse
        -- The message stays in the trace until the connection is made.
        refine wp_httpServe (I := fun h' => h ++ [⟨.recv .client (bufferSize - 1),
          Received.data received pos le⟩] <+: h') (fun _ _ hc _ => .quiet hc.quiet)
          (fun _ _ _ _ hpre => hpre.trans (List.prefix_append _ _)) (fun h₁ conn hpre₁ => ?_)
          (List.prefix_refl _) conn
        refine wp_httpRoute hwhite hfilter fuel received conn ?_
        intro hurl h' host port hpre hdest
        have hmem := (hpre₁.trans hpre).subset (List.mem_append_right h List.mem_cons_self)
        exact hdial h' host port received request
          ((List.prefix_append _ _).trans (hpre₁.trans hpre))
          ⟨⟨bufferSize - 1, pos, le, hmem⟩, hparse, hurl, hdest⟩

/-! ### The host in the URL -/

/-- The host of the request is taken from its URL: the target of a `CONNECT`, or an
absolute URL in a message without a `Host` header. -/
def FromUrl (message : Bytes) (request : Request) : Prop :=
  (request.method = ascii "CONNECT" ∧ strchr request.url 58 ≠ none) ∨
    (request.method ≠ ascii "CONNECT" ∧ strcasestr (cstr message) (ascii "Host:") = none ∧
      hostOfUrl request.url ≠ none)

/-- Then the origin of a request other than `CONNECT` is that in its URL. -/
lemma FromUrl.hostOfUrl_eq {message initialHost : Bytes} {request : Request}
    (h : FromUrl message request)
    (hparse : httpParseRequest (cstr message) initialHost 80 = .ok (some request))
    (hmethod : request.method ≠ ascii "CONNECT") :
    hostOfUrl request.url = some (request.host, request.port) := by
  rcases h with ⟨hconnect, -⟩ | ⟨-, hheader, hurl⟩
  · exact absurd hconnect hmethod
  · obtain ⟨origin, hsome⟩ := Option.ne_none_iff_exists'.mp hurl
    have hdestination := (httpParseRequest_eq_some hparse).2
    rw [destinationOf, hheader, hsome, Option.getD_some] at hdestination
    rw [hsome, hdestination]

/-- The host is then a part of the URL. -/
lemma FromUrl.isInfix {message initialHost host : Bytes} {port : ℤ} {request : Request}
    (h : FromUrl message request)
    (hparse : httpParseRequest (cstr message) initialHost 80 = .ok (some request))
    (hdest : destination request = .ok (host, port)) : host <:+: request.url := by
  by_cases hmethod : request.method = ascii "CONNECT"
  · rw [destination, if_pos hmethod, connectTarget] at hdest
    rcases h with ⟨-, hcolon⟩ | ⟨hget, -⟩
    · split at hdest
      · contradiction
      · simp only at hdest
        split at hdest
        · simp at hdest
        · simp only [Except.ok.injEq, Prod.mk.injEq] at hdest
          rw [← hdest.1]
          exact (List.takeWhile_prefix _).isInfix
    · exact absurd hmethod hget
  · rw [destination, if_neg hmethod, Except.ok.injEq, Prod.mk.injEq] at hdest
    rw [← hdest.1]
    exact hostOfUrl_isInfix (h.hostOfUrl_eq hparse hmethod)

/-! ### All connections -/

/-- **What precedes a connection.** With `enable_filtering` set and no whitelist of
URLs, in every run of `connection_handle` a call of `connect_to_host` comes after
the address of the client was allowed. In HTTP mode it is made for a request of
the client whose URL matches no pattern of the blacklist; when the host is a part
of that URL, as it is when it is taken from there, it matches no pattern that begins
and ends with a star. -/
theorem url_filter_gate {config : HandlerConfig} (hfilter : config.enableFiltering ≠ 0)
    {globals : Globals} (hwhite : globals.filters.urlWhitelist = []) {fuel : ℕ} {locals : Locals}
    {conn : Connection} {tr : Trace} {out : Outcome Fault (ℤ × Connection)}
    (hrun : Runs (answers globals) [] (connectionHandle config fuel locals conn) tr out)
    {pre post : Trace} {host : Bytes} {port : ℤ} {fd : ℤ}
    (htr : tr = pre ++ ⟨.connectToHost host port, fd⟩ :: post) :
    filterCheckIp globals.filters conn.clientIp = 0 ∧
      (config.mode = .http ∨ config.mode = .https → ∃ message request,
        DialledFor globals.filters locals.host pre host port message request ∧
          (FromUrl message request → host <:+: request.url) ∧
          (host <:+: request.url → ∀ node ∈ globals.filters.urlBlacklist,
            Starred (cstr node.pattern) → patternMatch (cstr node.pattern) host = false)) := by
  let P : Trace → Bytes → ℤ → Prop := fun h host port =>
    filterCheckIp globals.filters conn.clientIp = 0 ∧
      (config.mode = .http ∨ config.mode = .https → ∃ message request,
        DialledFor globals.filters locals.host h host port message request)
  have hwp : wp (answers globals) (DialGuard P) (connectionHandle config fuel locals conn)
      (fun _ _ => True) [] := by
    simp only [connectionHandle, if_pos hfilter, callFilterCheckIp, bind_eq, wp_bind, wp_ask]
    refine ⟨.quiet trivial, ?_⟩
    intro ret hret
    split
    · trivial
    · rename_i h0
      have hip : filterCheckIp globals.filters conn.clientIp = 0 := hret.symm.trans (not_not.mp h0)
      by_cases hmode : config.mode = .http ∨ config.mode = .https
      · have hhandle : modeHandle config fuel locals conn
            = httpHandleRequest config fuel locals.host conn := by
          rcases hmode with hmode | hmode <;> simp only [modeHandle, hmode]
        rw [hhandle]
        exact wp_httpHandleRequest_dial hwhite hfilter fuel locals.host conn
          fun h' host port message request _ hdial => ⟨hip, fun _ => ⟨message, request, hdial⟩⟩
      · exact wp_mono (wp_of_stable (I := fun _ => True)
          (fun h c _ host port _ => ⟨hip, fun hm => absurd hm hmode⟩) (fun _ _ _ _ => trivial) _
          trivial) fun _ _ _ => trivial
  obtain ⟨hip, hdial⟩ := (wp_sound hwp hrun).1 pre _ _ post htr host port rfl
  refine ⟨hip, ?_⟩
  intro hmode
  obtain ⟨message, request, hfor⟩ := hdial hmode
  obtain ⟨_, hparse, hallowed, hdest⟩ := id hfor
  refine ⟨message, request, hfor, fun hfrom => hfrom.isInfix hparse hdest, ?_⟩
  intro hpart node hnode hstar
  by_contra hmatch
  rw [Bool.not_eq_false] at hmatch
  have hurl := hstar.patternMatch_isInfix hpart hmatch
  rw [hallowed node hnode] at hurl
  contradiction

/-- The filter as `filter_init` leaves it without any configured addresses. -/
def defaultGlobals : Globals :=
  ⟨[], filterInit [] [] (List.replicate 4 (some (List.replicate 256 0)))⟩

/-- The run that a client makes in the given mode with the default filter. -/
def filteredRun (mode : ProxyMode) (client : List Bytes) : Trace × Outcome Fault (ℤ × Connection) :=
  play (Script.reply defaultGlobals ⟨client, [], fun _ => none⟩) []
    (connectionHandle ⟨mode, 0, 0, 1, 0, [], 0⟩ 2 ⟨[], [], []⟩ ⟨[], -1, 0, 0, 0⟩)

/-- A `GET` of the URL with a `Host` header. -/
def getRequest (url host : String) : Bytes :=
  ascii ("GET " ++ url ++ " HTTP/1.1\r\nHost: " ++ host ++ "\r\n\r\n")

/-- The messages of the client. -/
def clientMessages (h : Trace) : List Bytes :=
  h.filterMap fun e =>
    match e with
    | ⟨.recv .client _, .data message _ _⟩ => some message
    | _ => none

lemma mem_clientMessages {h : Trace} {size : ℕ} {message : Bytes} {pos : 0 < message.length}
    {le : message.length ≤ size}
    (hmem : ⟨.recv .client size, Received.data message pos le⟩ ∈ h) :
    message ∈ clientMessages h :=
  List.mem_filterMap.mpr ⟨_, hmem, rfl⟩

/-- A request for an allowed URL, with a `Host` header that agrees with it. -/
theorem url_filter_gate_allowed :
    ∃ pre fd post, (filteredRun .http [getRequest "http://a/" "a"]).1
        = pre ++ ⟨.connectToHost (ascii "a") 80, fd⟩ :: post ∧
      filterCheckIp defaultGlobals.filters [] = 0 ∧
      ∀ node ∈ defaultGlobals.filters.urlBlacklist,
        patternMatch (cstr node.pattern) (ascii "a") = false := by
  have hcalls : (filteredRun .http [getRequest "http://a/" "a"]).1.map Sigma.fst =
      [.filterCheckIp [], .recv .client 65535, .statsIncrementRequests,
        .filterCheckUrl (ascii "http://a/")] ++ .connectToHost (ascii "a") 80 ::
          ((filteredRun .http [getRequest "http://a/" "a"]).1.map Sigma.fst).drop 5 := by
    decide +kernel
  have hmessages : ∀ message ∈ clientMessages (filteredRun .http [getRequest "http://a/" "a"]).1,
      message = getRequest "http://a/" "a" := by
    decide +kernel
  have hrequest : httpParseRequest (cstr (getRequest "http://a/" "a")) [] 80 =
      .ok (some ⟨ascii "GET", ascii "http://a/", ascii "HTTP/1.1", ascii "a", 80⟩) := by
    decide +kernel
  obtain ⟨pre, fd, post, htr, -⟩ := exists_event hcalls
  obtain ⟨hip, hgate⟩ := url_filter_gate (by decide) rfl
    (play_runs (Script.answers_reply _ _) _ _) htr
  obtain ⟨message, request, ⟨⟨size, pos, le, hmem⟩, hparse, _⟩, _, hhost⟩ := hgate (.inl rfl)
  obtain rfl := hmessages message (htr ▸ mem_clientMessages (List.mem_append_left _ hmem))
  rw [hrequest] at hparse
  cases hparse
  exact ⟨pre, fd, post, htr, hip, fun node hnode =>
    hhost ⟨ascii "http://", ascii "/", rfl⟩ node hnode (starred_filterInit _ _ _ node hnode)⟩

/-- A SOCKS5 client without authentication that asks for `malware.com`. -/
def socksClient : List Bytes :=
  [[5, 1, 0], [5, 1, 0, 3, 11] ++ ascii "malware.com" ++ [0, 80]]

/-- The SOCKS5 client, and a request whose `Host` header is not in its URL, are
connected to a host that matches a pattern of the blacklist. -/
theorem url_filter_bypass :
    (∃ tr out pre fd post, Runs (answers defaultGlobals) []
      (connectionHandle ⟨.socks5, 0, 0, 1, 0, [], 0⟩ 2 ⟨[], [], []⟩ ⟨[], -1, 0, 0, 0⟩) tr out ∧
      tr = pre ++ ⟨.connectToHost (ascii "malware.com") 80, fd⟩ :: post) ∧
    (∃ tr out pre fd post, Runs (answers defaultGlobals) []
      (connectionHandle ⟨.http, 0, 0, 1, 0, [], 0⟩ 2 ⟨[], [], []⟩ ⟨[], -1, 0, 0, 0⟩) tr out ∧
      tr = pre ++ ⟨.connectToHost (ascii "malware.com") 80, fd⟩ :: post) ∧
    defaultGlobals.filters.urlWhitelist = [] ∧
    ∃ node ∈ defaultGlobals.filters.urlBlacklist,
      patternMatch (cstr node.pattern) (ascii "malware.com") = true := by
  have hsocks : (filteredRun .socks5 socksClient).1.map Sigma.fst =
      [.filterCheckIp [], .recv .client 256, .send .client [5, 0], .recv .client 512] ++
        .connectToHost (ascii "malware.com") 80 ::
          ((filteredRun .socks5 socksClient).1.map Sigma.fst).drop 5 := by
    decide +kernel
  have hhttp : (filteredRun .http [getRequest "/" "malware.com"]).1.map Sigma.fst =
      [.filterCheckIp [], .recv .client 65535, .statsIncrementRequests, .filterCheckUrl (ascii "/")]
        ++ .connectToHost (ascii "malware.com") 80 ::
          ((filteredRun .http [getRequest "/" "malware.com"]).1.map Sigma.fst).drop 5 := by
    decide +kernel
  obtain ⟨pre₁, fd₁, post₁, htr₁, -⟩ := exists_event hsocks
  obtain ⟨pre₂, fd₂, post₂, htr₂, -⟩ := exists_event hhttp
  exact ⟨⟨_, _, pre₁, fd₁, post₁, play_runs (Script.answers_reply _ _) _ _, htr₁⟩,
    ⟨_, _, pre₂, fd₂, post₂, play_runs (Script.answers_reply _ _) _ _, htr₂⟩, rfl,
    by decide +kernel⟩

end ProxyMax
