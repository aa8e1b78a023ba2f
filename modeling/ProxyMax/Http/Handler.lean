import ProxyMax.Auth.Basic
import ProxyMax.Http.Parse

/-!
`http_handle_request` of `src/protocols/http.c`, cut at its stages.

* `HandlerConfig`: the settings that the handlers of a connection read.
* `httpAuthenticate`, `httpConnect`, `httpForward`, `httpFetch`, `httpRoute`,
  `httpServe`: the stages.
* `relayResponse`: the loop that relays a response and keeps it for the cache.
* `httpHandleRequest`: the handler.
* `wp_httpServe`: the rule for what comes before the routing of a request.
-/

namespace ProxyMax

open CString Interaction

/-- `proxy_mode_t`. -/
inductive ProxyMode where
  | http
  | https
  | socks5
  | tcp
  | reverse
  | transparent
deriving DecidableEq, Repr

/-- The settings of `g_config` that the handlers of a connection read. -/
structure HandlerConfig where
  mode : ProxyMode
  enableCaching : ℤ
  enableAuth : ℤ
  enableFiltering : ℤ
  cacheTtlSeconds : ℤ
  backendHost : Bytes
  backendPort : ℤ

/-- A proxy with all features off. -/
def plainConfig : HandlerConfig := ⟨.http, 0, 0, 0, 0, [], 0⟩

/-- `BUFFER_SIZE`. -/
def bufferSize : ℕ := 65536

/-! ### The fixed answers -/

def badRequest : Bytes :=
  ascii ("HTTP/1.1 400 Bad Request\r\nContent-Type: text/html\r\nConnection: close\r\n\r\n" ++
    "<html><body><h1>400 Bad Request</h1></body></html>\r\n")

def authRequired : Bytes :=
  ascii ("HTTP/1.1 407 Proxy Authentication Required\r\n" ++
    "Proxy-Authenticate: Basic realm=\"Proxy\"\r\nConnection: close\r\n\r\n")

def forbidden : Bytes :=
  ascii ("HTTP/1.1 403 Forbidden\r\nContent-Type: text/html\r\nConnection: close\r\n\r\n" ++
    "<html><body><h1>403 Forbidden - Content Blocked</h1></body></html>\r\n")

def badGateway : Bytes := ascii "HTTP/1.1 502 Bad Gateway\r\nConnection: close\r\n\r\n"

def connectionEstablished : Bytes := ascii "HTTP/1.1 200 Connection Established\r\n\r\n"

/-- A fixed answer is sent, whatever comes of it, and the handler returns -1. -/
def refuse (fuel : ℕ) (response : Bytes) (conn : Connection) : Handler (ℤ × Connection) := do
  let _ ← sendAll fuel .client response
  pure (-1, conn)

/-! ### The stages -/

/-- The credentials of a request, if it has any. -/
def httpCredentials (buffer : Bytes) : Option (Bytes × Bytes) :=
  (strcasestr buffer (ascii "Proxy-Authorization:")).bind authParseBasic

/-- The check of the credentials, which are copied to arrays of 128 bytes. -/
def httpAuthenticate (buffer : Bytes) : Handler Bool :=
  match httpCredentials buffer with
  | none => pure false
  | some (username, password) =>
      if 128 ≤ username.length ∨ 128 ≤ password.length then .raise .overrun
      else do
        let ret ← callAuthVerify username password
        pure (ret = 0)

/-- The destination of a `CONNECT`: the part of the URL before its colon is copied
to `host`. -/
def connectTarget (request : Request) : Except Fault (Bytes × ℤ) :=
  match strchr request.url 58 with
  | none => .ok (request.host, request.port)
  | some colon =>
      let host := request.url.takeWhile (· ≠ 58)
      if maxHostname ≤ host.length then .error .overrun else .ok (host, atoi colon.tail)

/-- The branch for `CONNECT`. -/
def httpConnect (fuel : ℕ) (request : Request) (conn : Connection) : Handler (ℤ × Connection) :=
  match connectTarget request with
  | .error fault => .raise fault
  | .ok (host, port) => do
      let remoteFd ← connectToHost host port
      let conn := { conn with remoteFd }
      if remoteFd < 0 then refuse fuel badGateway conn
      else do
        let _ ← sendAll fuel .client connectionEstablished
        let conn ← tunnel fuel bufferSize 300 conn
        pure (0, conn)

/-- `response_buffer`: the bytes kept so far and the capacity. -/
abbrev ResponseBuffer := Option (Bytes × ℕ)

/-- A chunk is kept in the response buffer, which is doubled once when it is too
small and given up when there is no memory. -/
def keepChunk (response : ResponseBuffer) (chunk : Bytes) : Handler ResponseBuffer :=
  match response with
  | none => pure none
  | some (kept, capacity) =>
      if addSize kept.length chunk.length > capacity then do
        let capacity := addSize capacity capacity
        if ← realloc capacity then
          if kept.length + chunk.length > capacity then .raise .overrun
          else pure (some (kept ++ chunk, capacity))
        else pure none
      else if kept.length + chunk.length > capacity then .raise .overrun
      else pure (some (kept ++ chunk, capacity))

/-- One round of the loop that relays the response. -/
def relayResponseRound (fuel : ℕ) (state : ResponseBuffer × Connection) :
    Handler ((ResponseBuffer × Connection) ⊕ (ResponseBuffer × Connection)) := do
  let (response, conn) := state
  match ← recv .remote bufferSize with
  | .data chunk _ _ =>
      let ret ← sendAll fuel .client chunk
      if ret < 0 then pure (.inr (response, conn))
      else do
        statsAddBytesTransferred chunk.length
        let response ← keepChunk response chunk
        pure (.inl (response,
          { conn with bytesReceived := addSize conn.bytesReceived chunk.length }))
  | .closed => pure (.inr (response, conn))
  | .error => pure (.inr (response, conn))

/-- The loop that relays the response. -/
def relayResponse (fuel : ℕ) (response : ResponseBuffer) (conn : Connection) :
    Handler (ResponseBuffer × Connection) :=
  Prog.loop Fault.outOfFuel (relayResponseRound fuel) fuel (response, conn)

/-- The method is `GET` and the cache is on. -/
def cacheable (config : HandlerConfig) (request : Request) : Bool :=
  config.enableCaching ≠ 0 ∧ request.method = ascii "GET"

/-- What was kept of the response is stored under the URL. -/
def storeResponse (config : HandlerConfig) (request : Request) (response : ResponseBuffer) :
    Handler Unit :=
  match response with
  | none => pure ()
  | some (kept, _) =>
      if 0 < kept.length then do
        let _ ← callCachePut request.url kept config.cacheTtlSeconds
        pure ()
      else pure ()

/-- The request, as it was received, is forwarded to its destination and the
response is relayed. -/
def httpForward (config : HandlerConfig) (fuel : ℕ) (received : Bytes) (request : Request)
    (conn : Connection) : Handler (ℤ × Connection) := do
  let remoteFd ← connectToHost request.host request.port
  let conn := { conn with remoteFd }
  if remoteFd < 0 then refuse fuel badGateway conn
  else do
    let ret ← sendAll fuel .remote received
    if ret < 0 then pure (-1, conn)
    else do
      let conn := { conn with bytesSent := addSize conn.bytesSent received.length }
      let allocated ← if cacheable config request then malloc bufferSize else pure false
      let response := if allocated then some ([], bufferSize) else none
      let (response, conn) ← relayResponse fuel response conn
      storeResponse config request response
      pure (0, conn)

/-- A request is answered from the cache when it has an answer, else forwarded. -/
def httpAnswer (config : HandlerConfig) (fuel : ℕ) (received : Bytes) (request : Request)
    (conn : Connection) : Option Bytes → Handler (ℤ × Connection)
  | some data => do
      let _ ← sendAll fuel .client data
      pure (0, conn)
  | none => httpForward config fuel received request conn

/-- A request that is not a `CONNECT`. -/
def httpFetch (config : HandlerConfig) (fuel : ℕ) (received : Bytes) (request : Request)
    (conn : Connection) : Handler (ℤ × Connection) := do
  let cached ← if cacheable config request then callCacheGet request.url else pure none
  httpAnswer config fuel received request conn cached

/-- The stages after authentication. -/
def httpRoute (config : HandlerConfig) (fuel : ℕ) (received : Bytes) (request : Request)
    (conn : Connection) : Handler (ℤ × Connection) := do
  let blocked ← if config.enableFiltering ≠ 0 then callFilterCheckUrl request.url else pure 0
  if blocked ≠ 0 then refuse fuel forbidden conn
  else if request.method = ascii "CONNECT" then httpConnect fuel request conn
  else httpFetch config fuel received request conn

/-- A parsed request, from authentication on. -/
def httpServe (config : HandlerConfig) (fuel : ℕ) (received : Bytes) (request : Request)
    (conn : Connection) : Handler (ℤ × Connection) := do
  statsIncrementRequests
  if config.enableAuth ≠ 0 then do
    if ← httpAuthenticate (cstr received) then
      httpRoute config fuel received request { conn with authenticated := 1 }
    else refuse fuel authRequired conn
  else httpRoute config fuel received request conn

/-- `http_handle_request`; `host` is what its array `host` holds at first. -/
def httpHandleRequest (config : HandlerConfig) (fuel : ℕ) (host : Bytes) (conn : Connection) :
    Handler (ℤ × Connection) := do
  match ← recv .client (bufferSize - 1) with
  | .closed => pure (-1, conn)
  | .error => pure (-1, conn)
  | .data received _ _ =>
      match httpParseRequest (cstr received) host 80 with
      | .error fault => .raise fault
      | .ok none => refuse fuel badRequest conn
      | .ok (some request) => httpServe config fuel received request conn

/-! ### Before a request is routed -/

lemma only_refuse (fuel : ℕ) (response : Bytes) (conn : Connection) :
    Only (Command.SendsTo .client) (refuse fuel response conn) :=
  only_bind (only_sendAll fuel .client response) fun _ => trivial

/-- A call that the handler makes between the parsing of a request and its routing. -/
def Command.Admits : Command → Prop
  | .send .client _ => True
  | .authVerify _ _ => True
  | .statsIncrementRequests => True
  | _ => False

lemma Command.SendsTo.admits {c : Command} (h : c.SendsTo .client) : c.Admits := by
  obtain ⟨bytes, rfl⟩ := h
  trivial

/-- **The rule for `httpServe`**, where the authentication does not matter: what the
calls before the routing keep, and allow, is left to show of the routing. -/
lemma wp_httpServe {env : Trace → (c : Command) → Reply c → Prop} {G : Trace → Command → Prop}
    {I : Trace → Prop} (hG : ∀ h c, c.Admits → I h → G h c)
    (hstep : ∀ h c r, c.Admits → I h → I (h ++ [⟨c, r⟩])) {config : HandlerConfig} {fuel : ℕ}
    {received : Bytes} {request : Request}
    (hroute : ∀ h conn, I h → wp env G (httpRoute config fuel received request conn)
      (fun _ _ => True) h) {h : Trace} (hI : I h) (conn : Connection) :
    wp env G (httpServe config fuel received request conn) (fun _ _ => True) h := by
  have hrefuse : ∀ h, I h → wp env G (refuse fuel authRequired conn) (fun _ _ => True) h := by
    intro h hI
    have hmade : wp env G (refuse fuel authRequired conn) (fun _ => I) h :=
      wp_of_only hG hstep (only_mono (only_refuse fuel authRequired conn) fun _ hc => hc.admits) hI
    exact wp_mono hmade fun _ _ _ => trivial
  simp only [httpServe, statsIncrementRequests, bind_eq, wp_bind, wp_ask]
  refine ⟨hG _ _ trivial hI, ?_⟩
  intro _ _
  have hI' := hstep h .statsIncrementRequests () trivial hI
  split
  · rw [httpAuthenticate]
    split
    · exact hrefuse _ hI'
    · rename_i username password _
      split
      · trivial
      · simp only [callAuthVerify, bind_eq, pure_eq, wp_bind, wp_ask, wp_ret]
        refine ⟨hG _ _ trivial hI', ?_⟩
        intro ret _
        have hI'' := hstep _ (.authVerify username password) ret trivial hI'
        split
        · exact hroute _ _ hI''
        · exact hrefuse _ hI''
  · exact hroute _ _ hI'

end ProxyMax
