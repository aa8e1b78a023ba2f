import ProxyMax.Cache.Freshness
import ProxyMax.Server.UrlFilter

/-!
Where the bytes of an answer from the cache come from.

* `Gets`, `FetchedFrom`: a connection handles a `GET` of a URL, and received bytes
  from a server.
* `CacheGuard`: the condition on the calls of the cache and on what is sent to the
  client; `wp_httpHandleRequest_cache` shows it for the handler, with
  `wp_relayResponse` for the loop that keeps a response.
* `SystemLog`, `Served`: the connections of a server in any order of their events,
  with the cache they share.
* `cache_hit_origin`: the request that fetched the bytes of a hit.
-/

namespace ProxyMax

open CString Interaction Machine

/-! ### What a connection did -/

/-- The first message of the client is the request. -/
def Handles (initialHost : Bytes) (h : Trace) (message : Bytes) (request : Request) : Prop :=
  (∃ size pos le t, h = ⟨.recv .client size, Received.data message pos le⟩ :: t) ∧
    httpParseRequest (cstr message) initialHost 80 = .ok (some request)

/-- The request is a `GET` of the URL. -/
def Gets (initialHost : Bytes) (h : Trace) (message : Bytes) (request : Request)
    (url : Bytes) : Prop :=
  Handles initialHost h message request ∧ request.method = ascii "GET" ∧ request.url = url

/-- What an event brings from the remote server. -/
def remoteChunk : Event Reply → Bytes
  | ⟨.recv .remote _, .data bytes _ _⟩ => bytes
  | _ => []

/-- The last connection is to the host, and the bytes are what came from it so far. -/
def FetchedFrom (h : Trace) (host : Bytes) (port : ℤ) (bytes : Bytes) : Prop :=
  ∃ h₁ fd h₂, h = h₁ ++ ⟨.connectToHost host port, fd⟩ :: h₂ ∧ (0 : ℤ) ≤ fd ∧
    (∀ e ∈ h₂, e.1.Quiet) ∧ h₂.flatMap remoteChunk = bytes

/-- The condition on a call: the cache is asked about the URL of the request, what
is stored in it is the beginning of what its server sent, and after a hit the
client is sent what the cache gave. -/
def CacheGuard (initialHost : Bytes) (h : Trace) : Command → Prop
  | .cacheGet key => ∃ message request, Gets initialHost h message request key
  | .cachePut key data _ => ∃ message request fetched, Gets initialHost h message request key ∧
      FetchedFrom h request.host request.port fetched ∧ data <+: fetched
  | .send .client bytes => ∀ key data, ⟨.cacheGet key, some data⟩ ∈ h → bytes <:+ data
  | _ => True

lemma Handles.snoc {initialHost message : Bytes} {h : Trace} {request : Request}
    (hh : Handles initialHost h message request) (e : Event Reply) :
    Handles initialHost (h ++ [e]) message request := by
  obtain ⟨⟨size, pos, le, t, rfl⟩, hparse⟩ := hh
  exact ⟨⟨size, pos, le, t ++ [e], rfl⟩, hparse⟩

lemma FetchedFrom.snoc {h : Trace} {host bytes : Bytes} {port : ℤ}
    (hf : FetchedFrom h host port bytes) {c : Command} (hc : c.Quiet) (r : Reply c) :
    FetchedFrom (h ++ [⟨c, r⟩]) host port (bytes ++ remoteChunk ⟨c, r⟩) := by
  obtain ⟨h₁, fd, h₂, rfl, hfd, hquiet, rfl⟩ := hf
  refine ⟨h₁, fd, h₂ ++ [⟨c, r⟩], by simp, hfd, fun e he => ?_, by simp⟩
  rcases List.mem_append.mp he with he | he
  · exact hquiet e he
  · rwa [List.mem_singleton.mp he]

/-! ### The request before the cache was asked -/

/-- The request is handled and the cache had no answer. -/
structure Serving (initialHost message : Bytes) (request : Request) (h : Trace) : Prop where
  noHit : NoHit h
  handles : Handles initialHost h message request

lemma Serving.snoc {initialHost message : Bytes} {request : Request} {h : Trace}
    (hs : Serving initialHost message request h) {c : Command} (hc : c.Uncached) (r : Reply c) :
    Serving initialHost message request (h ++ [⟨c, r⟩]) :=
  ⟨hs.noHit.snoc hc r, hs.handles.snoc _⟩

lemma NoHit.snoc_miss {h : Trace} (hn : NoHit h) (key : Bytes) :
    NoHit (h ++ [⟨.cacheGet key, none⟩]) := by
  intro key' data hmem
  rcases List.mem_append.mp hmem with hmem | hmem
  · exact hn key' data hmem
  · simp at hmem

variable {initialHost message : Bytes} {request : Request} {globals : Globals} {h : Trace}

/-- Before a hit only the calls of the cache matter. -/
lemma NoHit.cacheGuard (hn : NoHit h) {c : Command} (hc : c.Uncached) :
    CacheGuard initialHost h c := by
  cases c with
  | cacheGet key => exact absurd hc id
  | cachePut key data ttl => exact absurd hc id
  | send peer bytes =>
      cases peer with
      | client => exact fun key data hmem => absurd hmem (hn key data)
      | remote => trivial
  | _ => trivial

/-- The parts that do not call the cache keep what their calls keep. -/
lemma wp_uncached {K : Command → Prop} {I : Trace → Prop} (hK : ∀ c, K c → c.Uncached)
    (hI : ∀ h, I h → NoHit h) (hstep : ∀ h c r, K c → I h → I (h ++ [⟨c, r⟩])) {α : Type}
    {p : Handler α} (hp : Only K p) (h₀ : I h) :
    wp (answers globals) (CacheGuard initialHost) p (fun _ => I) h :=
  wp_of_only (fun h c hc hh => (hI h hh).cacheGuard (hK c hc)) hstep hp h₀

lemma NoHit.wp_refuse_cache (hn : NoHit h) (fuel : ℕ) (response : Bytes) (conn : Connection) :
    wp (answers globals) (CacheGuard initialHost) (refuse fuel response conn)
      (fun _ _ => True) h :=
  wp_mono (wp_uncached (fun _ hc => hc.uncached) (fun _ hn => hn)
    (fun _ _ r hc hn => hn.snoc hc.uncached r) (only_refuse fuel response conn) hn)
    fun _ _ _ => trivial

/-! ### Keeping a response -/

/-- The bytes came from the server of the request. -/
structure Fetching (initialHost message : Bytes) (request : Request) (fetched : Bytes)
    (h : Trace) : Prop extends Serving initialHost message request h where
  fetchedFrom : FetchedFrom h request.host request.port fetched

lemma Fetching.snoc {fetched : Bytes} (hf : Fetching initialHost message request fetched h)
    {c : Command} (hc : c.Quiet) (hget : c.Uncached) (r : Reply c) :
    Fetching initialHost message request (fetched ++ remoteChunk ⟨c, r⟩) (h ++ [⟨c, r⟩]) :=
  ⟨hf.toServing.snoc hget r, hf.fetchedFrom.snoc hc r⟩

/-- A call other than `recv`. -/
lemma Fetching.snoc_nil {fetched : Bytes} (hf : Fetching initialHost message request fetched h)
    {c : Command} (hc : c.Quiet) (hget : c.Uncached) (r : Reply c)
    (hchunk : remoteChunk ⟨c, r⟩ = []) :
    Fetching initialHost message request fetched (h ++ [⟨c, r⟩]) := by
  have hsnoc := hf.snoc hc hget r
  rwa [hchunk, List.append_nil] at hsnoc

lemma Fetching.wp_sendAll {fetched : Bytes} (hf : Fetching initialHost message request fetched h)
    (fuel : ℕ) (peer : Peer) (buffer : Bytes) :
    wp (answers globals) (CacheGuard initialHost) (sendAll fuel peer buffer)
      (fun _ => Fetching initialHost message request fetched) h := by
  refine wp_uncached (fun c hc => hc.uncached) (fun _ hf => hf.noHit) (fun h c r hc hf => ?_)
    (only_sendAll fuel peer buffer) hf
  refine hf.snoc_nil hc.quiet hc.uncached r ?_
  obtain ⟨bytes, rfl⟩ := hc
  rfl

/-- A buffer that is still there has the chunk at its end. -/
lemma Fetching.wp_keepChunk {fetched : Bytes}
    (hf : Fetching initialHost message request fetched h) (response : ResponseBuffer)
    (chunk : Bytes) :
    wp (answers globals) (CacheGuard initialHost) (keepChunk response chunk)
      (fun response' h => Fetching initialHost message request fetched h ∧
        ∀ kept' capacity', response' = some (kept', capacity') →
          ∃ kept capacity, response = some (kept, capacity) ∧ kept' = kept ++ chunk) h := by
  rcases response with _ | ⟨kept, capacity⟩
  · exact ⟨hf, by simp⟩
  have hkept : ∀ c kept' capacity', (some (kept ++ chunk, c) : ResponseBuffer) =
      some (kept', capacity') → ∃ kept₀ capacity₀, (some (kept, capacity) : ResponseBuffer) =
        some (kept₀, capacity₀) ∧ kept' = kept₀ ++ chunk := by
    intro c kept' capacity' heq
    cases heq
    exact ⟨kept, capacity, rfl, rfl⟩
  rw [keepChunk]
  split
  · simp only [realloc, bind_eq, wp_bind, wp_ask]
    refine ⟨hf.noHit.cacheGuard trivial, ?_⟩
    intro ok _
    have hf' := hf.snoc_nil (c := .realloc (addSize capacity capacity)) trivial trivial ok rfl
    split
    · split
      · trivial
      · exact ⟨hf', hkept _⟩
    · exact ⟨hf', by simp⟩
  · split
    · trivial
    · exact ⟨hf, hkept _⟩

/-- What is kept of a response of which the bytes `fetched` came: the beginning of
them, as long as the method is `GET`. -/
def Kept (request : Request) (fetched : Bytes) (response : ResponseBuffer) : Prop :=
  ∀ kept capacity, response = some (kept, capacity) →
    request.method = ascii "GET" ∧ kept <+: fetched

/-- At the head of the loop everything that came is kept. -/
def KeptAll (request : Request) (fetched : Bytes) (response : ResponseBuffer) : Prop :=
  ∀ kept capacity, response = some (kept, capacity) →
    request.method = ascii "GET" ∧ kept = fetched

lemma KeptAll.kept {fetched : Bytes} {response : ResponseBuffer}
    (hk : KeptAll request fetched response) (chunk : Bytes) :
    Kept request (fetched ++ chunk) response := by
  intro kept capacity heq
  obtain ⟨hmethod, rfl⟩ := hk kept capacity heq
  exact ⟨hmethod, List.prefix_append _ _⟩

/-- **One round of the loop.** -/
lemma Fetching.wp_relayResponseRound {fetched : Bytes}
    (hf : Fetching initialHost message request fetched h) {response : ResponseBuffer}
    (hk : KeptAll request fetched response) (fuel : ℕ) (conn : Connection) :
    wp (answers globals) (CacheGuard initialHost) (relayResponseRound fuel (response, conn))
      (fun x h => x.elim
        (fun s => ∃ fetched, Fetching initialHost message request fetched h ∧
          KeptAll request fetched s.1)
        (fun s => ∃ fetched, Fetching initialHost message request fetched h ∧
          Kept request fetched s.1)) h := by
  simp only [relayResponseRound, recv, bind_eq, wp_bind, wp_ask]
  refine ⟨hf.noHit.cacheGuard trivial, ?_⟩
  intro r _
  have hf' := hf.snoc (c := .recv .remote bufferSize) trivial trivial r
  cases r with
  | closed => exact ⟨_, hf', hk.kept _⟩
  | error => exact ⟨_, hf', hk.kept _⟩
  | data chunk pos le =>
      simp only [wp_bind]
      refine wp_mono (hf'.wp_sendAll fuel .client chunk) ?_
      intro ret h' hsent
      split
      · exact ⟨_, hsent, hk.kept _⟩
      · simp only [statsAddBytesTransferred, wp_bind, wp_ask]
        refine ⟨hsent.noHit.cacheGuard trivial, ?_⟩
        intro _ _
        have hstats := hsent.snoc_nil (c := .statsAddBytesTransferred chunk.length)
          trivial trivial () rfl
        refine wp_mono (hstats.wp_keepChunk response chunk) ?_
        intro response' h'' hkeep
        refine ⟨_, hkeep.1, ?_⟩
        intro kept' capacity' heq
        obtain ⟨kept, capacity, hkept, rfl⟩ := hkeep.2 kept' capacity' heq
        obtain ⟨hmethod, rfl⟩ := hk kept capacity hkept
        exact ⟨hmethod, rfl⟩

/-- **The loop**: what is kept in the end is the beginning of what came. -/
lemma Fetching.wp_relayResponse {fetched : Bytes}
    (hf : Fetching initialHost message request fetched h) {response : ResponseBuffer}
    (hk : KeptAll request fetched response) (fuel : ℕ) (conn : Connection) :
    wp (answers globals) (CacheGuard initialHost) (relayResponse fuel response conn)
      (fun s h => ∃ fetched, Fetching initialHost message request fetched h ∧
        Kept request fetched s.1) h :=
  wp_loop (I := fun s h => ∃ fetched, Fetching initialHost message request fetched h ∧
      KeptAll request fetched s.1)
    (fun s _ hI => hI.elim fun _ hI => hI.1.wp_relayResponseRound hI.2 fuel s.2)
    fuel ⟨fetched, hf, hk⟩

lemma Fetching.wp_storeResponse {fetched : Bytes}
    (hf : Fetching initialHost message request fetched h) {response : ResponseBuffer}
    (hk : Kept request fetched response) (config : HandlerConfig) :
    wp (answers globals) (CacheGuard initialHost) (storeResponse config request response)
      (fun _ _ => True) h := by
  rcases response with _ | ⟨kept, capacity⟩
  · trivial
  obtain ⟨hmethod, hpre⟩ := hk kept capacity rfl
  rw [storeResponse]
  split
  · simp only [callCachePut, bind_eq, wp_bind, wp_ask]
    exact ⟨⟨message, request, fetched, ⟨hf.handles, hmethod, rfl⟩, hf.fetchedFrom, hpre⟩,
      fun _ _ => trivial⟩
  · trivial

/-! ### The stages of a request -/

lemma method_of_cacheable {config : HandlerConfig} (hc : cacheable config request = true) :
    request.method = ascii "GET" := (of_decide_eq_true hc).2

lemma Serving.wp_httpForward (hs : Serving initialHost message request h) (config : HandlerConfig)
    (fuel : ℕ) (received : Bytes) (conn : Connection) :
    wp (answers globals) (CacheGuard initialHost) (httpForward config fuel received request conn)
      (fun _ _ => True) h := by
  simp only [httpForward, connectToHost, bind_eq, wp_bind, wp_ask]
  refine ⟨hs.noHit.cacheGuard trivial, ?_⟩
  intro fd _
  have hs' := hs.snoc (c := .connectToHost request.host request.port) trivial fd
  split
  · exact hs'.noHit.wp_refuse_cache fuel badGateway _
  · rename_i hfd
    have hf : Fetching initialHost message request [] (h ++ [⟨.connectToHost request.host
        request.port, fd⟩]) := ⟨hs', h, fd, [], rfl, not_lt.mp hfd, by simp, rfl⟩
    rw [wp_bind]
    refine wp_mono (hf.wp_sendAll fuel .remote received) ?_
    intro ret h' hsent
    split
    · trivial
    -- what follows is the same with a buffer and without one
    · have hrest : ∀ (h'' : Trace) (response : ResponseBuffer) (conn : Connection),
          Fetching initialHost message request [] h'' → KeptAll request [] response →
          wp (answers globals) (CacheGuard initialHost)
            ((relayResponse fuel response conn).bind fun x =>
              (storeResponse config request x.1).bind fun _ =>
                (Prog.ret ((0 : ℤ), x.2) : Handler (ℤ × Connection))) (fun _ _ => True) h'' := by
        intro h'' response conn hf hk
        rw [wp_bind]
        refine wp_mono (hf.wp_relayResponse hk fuel conn) ?_
        intro x h₃ hx
        obtain ⟨fetched, hfetch, hkept⟩ := hx
        rw [wp_bind]
        exact wp_mono (hfetch.wp_storeResponse hkept config) fun _ _ _ => trivial
      have hnone : KeptAll request [] none := fun _ _ heq => by simp at heq
      split
      · rename_i hcache
        simp only [malloc, wp_bind, wp_ask]
        refine ⟨hsent.noHit.cacheGuard trivial, ?_⟩
        intro ok _
        have hf' := hsent.snoc_nil (c := .malloc bufferSize) trivial trivial ok rfl
        rw [← wp_bind]
        refine hrest _ _ _ hf' ?_
        split
        · intro kept capacity heq
          cases heq
          exact ⟨method_of_cacheable hcache, rfl⟩
        · exact hnone
      · exact hrest _ _ _ hsent hnone

/-- `send_all` sends the end of its buffer. -/
lemma suffix_sendAll (fuel : ℕ) (peer : Peer) (buffer : Bytes) :
    Only (fun c => ∃ bytes, c = Command.send peer bytes ∧ bytes <:+ buffer)
      (sendAll fuel peer buffer) := by
  refine only_loop (fun total => ?_) fuel 0
  split
  · refine only_bind (only_ask ⟨_, rfl, List.drop_suffix _ _⟩) ?_
    intro r
    cases r <;> trivial
  · trivial

/-- After a hit the client is sent the bytes of the cache. -/
lemma wp_sendAll_hit {data : Bytes} (hdata : ∀ key data', ⟨.cacheGet key, some data'⟩ ∈ h →
      data' = data) (fuel : ℕ) :
    wp (answers globals) (CacheGuard initialHost) (sendAll fuel .client data)
      (fun _ _ => True) h := by
  refine wp_mono (wp_of_only (I := fun h => ∀ key data', ⟨.cacheGet key, some data'⟩ ∈ h →
    data' = data) (fun h c hc hI => ?_) (fun h c r hc hI key data' hmem => ?_)
    (suffix_sendAll fuel .client data) hdata) fun _ _ _ => trivial
  · obtain ⟨bytes, rfl, hsuffix⟩ := hc
    intro key data' hmem
    rwa [hI key data' hmem]
  · obtain ⟨bytes, rfl, -⟩ := hc
    rcases List.mem_append.mp hmem with hmem | hmem
    · exact hI key data' hmem
    · simp at hmem

lemma Serving.wp_httpFetch (hs : Serving initialHost message request h) (config : HandlerConfig)
    (fuel : ℕ) (received : Bytes) (conn : Connection) :
    wp (answers globals) (CacheGuard initialHost) (httpFetch config fuel received request conn)
      (fun _ _ => True) h := by
  rw [httpFetch]
  split
  · rename_i hcache
    simp only [callCacheGet, bind_eq, wp_bind, wp_ask]
    refine ⟨⟨message, request, hs.handles, method_of_cacheable hcache, rfl⟩, ?_⟩
    intro cached _
    cases cached with
    | none =>
        have hs' : Serving initialHost message request (h ++ [⟨.cacheGet request.url, none⟩]) :=
          ⟨hs.noHit.snoc_miss _, hs.handles.snoc _⟩
        exact hs'.wp_httpForward config fuel received conn
    | some data =>
        simp only [httpAnswer, bind_eq, pure_eq, wp_bind]
        refine wp_mono (wp_sendAll_hit (fun key data' hmem => ?_) fuel) fun _ _ _ => trivial
        rcases List.mem_append.mp hmem with hmem | hmem
        · exact absurd hmem (hs.noHit key data')
        · rw [List.mem_singleton, Sigma.mk.injEq] at hmem
          obtain ⟨hkey, hdata⟩ := hmem
          cases hkey
          simpa using hdata
  · exact hs.wp_httpForward config fuel received conn

lemma uncached_httpConnect (fuel : ℕ) (request : Request) (conn : Connection) :
    Only Command.Uncached (httpConnect fuel request conn) := by
  have hsend : ∀ buffer, Only Command.Uncached (sendAll fuel .client buffer) := fun buffer =>
    only_mono (only_sendAll fuel .client buffer) fun _ hc => hc.uncached
  rw [httpConnect]
  split
  · trivial
  · refine only_bind (only_ask trivial) ?_
    intro fd
    split
    · exact only_bind (hsend badGateway) fun _ => trivial
    · refine only_bind (hsend connectionEstablished) ?_
      intro _
      exact only_bind (only_mono (only_tunnel fuel bufferSize 300 _) fun _ hc => hc.uncached)
        fun _ => trivial

lemma Serving.wp_httpRoute (hs : Serving initialHost message request h) (config : HandlerConfig)
    (fuel : ℕ) (received : Bytes) (conn : Connection) :
    wp (answers globals) (CacheGuard initialHost) (httpRoute config fuel received request conn)
      (fun _ _ => True) h := by
  have hrest : ∀ (h' : Trace) (blocked : ℤ), Serving initialHost message request h' →
      wp (answers globals) (CacheGuard initialHost)
        (if blocked ≠ 0 then refuse fuel forbidden conn
          else if request.method = ascii "CONNECT" then httpConnect fuel request conn
          else httpFetch config fuel received request conn) (fun _ _ => True) h' := by
    intro h' blocked hs'
    split
    · exact hs'.noHit.wp_refuse_cache fuel forbidden conn
    · split
      · exact wp_mono (wp_uncached (fun _ hc => hc) (fun _ hn => hn)
          (fun h c r hc hn => hn.snoc hc r) (uncached_httpConnect fuel request conn) hs'.noHit)
          fun _ _ _ => trivial
      · exact hs'.wp_httpFetch config fuel received conn
  by_cases hfilter : config.enableFiltering ≠ 0
  · simp only [httpRoute, if_pos hfilter, callFilterCheckUrl, bind_eq, wp_bind, wp_ask]
    refine ⟨hs.noHit.cacheGuard trivial, ?_⟩
    intro blocked _
    exact hrest _ blocked (hs.snoc (by trivial) blocked)
  · rw [httpRoute]
    simp only [if_neg hfilter, bind_eq, pure_eq, wp_bind, wp_ret]
    exact hrest h 0 hs

lemma Command.Admits.uncached {c : Command} (h : c.Admits) : c.Uncached := by
  cases c with
  | cacheGet key => exact h
  | cachePut key data ttl => exact h
  | _ => trivial

/-- **The HTTP handler.** -/
lemma wp_httpHandleRequest_cache (config : HandlerConfig) (fuel : ℕ) (initialHost : Bytes)
    (conn : Connection) :
    wp (answers globals) (CacheGuard initialHost) (httpHandleRequest config fuel initialHost conn)
      (fun _ _ => True) [] := by
  have hempty : NoHit [] := fun _ _ hmem => absurd hmem List.not_mem_nil
  simp only [httpHandleRequest, recv, bind_eq, pure_eq, wp_bind, wp_ask]
  refine ⟨trivial, ?_⟩
  intro r _
  cases r with
  | closed => trivial
  | error => trivial
  | data received pos le =>
      have hn := hempty.snoc (c := .recv .client (bufferSize - 1)) trivial
        (Received.data received pos le)
      simp only
      split
      · trivial
      · exact hn.wp_refuse_cache fuel badRequest conn
      · rename_i request hparse
        have hs : Serving initialHost received request
            ([] ++ [⟨.recv .client (bufferSize - 1), Received.data received pos le⟩]) :=
          ⟨hn, ⟨_, pos, le, [], rfl⟩, hparse⟩
        exact wp_httpServe (fun _ _ hc hs => hs.noHit.cacheGuard hc.uncached)
          (fun _ _ r hc hs => hs.snoc hc.uncached r)
          (fun _ conn hs => hs.wp_httpRoute config fuel received conn) hs conn

/-! ### A server with its cache -/

/-- What the connections do in the order of time, each event with its connection. -/
abbrev SystemLog := List (ℕ × Event Reply)

/-- The event is the call of the cache, with the same answer. -/
inductive CacheCall : ℕ × Event Reply → Call × Answer → Prop
  | hit (i : ℕ) (key data : Bytes) (size : ℕ) (now : ℤ) :
      CacheCall (i, ⟨.cacheGet key, some data⟩) (.get key now true, .hit data size)
  | miss (i : ℕ) (key : Bytes) (now : ℤ) (dataOk : Bool) :
      CacheCall (i, ⟨.cacheGet key, none⟩) (.get key now dataOk, .fail)
  | put (i : ℕ) (key data : Bytes) (ttl ret now : ℤ) (alloc : PutAlloc) :
      CacheCall (i, ⟨.cachePut key data ttl, ret⟩)
        (.put key data data.length le_rfl ttl now alloc, putAnswer ret)

/-- A successful store of the cache is one that a connection made. -/
lemma CacheCall.of_stored {x : ℕ × Event Reply} {key data : Bytes} {size : ℕ}
    {hsize : size ≤ data.length} {ttl now : ℤ} {alloc : PutAlloc}
    (h : CacheCall x (.put key data size hsize ttl now alloc, .stored)) :
    size = data.length ∧ ∃ i, x = (i, ⟨.cachePut key data ttl, (0 : ℤ)⟩) := by
  generalize hy : (Call.put key data size hsize ttl now alloc, Answer.stored) = y at h
  cases h with
  | hit => simp at hy
  | miss => simp at hy
  | put i key' data' ttl' ret now' alloc' =>
      simp only [Prod.mk.injEq, Call.put.injEq] at hy
      obtain ⟨⟨rfl, rfl, rfl, rfl, -, -⟩, hret⟩ := hy
      have h0 : ret = 0 := by
        by_contra hne
        simp [putAnswer, hne] at hret
      subst h0
      exact ⟨rfl, i, rfl⟩

/-- The calls of the cache in a log. -/
def cacheEvents (log : SystemLog) : SystemLog :=
  log.filter fun x =>
    match x.2.1 with
    | .cacheGet _ => true
    | .cachePut _ _ _ => true
    | _ => false

/-- **Requests in any order**: each connection runs `http_handle_request`, and the
calls of the cache make one run of it from `cache_init`. -/
structure Served (config : HandlerConfig) (globals : Globals) (sizeMb : ℕ) (fuel : ℕ → ℕ)
    (hosts : ℕ → Bytes) (conns : ℕ → Connection) (log : SystemLog) : Prop where
  runs : ∀ i, ∃ out, Runs (answers globals) []
    (httpHandleRequest config (fuel i) (hosts i) (conns i)) (threadTrace i log) out
  cache : ∃ calls cacheLog c, exec cacheStep (cacheInit sizeMb) calls = some (cacheLog, c) ∧
    List.Forall₂ CacheCall (cacheEvents log) cacheLog

section Served

variable {config : HandlerConfig} {sizeMb : ℕ} {fuel : ℕ → ℕ} {hosts : ℕ → Bytes}
  {conns : ℕ → Connection} {log : SystemLog}

/-- Every call in a log is one that the guard allows. -/
lemma Served.guard (hserved : Served config globals sizeMb fuel hosts conns log)
    {pre post : SystemLog} {i : ℕ} {c : Command} {r : Reply c}
    (hlog : log = pre ++ (i, ⟨c, r⟩) :: post) :
    CacheGuard (hosts i) (threadTrace i pre) c := by
  obtain ⟨out, hrun⟩ := hserved.runs i
  rw [hlog] at hrun
  exact wp_sound_interleaved
    (wp_httpHandleRequest_cache config (fuel i) (hosts i) (conns i)) hrun

/-- What a connection sends to its client after a hit is the end of what the cache
gave. -/
lemma Served.send_after_hit (hserved : Served config globals sizeMb fuel hosts conns log)
    {pre post : SystemLog} {i : ℕ} {url data : Bytes}
    (hlog : log = pre ++ (i, ⟨.cacheGet url, some data⟩) :: post) {bytes : Bytes}
    {r : Reply (.send .client bytes)} (hsend : (i, ⟨.send .client bytes, r⟩) ∈ post) :
    bytes <:+ data := by
  obtain ⟨mid, post', rfl⟩ := List.append_of_mem hsend
  have hlog' : log = (pre ++ (i, ⟨.cacheGet url, some data⟩) :: mid) ++
      (i, ⟨.send .client bytes, r⟩) :: post' := by
    rw [hlog, List.append_assoc, List.cons_append]
  exact hserved.guard hlog' url data (by simp)

/-- The store that a hit comes from. -/
lemma Served.stored_of_hit (hserved : Served config globals sizeMb fuel hosts conns log)
    {pre post : SystemLog} {i : ℕ} {url data : Bytes}
    (hlog : log = pre ++ (i, ⟨.cacheGet url, some data⟩) :: post) :
    ∃ (pre' mid : SystemLog) (j : ℕ) (ttl : ℤ),
      pre = pre' ++ (j, ⟨.cachePut url data ttl, (0 : ℤ)⟩) :: mid := by
  obtain ⟨calls, cacheLog, c, hexec, hcalls⟩ := hserved.cache
  have hevents : cacheEvents log = cacheEvents pre ++
      (i, ⟨.cacheGet url, some data⟩) :: cacheEvents post := by
    simp [hlog, cacheEvents]
  rw [hevents] at hcalls
  obtain ⟨cachePre, _, cachePost, rfl, hpre, hhit⟩ := forall₂_split hcalls
  cases hhit with
  | hit i key data size now =>
      obtain ⟨e, ⟨putPre, putPost, buffer, n, hn, ttl, putNow, alloc, rfl, -, rfl⟩, hdata, -⟩ :=
        lastPut_of_hit hexec
      obtain ⟨_, x, _, hx, -, hput⟩ := forall₂_split hpre.flip
      obtain ⟨rfl, j, rfl⟩ := CacheCall.of_stored hput
      have hmem : (j, ⟨.cachePut url buffer ttl, (0 : ℤ)⟩) ∈ pre := by
        have hmem' : (j, ⟨.cachePut url buffer ttl, (0 : ℤ)⟩) ∈ cacheEvents pre := by
          rw [hx]
          simp
        exact (List.mem_filter.mp hmem').1
      obtain ⟨pre', mid, hsplit⟩ := List.append_of_mem hmem
      simp only [putEntry, List.take_length] at hdata
      rw [← hdata]
      exact ⟨pre', mid, j, ttl, hsplit⟩

/-- **Where a hit comes from.** In every order of the events of the connections, the
request that the cache has an answer for is a `GET` of the URL; what is sent to its
client after that are bytes of the answer; and the answer is the beginning of what
came, while an earlier `GET` of the same URL was handled, from the origin of that
request. The two requests have the same origin when the parser reads it from the same
text in both: the first `Host:`, or the URL where there is none. -/
theorem cache_hit_origin (hserved : Served config globals sizeMb fuel hosts conns log)
    {pre post : SystemLog} {i : ℕ} {url data : Bytes}
    (hlog : log = pre ++ (i, ⟨.cacheGet url, some data⟩) :: post) :
    ∃ message request, Gets (hosts i) (threadTrace i pre) message request url ∧
      (∀ bytes r, (i, ⟨.send .client bytes, r⟩) ∈ post → bytes <:+ data) ∧
      ∃ (pre' mid : SystemLog) (j : ℕ) (ttl : ℤ) (message' : Bytes) (request' : Request)
          (fetched : Bytes),
        pre = pre' ++ (j, ⟨.cachePut url data ttl, (0 : ℤ)⟩) :: mid ∧
        Gets (hosts j) (threadTrace j pre') message' request' url ∧
        FetchedFrom (threadTrace j pre') request'.host request'.port fetched ∧
        data <+: fetched ∧
        (originText (cstr message) url = originText (cstr message') url →
          originText (cstr message) url ≠ none ∨ hosts i = hosts j →
          (request'.host, request'.port) = (request.host, request.port)) := by
  obtain ⟨message, request, hgets⟩ := hserved.guard hlog
  obtain ⟨pre', mid, j, ttl, hput⟩ := hserved.stored_of_hit hlog
  have hlog' : log = pre' ++ (j, ⟨.cachePut url data ttl, (0 : ℤ)⟩) ::
      (mid ++ (i, ⟨.cacheGet url, some data⟩) :: post) := by
    rw [hlog, hput, List.append_assoc, List.cons_append]
  obtain ⟨message', request', fetched, hgets', hfetched, hdata⟩ := hserved.guard hlog'
  refine ⟨message, request, hgets, fun bytes r hsend => hserved.send_after_hit hlog hsend,
    pre', mid, j, ttl, message', request', fetched, hput, hgets', hfetched, hdata,
    fun htext hnamed => ?_⟩
  obtain ⟨⟨_, hparse⟩, -, rfl⟩ := hgets
  obtain ⟨⟨_, hparse'⟩, -, hkey'⟩ := hgets'
  have horigin := (httpParseRequest_eq_some hparse).2
  have horigin' := (httpParseRequest_eq_some hparse').2
  rw [destinationOf_eq] at horigin horigin'
  rw [horigin, horigin', hkey', ← htext]
  -- with a text the origin is what it says, and without one it is the array and port 80
  rcases hnamed with hnamed | hhosts
  · obtain ⟨text, hsome⟩ := Option.ne_none_iff_exists'.mp hnamed
    rw [hsome]
    rfl
  · rw [hhosts]

end Served

/-! ### Two requests with the same URL -/

/-- A server that has a cache and nothing else. -/
def cachingConfig : HandlerConfig := ⟨.http, 1, 0, 0, 60, [], 0⟩

/-- The run of one request, against the server's answer and what the cache holds. -/
def cachingRun (request : Bytes) (remote : List Bytes) (cached : Option Bytes) :
    Trace × Outcome Fault (ℤ × Connection) :=
  play (Script.reply ⟨[], ⟨[], [], [], []⟩⟩ ⟨[request], remote, fun _ => cached⟩) []
    (httpHandleRequest cachingConfig 2 [] ⟨[], -1, 0, 0, 0⟩)

/-- The request is sent for the host `a`, and then there is another one for its URL. -/
def twoRequestsLog (second : Bytes) : SystemLog :=
  (cachingRun (getRequest "/x" "a") [[65]] none).1.map (Prod.mk 0) ++
    (cachingRun second [] (some [65])).1.map (Prod.mk 1)

/-- The calls of the cache, at the times 1, 1 and 2. -/
def twoRequestsCalls : List Call :=
  [.get (ascii "/x") 1 true,
    .put (ascii "/x") [65] 1 le_rfl 60 1 ⟨true, true, true, true⟩,
    .get (ascii "/x") 2 true]

lemma served_twoRequestsLog {second : Bytes}
    (hevents : cacheEvents (twoRequestsLog second) =
      [(0, ⟨.cacheGet (ascii "/x"), none⟩), (0, ⟨.cachePut (ascii "/x") [65] 60, (0 : ℤ)⟩),
        (1, ⟨.cacheGet (ascii "/x"), some [65]⟩)]) :
    Served cachingConfig ⟨[], ⟨[], [], [], []⟩⟩ 1 (fun _ => 2)
      (fun _ => []) (fun _ => ⟨[], -1, 0, 0, 0⟩) (twoRequestsLog second) := by
  refine ⟨fun i => ?_, ?_⟩
  · rw [twoRequestsLog, threadTrace_append]
    match i with
    | 0 =>
        rw [threadTrace_tag_self, threadTrace_tag_other (by decide), List.append_nil]
        exact ⟨_, play_runs (Script.answers_reply _ _) _ _⟩
    | 1 =>
        rw [threadTrace_tag_other (by decide), threadTrace_tag_self, List.nil_append]
        exact ⟨_, play_runs (Script.answers_reply _ _) _ _⟩
    | n + 2 =>
        rw [threadTrace_tag_other (by omega), threadTrace_tag_other (by omega)]
        exact ⟨.waiting, .wait _ _ _⟩
  · have hexec : (exec cacheStep (cacheInit 1) twoRequestsCalls).map
        (fun r => r.1.map Prod.snd) = some [.fail, .stored, .hit [65] 1] := by
      decide +kernel
    obtain ⟨⟨cacheLog, c⟩, hrun, hanswers⟩ := Option.map_eq_some_iff.mp hexec
    refine ⟨twoRequestsCalls, cacheLog, c, hrun, ?_⟩
    rw [hevents, List.zip_of_prod (exec_inputs _ hrun) hanswers]
    exact .cons (.miss 0 _ 1 true) (.cons (.put 0 _ _ 60 0 1 ⟨true, true, true, true⟩)
      (.cons (.hit 1 _ _ 1 2) .nil))

/-- The message that a request was handled for is in the log. -/
lemma Handles.mem_clientMessages {initialHost message : Bytes} {request : Request}
    {pre log : SystemLog} {i : ℕ} (hh : Handles initialHost (threadTrace i pre) message request)
    (hpre : pre <+: log) : message ∈ clientMessages (log.map Prod.snd) := by
  obtain ⟨⟨size, pos, le, t, htrace⟩, -⟩ := hh
  have hmem : (⟨.recv .client size, .data message pos le⟩ : Event Reply) ∈ threadTrace i pre := by
    rw [htrace]
    exact List.mem_cons_self
  obtain ⟨x, hx, hevent⟩ := List.mem_map.mp hmem
  have hlog := List.mem_map_of_mem (f := Prod.snd) (hpre.subset (List.mem_filter.mp hx).1)
  rw [hevent] at hlog
  exact ProxyMax.mem_clientMessages hlog

/-- The same URL and the same host, in a message with another header before it. -/
def sameHostMessage : Bytes := ascii "GET /x HTTP/1.1\r\nAccept: b\r\nhost: a\r\n\r\n"

def sameHostLog : SystemLog := twoRequestsLog sameHostMessage

/-- The second client is sent what came from its own host. -/
theorem cache_hit_origin_sameHost :
    ∃ (pre' mid : SystemLog) (j : ℕ) (ttl : ℤ) (message' : Bytes) (request' : Request)
        (fetched : Bytes),
      sameHostLog.take 13 = pre' ++ (j, ⟨.cachePut (ascii "/x") [65] ttl, (0 : ℤ)⟩) :: mid ∧
      Gets [] (threadTrace j pre') message' request' (ascii "/x") ∧
      FetchedFrom (threadTrace j pre') (ascii "a") 80 fetched ∧ [65] <+: fetched := by
  have hevents : cacheEvents sameHostLog =
      [(0, ⟨.cacheGet (ascii "/x"), none⟩), (0, ⟨.cachePut (ascii "/x") [65] 60, (0 : ℤ)⟩),
        (1, ⟨.cacheGet (ascii "/x"), some [65]⟩)] := by
    decide +kernel
  have hhit : sameHostLog = sameHostLog.take 13 ++
      (1, ⟨.cacheGet (ascii "/x"), some [65]⟩) :: sameHostLog.drop 14 := by
    decide +kernel
  have htexts : ∀ message ∈ clientMessages (sameHostLog.map Prod.snd),
      originText (cstr message) (ascii "/x") = some (ascii "a") := by
    decide +kernel
  obtain ⟨message, request, hgets, -, pre', mid, j, ttl, message', request', fetched, hput,
    hgets', hfetched, hdata, horigin⟩ := cache_hit_origin (served_twoRequestsLog hevents) hhit
  have htext := htexts message (hgets.1.mem_clientMessages (List.take_prefix _ _))
  have htext' := htexts message' (hgets'.1.mem_clientMessages
    ((hput ▸ List.prefix_append _ _).trans (List.take_prefix 13 _)))
  have hsame := horigin (htext.trans htext'.symm) (.inl (by simp [htext]))
  obtain ⟨⟨_, hparse⟩, -, hurl⟩ := id hgets
  rw [origin_of_originText hparse (hurl ▸ htext), Prod.mk.injEq] at hsame
  rw [hsame.1, hsame.2] at hfetched
  exact ⟨pre', mid, j, ttl, message', request', fetched, hput, hgets', hfetched, hdata⟩

/-- The request is sent for the host `a` and then for the host `b`. -/
def twoHostsLog : SystemLog := twoRequestsLog (getRequest "/x" "b")

lemma served_twoHostsLog : Served cachingConfig ⟨[], ⟨[], [], [], []⟩⟩ 1 (fun _ => 2)
    (fun _ => []) (fun _ => ⟨[], -1, 0, 0, 0⟩) twoHostsLog :=
  served_twoRequestsLog (by decide +kernel)

/-- The hit of the second request. -/
lemma twoHostsLog_hit : twoHostsLog = twoHostsLog.take 13 ++
    (1, ⟨.cacheGet (ascii "/x"), some [65]⟩) :: twoHostsLog.drop 14 := by
  decide +kernel

/-- Every hit hands out bytes that came from the origin of its request. -/
def SameOrigin (hosts : ℕ → Bytes) (log : SystemLog) : Prop :=
  ∀ (pre post : SystemLog) (i : ℕ) (url data : Bytes),
    log = pre ++ (i, ⟨.cacheGet url, some data⟩) :: post →
    ∀ message request, Gets (hosts i) (threadTrace i pre) message request url →
      ∃ (pre' : SystemLog) (j : ℕ) (fetched : Bytes), pre' <+: pre ∧
        FetchedFrom (threadTrace j pre') request.host request.port fetched ∧ data <+: fetched

/-- The hosts that were connected to. -/
def dialledHosts (log : SystemLog) : List Bytes :=
  log.filterMap fun x =>
    match x.2.1 with
    | .connectToHost host _ => some host
    | _ => none

/-- Bytes come from a host that was connected to. -/
lemma FetchedFrom.mem_dialledHosts {log : SystemLog} {j : ℕ} {host bytes : Bytes} {port : ℤ}
    (hf : FetchedFrom (threadTrace j log) host port bytes) : host ∈ dialledHosts log := by
  obtain ⟨h₁, fd, h₂, heq, -⟩ := hf
  have hmem : (⟨.connectToHost host port, fd⟩ : Event Reply) ∈ threadTrace j log := by
    rw [heq]
    simp
  obtain ⟨x, hx, hevent⟩ := List.mem_map.mp hmem
  refine List.mem_filterMap.mpr ⟨x, (List.mem_filter.mp hx).1, ?_⟩
  rw [hevent]

/-- The second client is sent the bytes of the host `a`. -/
theorem twoHostsLog_crossOrigin :
    Served cachingConfig ⟨[], ⟨[], [], [], []⟩⟩ 1 (fun _ => 2) (fun _ => [])
        (fun _ => ⟨[], -1, 0, 0, 0⟩) twoHostsLog ∧
      (∃ r, (1, ⟨.send .client [65], r⟩) ∈ twoHostsLog.drop 14) ∧
      ¬ SameOrigin (fun _ => []) twoHostsLog := by
  refine ⟨served_twoHostsLog, ⟨.sent 1 (by decide) (by decide), by decide +kernel⟩, ?_⟩
  intro hsame
  have htrace : threadTrace 1 (twoHostsLog.take 13) =
      [⟨.recv .client 65535, .data (getRequest "/x" "b") (by decide +kernel) (by decide +kernel)⟩,
        ⟨.statsIncrementRequests, ()⟩] := by
    decide +kernel
  have hparse : httpParseRequest (cstr (getRequest "/x" "b")) [] 80 =
      .ok (some ⟨ascii "GET", ascii "/x", ascii "HTTP/1.1", ascii "b", 80⟩) := by
    decide +kernel
  obtain ⟨pre', j, fetched, hpre, hfetched, -⟩ := hsame _ _ 1 (ascii "/x") [65] twoHostsLog_hit
    (getRequest "/x" "b") _ ⟨⟨⟨_, _, _, _, htrace⟩, hparse⟩, rfl, rfl⟩
  have hb : ascii "b" ∈ dialledHosts twoHostsLog :=
    ((hpre.trans (List.take_prefix 13 _)).sublist.filterMap _).subset hfetched.mem_dialledHosts
  have hdialled : dialledHosts twoHostsLog = [ascii "a"] := by decide +kernel
  rw [hdialled, List.mem_singleton] at hb
  exact absurd hb (by decide +kernel)

end ProxyMax
