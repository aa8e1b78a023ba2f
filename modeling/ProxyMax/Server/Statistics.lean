import ProxyMax.Lib.Machine
import ProxyMax.Lib.Threads
import ProxyMax.Server.Connection
import ProxyMax.Server.Relay

/-!
`src/monitor/stats.c` beside the counters of the connections.

* `Stats`: `g_stats`; `statsInit` and the functions that count.
* `statsStep`: a connection is accepted, a handler goes on by one call, or a
  connection is destroyed, in any order.
* `added`, `forwarded`: what a trace adds to `g_stats.bytes_transferred`, and the
  request that its connection counts alone; `wp_connectionHandle_books`: the
  counters of a connection are the two together.
* `Accounted`, `statsStep_accounted`: what every step keeps.
* `stats_agree_iff`: the statistics agree with the connections just when none was
  destroyed and none has forwarded a request.
-/

namespace ProxyMax

open CString Interaction Machine

/-! ### The statistics -/

/-- `stats_t`. Its counters are `unsigned long`, of 64 bits. -/
structure Stats where
  totalConnections : ℕ
  activeConnections : ℕ
  totalRequests : ℕ
  bytesTransferred : ℕ
deriving DecidableEq

/-- `stats_init`. -/
def statsInit : Stats := ⟨0, 0, 0, 0⟩

/-- `stats_increment_connections`. -/
def statsIncrementConnections (g : Stats) : Stats :=
  { g with
    totalConnections := addSize g.totalConnections 1
    activeConnections := addSize g.activeConnections 1 }

/-- What a call of a handler does to the statistics: `stats_increment_requests` and
`stats_add_bytes_transferred`. -/
def Command.count (g : Stats) : Command → Stats
  | .statsIncrementRequests => { g with totalRequests := addSize g.totalRequests 1 }
  | .statsAddBytesTransferred bytes =>
      { g with bytesTransferred := addSize g.bytesTransferred bytes }
  | _ => g

/-- The record that `connection_create` fills. -/
def connectionCreate (clientIp : Bytes) : Connection where
  clientIp
  remoteFd := -1
  bytesSent := 0
  bytesReceived := 0
  authenticated := 0

/-! ### Connections and their handlers -/

/-- A connection: its handler on its way, what the handler's array `host` holds at
first, and whether the connection was passed to `connection_destroy`. -/
structure Session where
  host : Bytes
  thread : Thread Reply Fault (ℤ × Connection)
  destroyed : Bool

/-- The statistics and all connections ever created. -/
structure Sessions where
  stats : Stats
  sessions : List Session

/-- After `stats_init`. -/
def noSessions : Sessions := ⟨statsInit, []⟩

/-- A step: `connection_create` for a client, an answer to the handler of a connection,
or `connection_destroy`. -/
inductive StatsCall where
  | create (clientIp : Bytes) (locals : Locals)
  | answer (i : ℕ) (event : Event Reply)
  | destroy (i : ℕ)

/-- A step of the server, as far as the statistics see it. -/
def statsStep (config : HandlerConfig) (fuel : ℕ) (s : Sessions) :
    StatsCall → Option (Unit × Sessions)
  | .create clientIp locals =>
      let handler := connectionHandle config fuel locals (connectionCreate clientIp)
      some ((), ⟨statsIncrementConnections s.stats,
        s.sessions ++ [⟨locals.host, .start handler, false⟩]⟩)
  | .answer i event =>
      s.sessions[i]?.bind fun c =>
        if c.destroyed then none
        else (c.thread.advance event).map fun thread =>
          ((), ⟨event.1.count s.stats, s.sessions.set i { c with thread }⟩)
  | .destroy i =>
      -- the sockets are closed and the record is freed; `g_stats` is not touched
      s.sessions[i]?.bind fun c =>
        if c.destroyed then none
        else some ((), { s with sessions := s.sessions.set i { c with destroyed := true } })

/-! ### What a trace counts -/

/-- The bytes that an event adds to `g_stats.bytes_transferred`. -/
def addedBy : Event Reply → ℕ
  | ⟨.statsAddBytesTransferred bytes, _⟩ => bytes
  | _ => 0

/-- The bytes that a trace adds to `g_stats.bytes_transferred`. -/
def added (h : Trace) : ℕ := (h.map addedBy).sum

/-- The data of an event that receives from the client. -/
def clientData : Event Reply → Option Bytes
  | ⟨.recv .client _, .data bytes _ _⟩ => some bytes
  | _ => none

/-- What the first `recv` from the client gave that gave any data. -/
def firstMessage (h : Trace) : Bytes := (h.findSome? clientData).getD []

/-- The message is a request other than `CONNECT`. -/
def isFetch (host message : Bytes) : Bool :=
  match httpParseRequest (cstr message) host 80 with
  | .ok (some request) => request.method ≠ ascii "CONNECT"
  | _ => false

/-- The request that was forwarded: in the HTTP modes the first message, when it is
another request than `CONNECT` and the remote server accepted the whole of it. -/
def forwarded (config : HandlerConfig) (host : Bytes) (h : Trace) : Bytes :=
  if (config.mode = .http ∨ config.mode = .https) ∧ isFetch host (firstMessage h) ∧
      acceptedBy .remote h = firstMessage h then firstMessage h
  else []

/-- An event that moves no data and counts none. -/
def Event.Silent (e : Event Reply) : Prop :=
  (∀ p, received p e = [] ∧ accepted p e = []) ∧ addedBy e = 0

@[simp] lemma added_nil : added [] = 0 := rfl

lemma added_append (h h' : Trace) : added (h ++ h') = added h + added h' := by
  simp [added]

@[simp] lemma added_snoc (h : Trace) (e : Event Reply) :
    added (h ++ [e]) = added h + addedBy e := by
  simp [added]

lemma SentTo.added_eq {dst : Peer} {bytes : Bytes} {h h' : Trace} (hs : SentTo dst bytes h h') :
    added h' = added h := by
  obtain ⟨tr, rfl, honly, -⟩ := hs
  have hzero : added tr = 0 := by
    refine List.sum_eq_zero fun n hn => ?_
    obtain ⟨⟨c, r⟩, he, rfl⟩ := List.mem_map.mp hn
    obtain ⟨buffer, rfl⟩ : c.SendsTo dst := honly _ he
    rfl
  rw [added_append, hzero, Nat.add_zero]

/-- The first message stays the first one. -/
lemma findSome_clientData_snoc {message : Bytes} {h : Trace}
    (hm : h.findSome? clientData = some message) (e : Event Reply) :
    (h ++ [e]).findSome? clientData = some message := by
  rw [List.findSome?_append, hm, Option.some_or]

lemma clientData_of_silent {e : Event Reply} (he : Event.Silent e) : clientData e = none := by
  obtain ⟨c, r⟩ := e
  cases c with
  | recv peer size =>
      cases peer with
      | client =>
          cases r with
          | data bytes pos le =>
              have hnil : bytes = [] := by simpa [received] using (he.1 .client).1
              simp [hnil] at pos
          | closed => rfl
          | error => rfl
      | remote => rfl
  | _ => rfl

/-- Silent events change nothing of what a trace counts. -/
lemma counts_of_silent (config : HandlerConfig) (host : Bytes) (h : Trace) {tr : Trace}
    (htr : ∀ e ∈ tr, Event.Silent e) :
    added (h ++ tr) = added h ∧ forwarded config host (h ++ tr) = forwarded config host h := by
  have hadded : added tr = 0 := by
    refine List.sum_eq_zero fun n hn => ?_
    obtain ⟨e, he, rfl⟩ := List.mem_map.mp hn
    exact (htr e he).2
  have haccepted : acceptedBy .remote tr = [] :=
    List.flatMap_eq_nil_iff.mpr fun e he => ((htr e he).1 .remote).2
  have hnone : tr.findSome? clientData = none :=
    List.findSome?_eq_none_iff.mpr fun e he => clientData_of_silent (htr e he)
  have hfirst : firstMessage (h ++ tr) = firstMessage h := by
    rw [firstMessage, List.findSome?_append, hnone, Option.or_none, firstMessage]
  refine ⟨by rw [added_append, hadded, Nat.add_zero], ?_⟩
  rw [forwarded, forwarded, hfirst, acceptedBy_append, haccepted, List.append_nil]

/-! ### The counters of a connection -/

/-- The counters of the connection are together `n`, up to their wrapping. -/
def Tally (conn : Connection) (n : ℕ) : Prop :=
  ∃ sent received, sent + received = n ∧ conn.bytesSent = sent % sizeMod ∧
    conn.bytesReceived = received % sizeMod

lemma Tally.sent {conn : Connection} {n : ℕ} (ht : Tally conn n) (k : ℕ) :
    Tally { conn with bytesSent := addSize conn.bytesSent k } (n + k) := by
  obtain ⟨sent, received, rfl, hs, hr⟩ := ht
  exact ⟨sent + k, received, by omega, by rw [hs, addSize, Nat.mod_add_mod], hr⟩

lemma Tally.received {conn : Connection} {n : ℕ} (ht : Tally conn n) (k : ℕ) :
    Tally { conn with bytesReceived := addSize conn.bytesReceived k } (n + k) := by
  obtain ⟨sent, received, rfl, hs, hr⟩ := ht
  exact ⟨sent, received + k, by omega, hs, by rw [hr, addSize, Nat.mod_add_mod]⟩

/-- Where nothing wraps, the counters are together what was counted. -/
lemma Tally.sum_eq {conn : Connection} {n : ℕ} (ht : Tally conn n) (hn : n < sizeMod) :
    conn.bytesSent + conn.bytesReceived = n := by
  obtain ⟨sent, received, rfl, hs, hr⟩ := ht
  rw [hs, hr, Nat.mod_eq_of_lt (by omega), Nat.mod_eq_of_lt (by omega)]

/-- Other events are not counted. -/
lemma Tally.snoc {conn : Connection} {h : Trace} (ht : Tally conn (added h)) {e : Event Reply}
    (he : addedBy e = 0) : Tally conn (added (h ++ [e])) := by
  rwa [added_snoc, he, Nat.add_zero]

/-- From `h` to `h'` nothing is counted, and the remote server accepts nothing. -/
structure Unmoved (h h' : Trace) : Prop where
  added : added h' = added h
  accepted : acceptedBy .remote h' = acceptedBy .remote h

lemma Unmoved.refl (h : Trace) : Unmoved h h := ⟨rfl, rfl⟩

lemma Unmoved.trans {h h' h'' : Trace} (hu : Unmoved h h') (hu' : Unmoved h' h'') :
    Unmoved h h'' :=
  ⟨hu'.added.trans hu.added, hu'.accepted.trans hu.accepted⟩

lemma unmoved_snoc (h : Trace) {e : Event Reply} (hadded : addedBy e = 0)
    (haccepted : accepted .remote e = []) : Unmoved h (h ++ [e]) :=
  ⟨by rw [added_snoc, hadded, Nat.add_zero],
    by rw [acceptedBy_snoc, haccepted, List.append_nil]⟩

lemma SentTo.unmoved {bytes : Bytes} {h h' : Trace} (hs : SentTo .client bytes h h') :
    Unmoved h h' :=
  ⟨hs.added_eq, hs.acceptedBy_other (by decide)⟩

/-- What is sent to the client is not counted. -/
lemma wp_sendClient (fuel : ℕ) (buffer : Bytes) (h : Trace) :
    wp Anything Allowed (sendAll fuel .client buffer) (fun _ h' => Unmoved h h') h := by
  refine wp_mono (wp_sendAll (fun _ _ _ _ => trivial) fuel) ?_
  rintro ret h' ⟨k, -, -, hs⟩
  exact hs.unmoved

lemma wp_refuse_unmoved (fuel : ℕ) (response : Bytes) (conn : Connection) (h : Trace) :
    wp Anything Allowed (refuse fuel response conn)
      (fun x h' => x = (-1, conn) ∧ Unmoved h h') h := by
  simp only [refuse, bind_eq, pure_eq, wp_bind]
  exact wp_mono (wp_sendClient fuel response h) fun _ _ hu => ⟨rfl, hu⟩

/-! ### The relay loop -/

/-- A chunk is counted by its length, or not at all. -/
lemma wp_relay_added (fuel size : ℕ) (src : Peer) (h : Trace) :
    wp Anything Allowed (relay fuel size src src.other)
      (fun n h' => added h' = added h + n.getD 0) h := by
  simp only [relay, recv, statsAddBytesTransferred, bind_eq, pure_eq, wp_bind, wp_ask]
  refine ⟨trivial, ?_⟩
  intro r _
  cases r with
  | closed => exact added_snoc h _
  | error => exact added_snoc h _
  | data bytes pos le =>
      refine (wp_bind _ _ _ _ _ _).mpr
        (wp_mono (wp_sendAll (fun _ _ _ _ => trivial) fuel) ?_)
      rintro ret h' ⟨k, -, -, hs⟩
      have hsame : added h' = added h := by
        rw [hs.added_eq, added_snoc]
        rfl
      split
      · exact hsame
      · simp only [wp_bind, wp_ask, wp_ret]
        refine ⟨trivial, fun r _ => ?_⟩
        rw [added_snoc, hsame]
        rfl

/-- A half of a round, which counts what it relays. -/
lemma wp_relayHalf_tally (fuel size : ℕ) (src : Peer) (ready : Bool) {count : ℕ → Connection}
    {conn : Connection} (hcount : ∀ n k, Tally conn n → Tally (count k) (n + k)) {h : Trace}
    (ht : Tally conn (added h)) :
    wp Anything Allowed (relayHalf fuel size src ready count conn)
      (fun c h' => Tally (c.getD conn) (added h')) h := by
  rw [relayHalf]
  split
  · refine (wp_bind _ _ _ _ _ _).mpr (wp_mono (wp_relay_added fuel size src h) ?_)
    intro n h' hn
    cases n with
    | none =>
        have hsame : added h' = added h := hn
        change Tally conn (added h')
        rwa [hsame]
    | some n =>
        have hmore : added h' = added h + n := hn
        change Tally (count n) (added h')
        rw [hmore]
        exact hcount _ n ht
  · exact ht

/-- **The relay loop** counts the same in both places, whenever it is left. -/
lemma wp_tunnel_tally (fuel size seconds : ℕ) {conn : Connection} {h : Trace}
    (ht : Tally conn (added h)) :
    wp Anything Allowed (tunnel fuel size seconds conn) (fun c h' => Tally c (added h')) h := by
  refine wp_loop (I := fun c h' => Tally c (added h')) ?_ fuel ht
  intro c h' ht
  simp only [tunnelRound, select, bind_eq, pure_eq, wp_bind, wp_ask]
  refine ⟨trivial, ?_⟩
  intro r _
  have ht' : Tally c (added (h' ++ [⟨.select seconds, r⟩])) := by
    rw [added_snoc]
    exact ht
  cases r with
  | idle => exact ht'
  | ready client remote some_ready =>
      dsimp only
      rw [relayFromClient_eq]
      refine (wp_bind _ _ _ _ _ _).mpr
        (wp_mono (wp_relayHalf_tally fuel size .client client (fun _ k ht => ht.sent k) ht') ?_)
      intro c' h₁ ht₁
      cases c' with
      | none => exact ht₁
      | some c₁ =>
          dsimp only
          rw [relayFromRemote_eq]
          refine (wp_bind _ _ _ _ _ _).mpr (wp_mono
            (wp_relayHalf_tally fuel size .remote remote (fun _ k ht => ht.received k) ht₁) ?_)
          intro c' h₂ ht₂
          cases c' with
          | none => exact ht₂
          | some c₂ => exact ht₂

/-! ### The HTTP modes -/

/-- The branch for `CONNECT` counts the same in both places. -/
lemma wp_httpConnect_tally (fuel : ℕ) (request : Request) {conn : Connection} {h : Trace}
    (ht : Tally conn (added h)) :
    wp Anything Allowed (httpConnect fuel request conn) (fun x h' => Tally x.2 (added h')) h := by
  rw [httpConnect]
  split
  · trivial
  · rename_i host port _
    simp only [connectToHost, bind_eq, pure_eq, wp_bind, wp_ask]
    refine ⟨trivial, ?_⟩
    intro remoteFd _
    have ht' : Tally { conn with remoteFd }
        (added (h ++ [⟨.connectToHost host port, remoteFd⟩])) := by
      rw [added_snoc]
      exact ht
    split
    · refine wp_mono (wp_refuse_unmoved fuel badGateway _ _) ?_
      rintro x h' ⟨rfl, hu⟩
      rw [hu.added]
      exact ht'
    · simp only [wp_bind]
      refine wp_mono (wp_sendClient fuel connectionEstablished _) ?_
      intro _ h' hu
      rw [← hu.added] at ht'
      exact (wp_bind _ _ _ _ _ _).mpr (wp_tunnel_tally fuel bufferSize 300 ht')

/-- The number of bytes of a message that the connection counts alone: all of them
once the remote server has accepted all of them. -/
def forwardedBytes (message : Bytes) (h : Trace) : ℕ :=
  if acceptedBy .remote h = message then message.length else 0

lemma Unmoved.forwardedBytes_eq {h h' : Trace} (hu : Unmoved h h') (message : Bytes) :
    forwardedBytes message h' = forwardedBytes message h := by
  rw [forwardedBytes, forwardedBytes, hu.accepted]

/-- Nothing was sent to the remote server yet. -/
structure Unsent (conn : Connection) (h : Trace) : Prop where
  tally : Tally conn (added h)
  accepted : acceptedBy .remote h = []

lemma Unsent.unmoved {conn : Connection} {h h' : Trace} (hn : Unsent conn h) (hu : Unmoved h h') :
    Unsent conn h' :=
  ⟨hu.added ▸ hn.tally, hu.accepted.trans hn.accepted⟩

/-- The counters in the handler of a request that came as the message. -/
def RequestTally (request : Request) (message : Bytes) (conn : Connection) (h : Trace) : Prop :=
  Tally conn
    (added h + if request.method = ascii "CONNECT" then 0 else forwardedBytes message h)

/-- As long as nothing was sent, nothing is counted by the connection alone. -/
lemma Unsent.requestTally {conn : Connection} {h : Trace} (hn : Unsent conn h) (request : Request)
    {message : Bytes} (hm : message ≠ []) : RequestTally request message conn h := by
  have hzero : forwardedBytes message h = 0 := by
    rw [forwardedBytes, hn.accepted, if_neg hm.symm]
  rw [RequestTally, hzero, ite_self]
  exact hn.tally

section Fetch

variable {config : HandlerConfig} {fuel : ℕ} {message : Bytes} {request : Request}
  {conn : Connection} {h : Trace}

/-- An answer to the client instead of the request. -/
lemma wp_refuse_tally (hn : Unsent conn h) (hm : message ≠ []) (response : Bytes) :
    wp Anything Allowed (refuse fuel response conn)
      (fun x h' => RequestTally request message x.2 h') h := by
  refine wp_mono (wp_refuse_unmoved fuel response conn h) ?_
  rintro x h' ⟨rfl, hu⟩
  exact (hn.unmoved hu).requestTally request hm

lemma wp_keepChunk_unmoved (response : ResponseBuffer) (chunk : Bytes) :
    wp Anything Allowed (keepChunk response chunk) (fun _ h' => Unmoved h h') h := by
  cases response with
  | none => exact Unmoved.refl h
  | some kept =>
      obtain ⟨kept, capacity⟩ := kept
      rw [keepChunk]
      split
      · simp only [realloc, bind_eq, pure_eq, wp_bind, wp_ask]
        refine ⟨trivial, fun r _ => ?_⟩
        have hu := unmoved_snoc h (e := ⟨.realloc (addSize capacity capacity), r⟩) rfl rfl
        split
        · split
          · trivial
          · exact hu
        · exact hu
      · split
        · trivial
        · exact Unmoved.refl h

/-- **The response loop** counts the same in both places. -/
lemma wp_relayResponse_tally (response : ResponseBuffer) (n : ℕ) (ht : Tally conn (added h + n)) :
    wp Anything Allowed (relayResponse fuel response conn)
      (fun x h' => Tally x.2 (added h' + n) ∧ acceptedBy .remote h' = acceptedBy .remote h) h := by
  refine wp_loop (I := fun x h' => Tally x.2 (added h' + n) ∧
    acceptedBy .remote h' = acceptedBy .remote h) ?_ fuel ⟨ht, rfl⟩
  rintro ⟨response, c⟩ h' ⟨ht, haccepted⟩
  simp only [relayResponseRound, recv, statsAddBytesTransferred, bind_eq, pure_eq, wp_bind, wp_ask]
  refine ⟨trivial, fun r _ => ?_⟩
  have hrecv : Unmoved h' (h' ++ [⟨.recv .remote bufferSize, r⟩]) := unmoved_snoc h' rfl rfl
  have hleft : Tally c (added (h' ++ [⟨.recv .remote bufferSize, r⟩]) + n) := by
    rwa [hrecv.added]
  cases r with
  | closed => exact ⟨hleft, hrecv.accepted.trans haccepted⟩
  | error => exact ⟨hleft, hrecv.accepted.trans haccepted⟩
  | data chunk pos le =>
      refine (wp_bind _ _ _ _ _ _).mpr (wp_mono (wp_sendClient fuel chunk _) ?_)
      intro ret h₁ hsend
      have hu := hrecv.trans hsend
      split
      · refine ⟨?_, hu.accepted.trans haccepted⟩
        change Tally c (added h₁ + n)
        rwa [hu.added]
      · simp only [wp_bind, wp_ask]
        refine ⟨trivial, fun r _ => wp_mono (wp_keepChunk_unmoved response chunk) ?_⟩
        intro kept h₂ hkept
        have hadded : added h₂ = added h' + chunk.length := by
          rw [hkept.added, added_snoc, hu.added]
          rfl
        have hsame : acceptedBy .remote h₂ = acceptedBy .remote h' := by
          rw [hkept.accepted, acceptedBy_snoc, hu.accepted]
          exact List.append_nil _
        refine ⟨?_, hsame.trans haccepted⟩
        change Tally { c with bytesReceived := addSize c.bytesReceived chunk.length }
          (added h₂ + n)
        rw [hadded, Nat.add_right_comm]
        exact ht.received chunk.length

lemma wp_storeResponse_unmoved (response : ResponseBuffer) :
    wp Anything Allowed (storeResponse config request response) (fun _ h' => Unmoved h h') h := by
  cases response with
  | none => exact Unmoved.refl h
  | some kept =>
      rw [storeResponse]
      split
      · simp only [callCachePut, bind_eq, pure_eq, wp_bind, wp_ask, wp_ret]
        exact ⟨trivial, fun r _ => unmoved_snoc h rfl rfl⟩
      · exact Unmoved.refl h

/-- After the request was sent whole, the connection is ahead by its length. -/
lemma wp_respond_tally (hmethod : request.method ≠ ascii "CONNECT")
    (haccepted : acceptedBy .remote h = message) (ht : Tally conn (added h + message.length))
    (response : ResponseBuffer) :
    wp Anything Allowed
      ((relayResponse fuel response conn).bind fun x =>
        (storeResponse config request x.1).bind fun _ => .ret ((0 : ℤ), x.2))
      (fun x h' => RequestTally request message x.2 h') h := by
  refine (wp_bind _ _ _ _ _ _).mpr (wp_mono (wp_relayResponse_tally response _ ht) ?_)
  rintro ⟨response, c⟩ h₁ ⟨ht₁, hsame⟩
  refine (wp_bind _ _ _ _ _ _).mpr (wp_mono (wp_storeResponse_unmoved response) ?_)
  intro _ h₂ hu
  have hbytes : forwardedBytes message h₂ = message.length := by
    rw [hu.forwardedBytes_eq, forwardedBytes, hsame, if_pos haccepted]
  change Tally c _
  rw [if_neg hmethod, hbytes, hu.added]
  exact ht₁

/-- **The forwarded request** is what the connection counts alone. -/
lemma wp_httpForward_tally (hn : Unsent conn h) (hm : message ≠ [])
    (hmethod : request.method ≠ ascii "CONNECT") :
    wp Anything Allowed (httpForward config fuel message request conn)
      (fun x h' => RequestTally request message x.2 h') h := by
  simp only [httpForward, connectToHost, bind_eq, pure_eq, wp_bind, wp_ask]
  refine ⟨trivial, fun remoteFd _ => ?_⟩
  have hn₁ : Unsent { conn with remoteFd }
      (h ++ [⟨.connectToHost request.host request.port, remoteFd⟩]) :=
    ⟨(hn.unmoved (unmoved_snoc h rfl rfl)).tally, (hn.unmoved (unmoved_snoc h rfl rfl)).accepted⟩
  split
  · exact wp_refuse_tally hn₁ hm badGateway
  · refine (wp_bind _ _ _ _ _ _).mpr (wp_mono (wp_sendAll (fun _ _ _ _ => trivial) fuel) ?_)
    rintro ret h₂ ⟨k, hk, hret, hs⟩
    have hadded : added h₂ = added h := hs.added_eq.trans (unmoved_snoc h rfl rfl).added
    have haccepted : acceptedBy .remote h₂ = message.take k := by
      rw [hs.acceptedBy_eq, hn₁.accepted, List.nil_append]
    split
    · -- a part of the request at most was accepted
      have hpart : forwardedBytes message h₂ = 0 := by
        refine if_neg fun hall => ?_
        have hlen := congrArg List.length (haccepted.symm.trans hall)
        rw [List.length_take] at hlen
        have hneg : ¬ 0 ≤ ret := by omega
        exact hneg (hret.mpr (by omega))
      change Tally conn _
      rw [hpart, ite_self, hadded]
      exact hn.tally
    · have hwhole : acceptedBy .remote h₂ = message := by
        rw [haccepted, hret.mp (by omega), List.take_length]
      have ht : Tally { conn with
          remoteFd, bytesSent := addSize conn.bytesSent message.length }
          (added h₂ + message.length) := by
        rw [hadded]
        exact hn.tally.sent message.length
      split
      · simp only [malloc, wp_bind, wp_ask]
        refine ⟨trivial, fun r _ => ?_⟩
        have hu := unmoved_snoc h₂ (e := ⟨.malloc bufferSize, r⟩) rfl rfl
        refine (wp_bind _ _ _ _ _ _).mp
          (wp_respond_tally hmethod (hu.accepted.trans hwhole) ?_ _)
        rwa [hu.added]
      · exact wp_respond_tally hmethod hwhole ht none

lemma wp_httpFetch_tally (hn : Unsent conn h) (hm : message ≠ [])
    (hmethod : request.method ≠ ascii "CONNECT") :
    wp Anything Allowed (httpFetch config fuel message request conn)
      (fun x h' => RequestTally request message x.2 h') h := by
  have hanswer : ∀ cached h', Unsent conn h' →
      wp Anything Allowed (httpAnswer config fuel message request conn cached)
        (fun x h'' => RequestTally request message x.2 h'') h' := by
    intro cached h' hn'
    cases cached with
    | none => exact wp_httpForward_tally hn' hm hmethod
    | some data =>
        simp only [httpAnswer, bind_eq, pure_eq, wp_bind]
        refine wp_mono (wp_sendClient fuel data h') fun _ _ hu => ?_
        exact (hn'.unmoved hu).requestTally request hm
  simp only [httpFetch, bind_eq]
  split
  · exact ⟨trivial, fun r _ => hanswer r _ (hn.unmoved (unmoved_snoc h rfl rfl))⟩
  · exact hanswer none h hn

lemma wp_httpRoute_tally (hn : Unsent conn h) (hm : message ≠ []) :
    wp Anything Allowed (httpRoute config fuel message request conn)
      (fun x h' => RequestTally request message x.2 h') h := by
  have hroute : ∀ (blocked : ℤ) h', Unsent conn h' →
      wp Anything Allowed
        (if blocked ≠ 0 then refuse fuel forbidden conn
          else if request.method = ascii "CONNECT" then httpConnect fuel request conn
          else httpFetch config fuel message request conn)
        (fun x h'' => RequestTally request message x.2 h'') h' := by
    intro blocked h' hn'
    split
    · exact wp_refuse_tally hn' hm forbidden
    · split
      · rename_i hmethod
        refine wp_mono (wp_httpConnect_tally fuel request hn'.tally) fun x h'' ht => ?_
        rwa [RequestTally, if_pos hmethod]
      · rename_i hmethod
        exact wp_httpFetch_tally hn' hm hmethod
  simp only [httpRoute, bind_eq]
  split
  · exact ⟨trivial, fun r _ => hroute r _ (hn.unmoved (unmoved_snoc h rfl rfl))⟩
  · exact hroute 0 h hn

lemma wp_httpServe_tally (hn : Unsent conn h) (hm : message ≠ []) :
    wp Anything Allowed (httpServe config fuel message request conn)
      (fun x h' => RequestTally request message x.2 h') h := by
  simp only [httpServe, statsIncrementRequests, bind_eq, wp_bind, wp_ask]
  refine ⟨trivial, fun _ _ => ?_⟩
  have hn₁ := hn.unmoved (unmoved_snoc h (e := ⟨.statsIncrementRequests, ()⟩) rfl rfl)
  split
  · rw [httpAuthenticate]
    split
    · exact wp_refuse_tally hn₁ hm authRequired
    · rename_i username password _
      split
      · trivial
      · simp only [callAuthVerify, bind_eq, pure_eq, wp_bind, wp_ask, wp_ret]
        refine ⟨trivial, fun ret _ => ?_⟩
        have hn₂ := hn₁.unmoved (unmoved_snoc _ (e := ⟨.authVerify username password, ret⟩) rfl rfl)
        split
        · exact wp_httpRoute_tally ⟨hn₂.tally, hn₂.accepted⟩ hm
        · exact wp_refuse_tally hn₂ hm authRequired
  · exact wp_httpRoute_tally hn₁ hm

end Fetch

/-! ### All modes -/

/-- **The books of a connection.** Its counters are together what its handler added to
the statistics and the request that it forwarded. -/
def Books (config : HandlerConfig) (host : Bytes) (x : ℤ × Connection) (h : Trace) : Prop :=
  Tally x.2 (added h + (forwarded config host h).length)

section Modes

variable {config : HandlerConfig} {fuel : ℕ} {host : Bytes} {conn : Connection} {h : Trace}

lemma books_of_forwarded_nil {x : ℤ × Connection} (hf : forwarded config host h = [])
    (ht : Tally x.2 (added h)) : Books config host x h := by
  rw [Books, hf, List.length_nil, Nat.add_zero]
  exact ht

lemma forwarded_of_mode (hmode : ¬ (config.mode = .http ∨ config.mode = .https)) :
    forwarded config host h = [] :=
  if_neg fun hall => hmode hall.1

/-- Before the first message no request was forwarded. -/
lemma forwarded_of_silent_client (hnone : h.findSome? clientData = none) :
    forwarded config host h = [] := by
  have hfirst : firstMessage h = [] := by rw [firstMessage, hnone, Option.getD_none]
  rw [forwarded, hfirst, ite_self]

lemma forwarded_of_not_fetch {message : Bytes} (hm : h.findSome? clientData = some message)
    (hfetch : isFetch host message = false) : forwarded config host h = [] := by
  refine if_neg fun hall => ?_
  have hyes := hall.2.1
  rw [firstMessage, hm, Option.getD_some, hfetch] at hyes
  exact Bool.false_ne_true hyes

/-- The books of a request that the handler parsed. -/
lemma RequestTally.books {message : Bytes} {request : Request} {x : ℤ × Connection}
    (hmode : config.mode = .http ∨ config.mode = .https)
    (hparse : httpParseRequest (cstr message) host 80 = .ok (some request))
    (hm : h.findSome? clientData = some message) (ht : RequestTally request message x.2 h) :
    Books config host x h := by
  have hfirst : firstMessage h = message := by rw [firstMessage, hm, Option.getD_some]
  have hlength : (forwarded config host h).length =
      if request.method = ascii "CONNECT" then 0 else forwardedBytes message h := by
    rw [forwarded, hfirst, forwardedBytes, isFetch, hparse]
    by_cases hmethod : request.method = ascii "CONNECT"
    · simp [hmethod]
    · by_cases hall : acceptedBy .remote h = message <;> simp [hmode, hmethod, hall]
  rw [Books, hlength]
  exact ht

/-- What the handler may begin with: nothing was moved, and nothing counted. -/
structure Untouched (conn : Connection) (h : Trace) : Prop extends Unsent conn h where
  silent : h.findSome? clientData = none

lemma wp_httpHandleRequest_books (hmode : config.mode = .http ∨ config.mode = .https)
    (hf : Untouched conn h) :
    wp Anything Allowed (httpHandleRequest config fuel host conn) (Books config host) h := by
  simp only [httpHandleRequest, recv, bind_eq, pure_eq, wp_bind, wp_ask]
  refine ⟨trivial, fun r _ => ?_⟩
  have hn : Unsent conn (h ++ [⟨.recv .client (bufferSize - 1), r⟩]) :=
    hf.toUnsent.unmoved (unmoved_snoc h rfl rfl)
  cases r with
  | closed =>
      refine books_of_forwarded_nil (forwarded_of_silent_client ?_) hn.tally
      rw [List.findSome?_append, hf.silent]
      rfl
  | error =>
      refine books_of_forwarded_nil (forwarded_of_silent_client ?_) hn.tally
      rw [List.findSome?_append, hf.silent]
      rfl
  | data received pos le =>
      have hfirst : List.findSome? clientData
          (h ++ [⟨.recv .client (bufferSize - 1), .data received pos le⟩]) = some received := by
        rw [List.findSome?_append, hf.silent]
        rfl
      have hkeep : ∀ (h : Trace) (c : Command) (r : Reply c),
          h.findSome? clientData = some received →
          List.findSome? clientData (h ++ [⟨c, r⟩]) = some received :=
        fun _ c r hm => findSome_clientData_snoc hm ⟨c, r⟩
      dsimp only
      cases hparse : httpParseRequest (cstr received) host 80 with
      | error fault => trivial
      | ok parsed =>
          cases parsed with
          | none =>
              refine wp_mono (wp_frame hkeep (wp_refuse_unmoved fuel badRequest conn _) hfirst) ?_
              rintro x h' ⟨⟨rfl, hu⟩, hm⟩
              refine books_of_forwarded_nil (forwarded_of_not_fetch hm ?_) (hn.unmoved hu).tally
              rw [isFetch, hparse]
          | some request =>
              have hne : received ≠ [] := List.length_pos_iff.mp pos
              refine wp_mono (wp_frame hkeep (wp_httpServe_tally hn hne) hfirst) ?_
              rintro x h' ⟨ht, hm⟩
              exact ht.books hmode hparse hm

lemma wp_backendRelay_tally (ht : Tally conn (added h)) :
    wp Anything Allowed (backendRelay config fuel conn) (fun x h' => Tally x.2 (added h')) h := by
  simp only [backendRelay, connectToHost, bind_eq, pure_eq, wp_bind, wp_ask]
  refine ⟨trivial, fun remoteFd _ => ?_⟩
  have hconnected : Tally { conn with remoteFd }
      (added (h ++ [⟨.connectToHost config.backendHost config.backendPort, remoteFd⟩])) :=
    ht.snoc rfl
  split
  · exact hconnected
  · exact (wp_bind _ _ _ _ _ _).mpr (wp_tunnel_tally fuel bufferSize 30 hconnected)

lemma wp_socks5Authenticate_tally (buffer : Bytes) (ht : Tally conn (added h)) :
    wp Anything Allowed (socks5Authenticate fuel buffer conn)
      (fun x h' => Tally x.2 (added h')) h := by
  simp only [socks5Authenticate, recv, bind_eq, pure_eq, wp_bind, wp_ask]
  refine ⟨trivial, fun r _ => ?_⟩
  replace ht : Tally conn (added (h ++ [⟨.recv .client 256, r⟩])) := ht.snoc rfl
  cases r with
  | closed => exact ht
  | error => exact ht
  | data received pos le =>
      dsimp only
      split
      · exact ht
      · rename_i username password _
        simp only [callAuthVerify, wp_bind, wp_ask]
        refine ⟨trivial, fun authResult _ => ?_⟩
        have hchecked := ht.snoc (e := ⟨.authVerify username password, authResult⟩) rfl
        refine wp_mono (wp_sendClient fuel _ _) fun sent h' hsend => ?_
        rw [← hsend.added] at hchecked
        split
        · exact hchecked
        · split <;> exact hchecked

lemma wp_socks5HandleHandshake_tally (buffer : Bytes) (ht : Tally conn (added h)) :
    wp Anything Allowed (socks5HandleHandshake config fuel buffer conn)
      (fun x h' => Tally x.2 (added h')) h := by
  simp only [socks5HandleHandshake, recv, bind_eq, pure_eq, wp_bind, wp_ask]
  refine ⟨trivial, fun r _ => ?_⟩
  replace ht : Tally conn (added (h ++ [⟨.recv .client 256, r⟩])) := ht.snoc rfl
  cases r with
  | closed => exact ht
  | error => exact ht
  | data received pos le =>
      dsimp only
      split
      · exact ht
      · refine (wp_bind _ _ _ _ _ _).mpr
          (wp_mono (wp_sendClient fuel _ _) fun sent h' hsend => ?_)
        rw [← hsend.added] at ht
        split
        · exact ht
        · split
          · exact ht
          · split
            · exact wp_socks5Authenticate_tally _ ht
            · exact ht

lemma wp_refuse_added (response : Bytes) (ht : Tally conn (added h)) :
    wp Anything Allowed (refuse fuel response conn) (fun x h' => Tally x.2 (added h')) h := by
  refine wp_mono (wp_refuse_unmoved fuel response conn h) ?_
  rintro x h' ⟨rfl, hu⟩
  rwa [hu.added]

lemma wp_socks5HandleRequest_tally (buffer : Bytes) (ht : Tally conn (added h)) :
    wp Anything Allowed (socks5HandleRequest fuel buffer conn)
      (fun x h' => Tally x.2 (added h')) h := by
  simp only [socks5HandleRequest, recv, bind_eq, pure_eq, wp_bind, wp_ask]
  refine ⟨trivial, fun r _ => ?_⟩
  replace ht : Tally conn (added (h ++ [⟨.recv .client 512, r⟩])) := ht.snoc rfl
  cases r with
  | closed => exact ht
  | error => exact ht
  | data received pos le =>
      dsimp only
      split
      · exact ht
      · exact wp_refuse_added _ ht
      · split
        · rename_i cmd host port _ _
          simp only [socks5Connect, connectToHost, getsockname, bind_eq, pure_eq, wp_bind, wp_ask]
          refine ⟨trivial, fun remoteFd _ => ?_⟩
          have hconnected := ht.snoc (e := ⟨.connectToHost host port, remoteFd⟩) rfl
          split
          · exact wp_refuse_added _ hconnected
          · simp only [wp_bind, wp_ask]
            refine ⟨trivial, fun localAddr _ => ?_⟩
            have hnamed := hconnected.snoc (e := ⟨.getsockname, localAddr⟩) rfl
            refine wp_mono (wp_sendClient fuel _ _) fun sent h' hsend => ?_
            rw [← hsend.added] at hnamed
            split
            · exact hnamed
            · exact (wp_bind _ _ _ _ _ _).mpr (wp_tunnel_tally fuel 512 300 hnamed)
        · split
          · exact wp_refuse_added _ ht
          · exact ht

/-- **The counters of every connection**, in all modes and whatever its handler meets. -/
theorem wp_connectionHandle_books (locals : Locals) (clientIp : Bytes) :
    wp Anything Allowed (connectionHandle config fuel locals (connectionCreate clientIp))
      (Books config locals.host) [] := by
  have hstart : Tally (connectionCreate clientIp) 0 := ⟨0, 0, rfl, rfl, rfl⟩
  -- each mode keeps the books from a connection that nothing was done with
  have hmode : ∀ h, Untouched (connectionCreate clientIp) h →
      wp Anything Allowed (modeHandle config fuel locals (connectionCreate clientIp))
        (Books config locals.host) h := by
    intro h hf
    rw [modeHandle]
    split
    · rename_i hm
      exact wp_httpHandleRequest_books (.inl hm) hf
    · rename_i hm
      exact wp_httpHandleRequest_books (.inr hm) hf
    · rename_i hm
      refine wp_mono ?_ fun x h' ht =>
        books_of_forwarded_nil (forwarded_of_mode (by simp [hm])) ht
      simp only [socks5Handle, bind_eq, pure_eq, wp_bind]
      refine wp_mono (wp_socks5HandleHandshake_tally locals.handshake hf.tally) ?_
      intro x h' ht
      split
      · exact wp_socks5HandleRequest_tally locals.request ht
      · exact ht
    · rename_i hm
      refine wp_mono (wp_backendRelay_tally hf.tally) fun x h' ht =>
        books_of_forwarded_nil (forwarded_of_mode (by simp [hm])) ht
    · rename_i hm
      refine wp_mono (wp_backendRelay_tally hf.tally) fun x h' ht =>
        books_of_forwarded_nil (forwarded_of_mode (by simp [hm])) ht
    · exact books_of_forwarded_nil (forwarded_of_silent_client hf.silent) hf.tally
  -- and the check of the address leaves it so
  have hbegin : Untouched (connectionCreate clientIp) [] := ⟨⟨hstart, rfl⟩, rfl⟩
  simp only [connectionHandle, bind_eq]
  split
  · refine ⟨trivial, fun blocked _ => ?_⟩
    have hfiltered : Untouched (connectionCreate clientIp)
        ([] ++ [⟨.filterCheckIp (connectionCreate clientIp).clientIp, blocked⟩]) :=
      ⟨⟨hstart, rfl⟩, rfl⟩
    change wp Anything Allowed (if blocked ≠ 0 then _ else _) _ _
    split
    · exact books_of_forwarded_nil (forwarded_of_silent_client hfiltered.silent) hfiltered.tally
    · exact hmode _ hfiltered
  · exact hmode [] hbegin

end Modes

/-! ### All connections -/

/-- The request that the handler of the connection has forwarded. -/
def Session.forwarded (config : HandlerConfig) (c : Session) : Bytes :=
  ProxyMax.forwarded config c.host c.thread.trace

/-- The bytes that the counters of all connections are together. -/
def Sessions.counted (config : HandlerConfig) (s : Sessions) : ℕ :=
  (s.sessions.map fun c => added c.thread.trace + (c.forwarded config).length).sum

/-- The handler is not in the middle of a step, and `conn` is the record of its
connection: with no more data to come, the handler returns it without counting. -/
def Session.AtRest (c : Session) (conn : Connection) : Prop :=
  ∃ ret, c.thread.Yields Anything Event.Silent (ret, conn)

/-- The statistics agree with the connections and their records. -/
def Agree (s : Sessions) (conns : List Connection) : Prop :=
  s.stats.activeConnections = s.sessions.countP (fun c => !c.destroyed) ∧
    s.stats.bytesTransferred = (conns.map fun conn => conn.bytesSent + conn.bytesReceived).sum

/-- **The invariant.** The statistics are what was counted so far, and every handler
keeps the books of its connection. -/
structure Accounted (config : HandlerConfig) (s : Sessions) : Prop where
  active : s.stats.activeConnections = s.sessions.length % sizeMod
  bytes : s.stats.bytesTransferred = (s.sessions.map fun c => added c.thread.trace).sum % sizeMod
  books : ∀ c ∈ s.sessions, c.thread.Meets Anything Allowed (Books config c.host)

@[simp] lemma count_activeConnections (g : Stats) (c : Command) :
    (c.count g).activeConnections = g.activeConnections := by
  cases c <;> rfl

lemma count_bytesTransferred {g : Stats} {n : ℕ} (hn : g.bytesTransferred = n % sizeMod)
    (e : Event Reply) : (e.1.count g).bytesTransferred = (n + addedBy e) % sizeMod := by
  obtain ⟨c, r⟩ := e
  cases c with
  | statsAddBytesTransferred bytes =>
      simp only [Command.count, addedBy, addSize, hn, Nat.mod_add_mod]
  | _ => exact hn

lemma noSessions_accounted (config : HandlerConfig) : Accounted config noSessions :=
  ⟨rfl, rfl, fun c hc => by simp [noSessions] at hc⟩

/-- One connection goes on, and the others stay as they are. -/
lemma Accounted.books_set {config : HandlerConfig} {s : Sessions} (ha : Accounted config s) (i : ℕ)
    {c : Session} (hc : c.thread.Meets Anything Allowed (Books config c.host)) :
    ∀ c' ∈ s.sessions.set i c, c'.thread.Meets Anything Allowed (Books config c'.host) := by
  intro c' hmem
  rcases List.mem_or_eq_of_mem_set hmem with hmem | rfl
  · exact ha.books c' hmem
  · exact hc

/-- **The step lemma.** -/
lemma statsStep_accounted {config : HandlerConfig} {fuel : ℕ} {s s' : Sessions} {call : StatsCall}
    {u : Unit} (h : statsStep config fuel s call = some (u, s')) (ha : Accounted config s) :
    Accounted config s' := by
  cases call with
  | create clientIp locals =>
      simp only [statsStep, Option.some.injEq, Prod.mk.injEq, true_and] at h
      subst h
      refine ⟨?_, ?_, fun c hc => ?_⟩
      · simp only [statsIncrementConnections, addSize, ha.active, Nat.mod_add_mod,
          List.length_append, List.length_singleton]
      · simpa [statsIncrementConnections, Thread.start] using ha.bytes
      · rcases List.mem_append.mp hc with hc | hc
        · exact ha.books c hc
        · obtain rfl := List.mem_singleton.mp hc
          exact wp_connectionHandle_books locals clientIp
  -- the bytes that the event adds are those of its session
  | answer i event =>
      simp only [statsStep, Option.bind_eq_some_iff] at h
      obtain ⟨c, hc, h⟩ := h
      split at h
      · simp at h
      · obtain ⟨thread, hthread, he⟩ := Option.map_eq_some_iff.mp h
        obtain rfl := (Prod.mk.inj he).2
        have hbooks := ha.books c (List.mem_of_getElem? hc)
        refine ⟨?_, ?_, ha.books_set i (hbooks.advance trivial hthread)⟩
        · simpa using ha.active
        · obtain ⟨k, -, rfl⟩ := Thread.advance_eq_some hthread
          have hsum := sum_map_set (fun c : Session => added c.thread.trace) hc
            { c with thread := ⟨c.thread.trace ++ [event], k event.2⟩ }
          rw [added_snoc] at hsum
          rw [count_bytesTransferred ha.bytes]
          congr 1
          dsimp only
          omega
  -- a session that is destroyed has no event left to add
  | destroy i =>
      simp only [statsStep, Option.bind_eq_some_iff] at h
      obtain ⟨c, hc, h⟩ := h
      split at h
      · simp at h
      · obtain rfl := (Prod.mk.inj (Option.some.inj h)).2
        have hbooks := ha.books c (List.mem_of_getElem? hc)
        refine ⟨?_, ?_, ha.books_set i hbooks⟩
        · simpa using ha.active
        · have hsum := sum_map_set (fun c : Session => added c.thread.trace) hc
            { c with destroyed := true }
          rw [ha.bytes]
          congr 1
          dsimp only at hsum ⊢
          omega

/-- The statistics are what was counted, after every run. -/
lemma reach_accounted {config : HandlerConfig} {fuel : ℕ} {calls : List StatsCall} {s : Sessions}
    (hs : Reach (statsStep config fuel) noSessions calls s) : Accounted config s := by
  obtain ⟨log, hex⟩ := hs
  exact exec_preserves _ (fun _ _ _ _ => statsStep_accounted) hex (noSessions_accounted config)

/-- At rest, the counters of a connection are what its handler counted. -/
lemma AtRest.sum_eq {config : HandlerConfig} {c : Session} {conn : Connection}
    (hbooks : c.thread.Meets Anything Allowed (Books config c.host)) (hrest : c.AtRest conn)
    (hn : added c.thread.trace + (c.forwarded config).length < sizeMod) :
    conn.bytesSent + conn.bytesReceived =
      added c.thread.trace + (c.forwarded config).length := by
  obtain ⟨ret, hyields⟩ := hrest
  obtain ⟨tr, htr, ht⟩ := hbooks.yields hyields
  obtain ⟨hadded, hforwarded⟩ := counts_of_silent config c.host c.thread.trace htr
  rw [Books, hadded, hforwarded] at ht
  exact ht.sum_eq hn

/-- At rest, the counters of all connections are what their handlers counted. -/
lemma sum_conns_eq {config : HandlerConfig} {cs : List Session} {conns : List Connection}
    (hrest : List.Forall₂ Session.AtRest cs conns)
    (hbooks : ∀ c ∈ cs, c.thread.Meets Anything Allowed (Books config c.host))
    (hn : (cs.map fun c => added c.thread.trace + (c.forwarded config).length).sum < sizeMod) :
    (conns.map fun conn => conn.bytesSent + conn.bytesReceived).sum =
      (cs.map fun c => added c.thread.trace + (c.forwarded config).length).sum := by
  induction hrest with
  | nil => rfl
  | @cons c conn cs conns hc _ ih =>
      rw [List.map_cons, List.sum_cons] at hn
      rw [List.map_cons, List.map_cons, List.sum_cons, List.sum_cons,
        AtRest.sum_eq (hbooks c (by simp)) hc (by omega),
        ih (fun c' hc' => hbooks c' (by simp [hc'])) (by omega)]

/-- Two counts agree where one of them counts nothing more. -/
lemma sum_eq_sum_add_iff {β : Type} (f g : β → ℕ) (l : List β) :
    (l.map f).sum = (l.map fun x => f x + g x).sum ↔ ∀ x ∈ l, g x = 0 := by
  rw [List.sum_map_add, Nat.left_eq_add, List.sum_eq_zero_iff]
  simp

/-- **When the statistics agree.** In every state that is reached with all handlers at
rest, while nothing wraps: just when no connection was destroyed and none has forwarded
a request. -/
theorem stats_agree_iff (config : HandlerConfig) (fuel : ℕ) (calls : List StatsCall) (s : Sessions)
    (hs : Reach (statsStep config fuel) noSessions calls s) (conns : List Connection)
    (hrest : List.Forall₂ Session.AtRest s.sessions conns) (hcreated : s.sessions.length < sizeMod)
    (hcounted : s.counted config < sizeMod) :
    Agree s conns ↔ ∀ c ∈ s.sessions, c.destroyed = false ∧ c.forwarded config = [] := by
  have ha := reach_accounted hs
  have hadded : (s.sessions.map fun c => added c.thread.trace).sum < sizeMod := by
    refine lt_of_le_of_lt (List.sum_le_sum fun c _ => Nat.le_add_right _ _) hcounted
  have hactive : s.stats.activeConnections = s.sessions.countP (fun c => !c.destroyed) ↔
      ∀ c ∈ s.sessions, c.destroyed = false := by
    rw [ha.active, Nat.mod_eq_of_lt hcreated, eq_comm, List.countP_eq_length]
    simp
  have hbytes : s.stats.bytesTransferred =
      (conns.map fun conn => conn.bytesSent + conn.bytesReceived).sum ↔
      ∀ c ∈ s.sessions, c.forwarded config = [] := by
    rw [ha.bytes, Nat.mod_eq_of_lt hadded, sum_conns_eq hrest ha.books hcounted,
      sum_eq_sum_add_iff]
    simp
  rw [Agree, hactive, hbytes]
  constructor
  · rintro ⟨hlive, hnone⟩ c hc
    exact ⟨hlive c hc, hnone c hc⟩
  · intro hall
    exact ⟨fun c hc => (hall c hc).1, fun c hc => (hall c hc).2⟩

/-- A proxy that relays to its backend. -/
def relayingConfig : HandlerConfig := { plainConfig with mode := .tcp }

lemma byte_pos : 0 < ([72] : Bytes).length := Nat.one_pos

lemma byte_le_bufferSize : ([72] : Bytes).length ≤ bufferSize := by decide

/-- A client connects, and its first byte is relayed to the backend. -/
def relayedCalls : List StatsCall :=
  [.create [] ⟨[], [], []⟩, .answer 0 ⟨.connectToHost [] 0, (4 : ℤ)⟩,
    .answer 0 ⟨.select 30, .ready true false (Bool.true_or false)⟩,
    .answer 0 ⟨.recv .client bufferSize, .data [72] byte_pos byte_le_bufferSize⟩,
    .answer 0 ⟨.send .remote [72], .sent 1 Nat.one_pos byte_pos⟩,
    .answer 0 ⟨.statsAddBytesTransferred 1, ()⟩]

theorem stats_agree_iff_relayed : ∃ s,
    Reach (statsStep relayingConfig 3) noSessions relayedCalls s ∧
      Agree s [{ connectionCreate [] with remoteFd := 4, bytesSent := 1 }] := by
  refine ⟨_, ⟨_, rfl⟩,
    (stats_agree_iff relayingConfig 3 relayedCalls _ ⟨_, rfl⟩ _ ?_ ?_ ?_).mpr ?_⟩
  · refine .cons ⟨0, [⟨.select 30, .idle⟩], ?_, .call trivial (.ret _ _)⟩ .nil
    intro e he
    rw [List.mem_singleton.mp he]
    exact ⟨fun p => ⟨rfl, rfl⟩, rfl⟩
  · decide +kernel
  · decide +kernel
  · intro c hc
    rw [List.mem_singleton.mp hc]
    exact ⟨rfl, rfl⟩

/-- A request is forwarded to its server. -/
def fetchCalls : List StatsCall :=
  let message := ascii "GET / HTTP/1.0\r\nHost: a\r\n\r\n"
  [.create [] ⟨[], [], []⟩,
    .answer 0 ⟨.recv .client (bufferSize - 1), .data message (by decide) (by decide)⟩,
    .answer 0 ⟨.statsIncrementRequests, ()⟩, .answer 0 ⟨.connectToHost [97] 80, (4 : ℤ)⟩,
    .answer 0 ⟨.send .remote message, .sent 27 (by decide) (by decide)⟩]

lemma length_noAddress : (List.replicate 6 0 : Bytes).length = 6 := rfl

/-- The peers fall silent. -/
def silence (_ : Trace) : (c : Command) → Reply c
  | .recv _ _ => .closed
  | .send _ _ => .failed
  | .select _ => .idle
  | .connectToHost _ _ => (-1 : ℤ)
  | .getsockname => ⟨List.replicate 6 0, length_noAddress⟩
  | .malloc _ => false
  | .realloc _ => false
  | .authVerify _ _ => (-1 : ℤ)
  | .filterCheckUrl _ => (0 : ℤ)
  | .filterCheckIp _ => (0 : ℤ)
  | .cacheGet _ => none
  | .cachePut _ _ _ => (-1 : ℤ)
  | .statsIncrementRequests => ()
  | .statsAddBytesTransferred _ => ()

lemma fetchCalls_run :
    ((exec (statsStep plainConfig 2) noSessions fetchCalls).map fun r =>
      (r.2.stats, r.2.sessions.map fun c => play silence c.thread.trace c.thread.rest)) =
      some (⟨1, 1, 1, 0⟩, [([⟨.recv .remote bufferSize, .closed⟩],
        .returned (0, ⟨[], 4, 27, 0, 0⟩))]) := by
  rfl

/-- **One call is never made and another is missing.** -/
theorem stats_disagree :
    (∃ s, Reach (statsStep plainConfig 2) noSessions [.create [] ⟨[], [], []⟩, .destroy 0] s ∧
      List.Forall₂ Session.AtRest s.sessions [connectionCreate []] ∧
      s.stats.activeConnections = 1 ∧ s.sessions.countP (fun c => !c.destroyed) = 0) ∧
    ∃ s, Reach (statsStep plainConfig 2) noSessions fetchCalls s ∧
      List.Forall₂ Session.AtRest s.sessions [⟨[], 4, 27, 0, 0⟩] ∧
      s.stats.bytesTransferred = 0 := by
  refine ⟨⟨_, ⟨_, rfl⟩, ?_, rfl, rfl⟩, ?_⟩
  · refine .cons ⟨-1, [⟨.recv .client (bufferSize - 1), .closed⟩], ?_,
      .call trivial (.ret _ _)⟩ .nil
    intro e he
    rw [List.mem_singleton.mp he]
    exact ⟨fun p => ⟨rfl, rfl⟩, rfl⟩
  · obtain ⟨⟨log, s⟩, hex, hrun⟩ := Option.map_eq_some_iff.mp fetchCalls_run
    obtain ⟨hstats, hplay⟩ := Prod.mk.inj hrun
    obtain ⟨c, hc, hplay⟩ := List.map_eq_singleton_iff.mp hplay
    refine ⟨s, ⟨log, hex⟩, ?_, congrArg Stats.bytesTransferred hstats⟩
    rw [hc]
    refine .cons ⟨0, [⟨.recv .remote bufferSize, .closed⟩], ?_, ?_⟩ .nil
    · intro e he
      rw [List.mem_singleton.mp he]
      exact ⟨fun p => ⟨rfl, rfl⟩, rfl⟩
    · have hruns : Runs Anything c.thread.trace c.thread.rest
          (play silence c.thread.trace c.thread.rest).1
          (play silence c.thread.trace c.thread.rest).2 := play_runs (fun _ _ => trivial) _ _
      rwa [hplay] at hruns

end ProxyMax
