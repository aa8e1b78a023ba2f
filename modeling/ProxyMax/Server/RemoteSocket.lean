import ProxyMax.Server.Statistics

/-!
The remote socket of a connection, in its handlers.

* `remoteFd`: the remote descriptor after the calls of a handler.
* `Permits`, `SocketGuard`: a remote server is connected to while there is none, and used while
  there is one.
* `Linked`: the record of the connection has this descriptor.
* `wp_connectionHandle_linked`: the handlers keep to this in all modes, and leave in the record
  what `connection_destroy` has to close.
-/

namespace ProxyMax.Resources

open CString Interaction

/-- The remote descriptor after a call. -/
def remoteAfter (fd : ℤ) : Event Reply → ℤ
  | ⟨.connectToHost _ _, fd'⟩ => fd'
  | _ => fd

/-- The remote descriptor: -1 at first, then what `connect_to_host` returned last. -/
def remoteFd (h : Trace) : ℤ := h.foldl remoteAfter (-1)

/-- With the remote descriptor `fd`, a remote server is connected to while there is none, and
used while there is one. -/
def Permits (fd : ℤ) : Command → Prop
  | .connectToHost _ _ => fd < 0
  | .recv .remote _ => 0 ≤ fd
  | .send .remote _ => 0 ≤ fd
  | .select _ => 0 ≤ fd
  | .getsockname => 0 ≤ fd
  | _ => True

/-- The guard of the remote descriptor. -/
def SocketGuard (h : Trace) (c : Command) : Prop := Permits (remoteFd h) c

/-- A call that does not connect. -/
def Stays : Command → Prop
  | .connectToHost _ _ => False
  | _ => True

/-- A call that has nothing to do with the remote server. -/
def Apart : Command → Prop
  | .connectToHost _ _ => False
  | .recv .remote _ => False
  | .send .remote _ => False
  | .select _ => False
  | .getsockname => False
  | _ => True

lemma remoteFd_snoc (h : Trace) (e : Event Reply) :
    remoteFd (h ++ [e]) = remoteAfter (remoteFd h) e := by
  rw [remoteFd, List.foldl_append]
  rfl

lemma Stays.keeps {c : Command} (hc : Stays c) (h : Trace) (r : Reply c) :
    remoteFd (h ++ [⟨c, r⟩]) = remoteFd h := by
  rw [remoteFd_snoc]
  cases c with
  | connectToHost host port => exact hc.elim
  | _ => rfl

lemma Apart.stays {c : Command} (hc : Apart c) : Stays c := by
  cases c with
  | connectToHost host port => exact hc
  | _ => trivial

lemma Apart.guard {c : Command} (hc : Apart c) (h : Trace) : SocketGuard h c := by
  cases c with
  | connectToHost host port => exact hc.elim
  | recv peer size =>
      cases peer with
      | client => trivial
      | remote => exact hc.elim
  | send peer bytes =>
      cases peer with
      | client => trivial
      | remote => exact hc.elim
  | select seconds => exact hc.elim
  | getsockname => exact hc.elim
  | _ => trivial

lemma Stays.guard {c : Command} (hc : Stays c) {h : Trace} (hfd : 0 ≤ remoteFd h) :
    SocketGuard h c := by
  cases c with
  | connectToHost host port => exact hc.elim
  | recv peer size =>
      cases peer with
      | client => trivial
      | remote => exact hfd
  | send peer bytes =>
      cases peer with
      | client => trivial
      | remote => exact hfd
  | select seconds => exact hfd
  | getsockname => exact hfd
  | _ => trivial

lemma SendsTo.apart {c : Command} (h : c.SendsTo .client) : Apart c := by
  obtain ⟨bytes, rfl⟩ := h
  trivial

lemma SendsTo.stays {peer : Peer} {c : Command} (h : c.SendsTo peer) : Stays c := by
  obtain ⟨bytes, rfl⟩ := h
  trivial

lemma Relays.stays {c : Command} (h : c.Relays) : Stays c := by
  rcases h with ⟨seconds, rfl⟩ | ⟨peer, size, rfl⟩ | ⟨peer, h⟩ | ⟨n, rfl⟩
  · trivial
  · trivial
  · exact SendsTo.stays h
  · trivial

/-- The record has the remote descriptor. -/
def Linked (conn : Connection) (h : Trace) : Prop := conn.remoteFd = remoteFd h

section Handlers

variable {α : Type} {h : Trace} {conn : Connection}

/-- What a program does without the remote server. -/
lemma wp_apart {p : Handler α} (hp : Only Apart p) (hl : Linked conn h) :
    wp Anything SocketGuard p (fun _ => Linked conn) h :=
  wp_of_only (fun h _ hc _ => hc.guard h)
    (fun h _ r hc hl => hl.trans (hc.stays.keeps h r).symm) hp hl

/-- What a program does while the remote server is connected. -/
lemma wp_stays {p : Handler α} (hp : Only Stays p) (hl : Linked conn h)
    (hfd : 0 ≤ conn.remoteFd) : wp Anything SocketGuard p (fun _ => Linked conn) h :=
  wp_of_only (fun _ _ hc hl => hc.guard (hfd.trans_eq hl))
    (fun h _ r hc hl => hl.trans (hc.keeps h r).symm) hp hl

lemma wp_refuse_linked (fuel : ℕ) (response : Bytes) (hl : Linked conn h) :
    wp Anything SocketGuard (refuse fuel response conn) (fun x => Linked x.2) h := by
  simp only [refuse, bind_eq, pure_eq, wp_bind]
  exact wp_apart (only_mono (only_sendAll fuel .client response) fun _ hc => SendsTo.apart hc) hl

lemma linked_connect (h : Trace) (conn : Connection) (host : Bytes) (port fd : ℤ) :
    Linked { conn with remoteFd := fd } (h ++ [⟨.connectToHost host port, fd⟩]) :=
  (remoteFd_snoc h ⟨.connectToHost host port, fd⟩).symm

/-- **Connecting.** -/
lemma wp_connect_linked {host : Bytes} {port : ℤ} {f : ℤ → Handler α}
    {Q : α → Trace → Prop} (hl : Linked conn h) (hnone : conn.remoteFd < 0)
    (hf : ∀ fd h', Linked { conn with remoteFd := fd } h' → wp Anything SocketGuard (f fd) Q h') :
    wp Anything SocketGuard ((ProxyMax.connectToHost host port).bind f) Q h :=
  ⟨hl.symm.trans_lt hnone, fun fd _ => hf fd _ (linked_connect h conn host port fd)⟩

/-- A half of a round changes the counters only. -/
lemma wp_relayHalf_linked (fuel size : ℕ) (src : Peer) (ready : Bool) {count : ℕ → Connection}
    (hcount : ∀ n, (count n).remoteFd = conn.remoteFd) (hl : Linked conn h)
    (hfd : 0 ≤ conn.remoteFd) :
    wp Anything SocketGuard (relayHalf fuel size src ready count conn)
      (fun c h' => Linked (c.getD conn) h' ∧ 0 ≤ (c.getD conn).remoteFd) h := by
  rw [relayHalf]
  split
  · refine (wp_bind _ _ _ _ _ _).mpr (wp_mono (wp_stays (only_mono
      (only_relay fuel size src src.other) fun _ hc => Relays.stays hc) hl hfd) fun n h' hl' => ?_)
    cases n with
    | none => exact ⟨hl', hfd⟩
    | some n => exact ⟨(hcount n).trans hl', (hcount n).symm ▸ hfd⟩
  · exact ⟨hl, hfd⟩

lemma wp_tunnel_linked (fuel size seconds : ℕ) (hl : Linked conn h) (hfd : 0 ≤ conn.remoteFd) :
    wp Anything SocketGuard (tunnel fuel size seconds conn) Linked h := by
  refine wp_loop (I := fun c h' => Linked c h' ∧ 0 ≤ c.remoteFd) ?_ fuel ⟨hl, hfd⟩
  rintro c h ⟨hl, hfd⟩
  simp only [tunnelRound, select, bind_eq, pure_eq, wp_bind, wp_ask]
  refine ⟨hfd.trans_eq hl, fun r _ => ?_⟩
  replace hl : Linked c (h ++ [⟨.select seconds, r⟩]) :=
    hl.trans (Stays.keeps (c := .select seconds) trivial h r).symm
  cases r with
  | idle => exact hl
  | ready client remote some_ready =>
      dsimp only
      rw [relayFromClient_eq]
      refine (wp_bind _ _ _ _ _ _).mpr
        (wp_mono (wp_relayHalf_linked fuel size .client client (fun _ => rfl) hl hfd) ?_)
      rintro c' h₁ ⟨hl₁, hfd₁⟩
      cases c' with
      | none => exact hl₁
      | some c₁ =>
          dsimp only
          rw [relayFromRemote_eq]
          refine (wp_bind _ _ _ _ _ _).mpr (wp_mono
            (wp_relayHalf_linked fuel size .remote remote (fun _ => rfl) hl₁ hfd₁) ?_)
          rintro c' h₂ ⟨hl₂, hfd₂⟩
          cases c' with
          | none => exact hl₂
          | some c₂ => exact ⟨hl₂, hfd₂⟩

/-! ### The handlers -/

lemma wp_sendClient_linked (fuel : ℕ) (bytes : Bytes) (hl : Linked conn h) :
    wp Anything SocketGuard (sendAll fuel .client bytes) (fun _ => Linked conn) h :=
  wp_apart (only_mono (only_sendAll fuel .client bytes) fun _ hc => SendsTo.apart hc) hl

lemma wp_httpConnect_linked (fuel : ℕ) (request : Request) (hl : Linked conn h)
    (hnone : conn.remoteFd < 0) :
    wp Anything SocketGuard (httpConnect fuel request conn) (fun x => Linked x.2) h := by
  rw [httpConnect]
  split
  · trivial
  · simp only [bind_eq, pure_eq]
    refine wp_connect_linked hl hnone fun fd h' hl' => ?_
    split
    · exact wp_refuse_linked fuel badGateway hl'
    · rename_i hpos
      simp only [wp_bind]
      exact wp_mono (wp_sendClient_linked fuel _ hl') fun _ h₁ hl₁ =>
        (wp_bind _ _ _ _ _ _).mpr (wp_tunnel_linked fuel bufferSize 300 hl₁ (not_lt.mp hpos))

/-- A call of a component. -/
lemma Linked.snoc (hl : Linked conn h) {c : Command} (hc : Stays c) (r : Reply c) :
    Linked conn (h ++ [⟨c, r⟩]) :=
  hl.trans (hc.keeps h r).symm

lemma wp_keepChunk_linked (response : ResponseBuffer) (chunk : Bytes) (hl : Linked conn h) :
    wp Anything SocketGuard (keepChunk response chunk) (fun _ => Linked conn) h := by
  cases response with
  | none => exact hl
  | some kept =>
      obtain ⟨kept, capacity⟩ := kept
      rw [keepChunk]
      split
      · simp only [realloc, bind_eq, pure_eq, wp_bind, wp_ask]
        refine ⟨trivial, fun r _ => ?_⟩
        have hl' := hl.snoc (c := .realloc (addSize capacity capacity)) trivial r
        split
        · split
          · trivial
          · exact hl'
        · exact hl'
      · split
        · trivial
        · exact hl

lemma wp_relayResponse_linked (fuel : ℕ) (response : ResponseBuffer) (hl : Linked conn h)
    (hfd : 0 ≤ conn.remoteFd) :
    wp Anything SocketGuard (relayResponse fuel response conn) (fun x => Linked x.2) h := by
  refine wp_loop (I := fun x h' => Linked x.2 h' ∧ 0 ≤ x.2.remoteFd) ?_ fuel ⟨hl, hfd⟩
  rintro ⟨response, c⟩ h ⟨hl, hfd⟩
  simp only [relayResponseRound, recv, bind_eq, pure_eq, wp_bind, wp_ask]
  refine ⟨hfd.trans_eq hl, fun r _ => ?_⟩
  replace hl := hl.snoc (c := .recv .remote bufferSize) trivial r
  cases r with
  | closed => exact hl
  | error => exact hl
  | data chunk pos le =>
      dsimp only
      refine (wp_bind _ _ _ _ _ _).mpr
        (wp_mono (wp_sendClient_linked fuel chunk hl) fun ret h₁ hl₁ => ?_)
      split
      · exact hl₁
      · simp only [statsAddBytesTransferred, wp_bind, wp_ask]
        refine ⟨trivial, fun u _ => ?_⟩
        have hl₂ := hl₁.snoc (c := .statsAddBytesTransferred chunk.length) trivial u
        exact wp_mono (wp_keepChunk_linked response chunk hl₂) fun _ h₃ hl₃ => ⟨hl₃, hfd⟩

lemma wp_storeResponse_linked (config : HandlerConfig) (request : Request)
    (response : ResponseBuffer) (hl : Linked conn h) :
    wp Anything SocketGuard (storeResponse config request response) (fun _ => Linked conn) h := by
  cases response with
  | none => exact hl
  | some kept =>
      simp only [storeResponse]
      split
      · exact ⟨trivial, fun r _ => hl.snoc (c := .cachePut _ _ _) trivial r⟩
      · exact hl

lemma wp_httpForward_linked (config : HandlerConfig) (fuel : ℕ) (received : Bytes)
    (request : Request) (hl : Linked conn h) (hnone : conn.remoteFd < 0) :
    wp Anything SocketGuard (httpForward config fuel received request conn)
      (fun x => Linked x.2) h := by
  simp only [httpForward, bind_eq, pure_eq]
  refine wp_connect_linked hl hnone fun fd h' hl' => ?_
  split
  · exact wp_refuse_linked fuel badGateway hl'
  · rename_i hpos
    have hfd : 0 ≤ fd := not_lt.mp hpos
    refine (wp_bind _ _ _ _ _ _).mpr (wp_mono (wp_stays (only_mono (only_sendAll fuel .remote _)
      fun _ hc => SendsTo.stays hc) hl' hfd) fun ret h₁ hl₁ => ?_)
    split
    · exact hl₁
    · have hrest : ∀ (allocated : Bool) h₂, Linked { conn with remoteFd := fd } h₂ →
          wp Anything SocketGuard
            ((relayResponse fuel (if allocated then some ([], bufferSize) else none)
              { conn with
                remoteFd := fd
                bytesSent := addSize conn.bytesSent received.length }).bind
              fun x => (storeResponse config request x.1).bind fun _ => .ret ((0 : ℤ), x.2))
            (fun x => Linked x.2) h₂ := fun allocated h₂ hl₂ =>
        (wp_bind _ _ _ _ _ _).mpr (wp_mono (wp_relayResponse_linked fuel _ hl₂ hfd)
          fun x h₃ hl₃ => (wp_bind _ _ _ _ _ _).mpr
            (wp_storeResponse_linked config request x.1 hl₃))
      split
      · exact ⟨trivial, fun allocated _ =>
          hrest allocated _ (hl₁.snoc (c := .malloc bufferSize) trivial allocated)⟩
      · exact hrest false h₁ hl₁

lemma wp_httpFetch_linked (config : HandlerConfig) (fuel : ℕ) (received : Bytes)
    (request : Request) (hl : Linked conn h) (hnone : conn.remoteFd < 0) :
    wp Anything SocketGuard (httpFetch config fuel received request conn)
      (fun x => Linked x.2) h := by
  have hanswer : ∀ (cached : Option Bytes) h₁, Linked conn h₁ →
      wp Anything SocketGuard (httpAnswer config fuel received request conn cached)
        (fun x => Linked x.2) h₁ := by
    intro cached h₁ hl₁
    cases cached with
    | none => exact wp_httpForward_linked config fuel received request hl₁ hnone
    | some data => exact (wp_bind _ _ _ _ _ _).mpr (wp_sendClient_linked fuel data hl₁)
  simp only [httpFetch, bind_eq, pure_eq]
  split
  · exact ⟨trivial, fun cached _ =>
      hanswer cached _ (hl.snoc (c := .cacheGet request.url) trivial cached)⟩
  · exact hanswer none h hl

lemma wp_httpRoute_linked (config : HandlerConfig) (fuel : ℕ) (received : Bytes)
    (request : Request) (hl : Linked conn h) (hnone : conn.remoteFd < 0) :
    wp Anything SocketGuard (httpRoute config fuel received request conn)
      (fun x => Linked x.2) h := by
  have hchecked : ∀ (blocked : ℤ) h₁, Linked conn h₁ → wp Anything SocketGuard
      (if blocked ≠ 0 then refuse fuel forbidden conn
        else if request.method = ascii "CONNECT" then httpConnect fuel request conn
        else httpFetch config fuel received request conn) (fun x => Linked x.2) h₁ := by
    intro blocked h₁ hl₁
    split
    · exact wp_refuse_linked fuel forbidden hl₁
    · split
      · exact wp_httpConnect_linked fuel request hl₁ hnone
      · exact wp_httpFetch_linked config fuel received request hl₁ hnone
  simp only [httpRoute, bind_eq, pure_eq]
  split
  · exact ⟨trivial, fun blocked _ =>
      hchecked blocked _ (hl.snoc (c := .filterCheckUrl request.url) trivial blocked)⟩
  · exact hchecked 0 h hl

lemma wp_httpServe_linked (config : HandlerConfig) (fuel : ℕ) (received : Bytes)
    (request : Request) (hl : Linked conn h) (hnone : conn.remoteFd < 0) :
    wp Anything SocketGuard (httpServe config fuel received request conn)
      (fun x => Linked x.2) h := by
  simp only [httpServe, statsIncrementRequests, bind_eq, wp_bind, wp_ask]
  refine ⟨trivial, fun u _ => ?_⟩
  have hl₁ := hl.snoc (c := .statsIncrementRequests) trivial u
  split
  · rw [httpAuthenticate]
    split
    · exact wp_refuse_linked fuel authRequired hl₁
    · rename_i username password _
      split
      · trivial
      · simp only [callAuthVerify, bind_eq, pure_eq, wp_bind, wp_ask, wp_ret]
        refine ⟨trivial, fun ret _ => ?_⟩
        have hl₂ := hl₁.snoc (c := .authVerify username password) trivial ret
        split
        · have hl₃ : Linked { conn with authenticated := 1 } _ := hl₂
          exact wp_httpRoute_linked config fuel received request hl₃ hnone
        · exact wp_refuse_linked fuel authRequired hl₂
  · exact wp_httpRoute_linked config fuel received request hl₁ hnone

lemma wp_httpHandleRequest_linked (config : HandlerConfig) (fuel : ℕ) (host : Bytes)
    (hl : Linked conn h) (hnone : conn.remoteFd < 0) :
    wp Anything SocketGuard (httpHandleRequest config fuel host conn) (fun x => Linked x.2) h := by
  simp only [httpHandleRequest, recv, bind_eq, pure_eq, wp_bind, wp_ask]
  refine ⟨trivial, fun r _ => ?_⟩
  have hl₁ := hl.snoc (c := .recv .client (bufferSize - 1)) trivial r
  cases r with
  | closed => exact hl₁
  | error => exact hl₁
  | data received pos le =>
      dsimp only
      split
      · trivial
      · exact wp_refuse_linked fuel badRequest hl₁
      · exact wp_httpServe_linked config fuel received _ hl₁ hnone

lemma wp_backendRelay_linked (config : HandlerConfig) (fuel : ℕ) (hl : Linked conn h)
    (hnone : conn.remoteFd < 0) :
    wp Anything SocketGuard (backendRelay config fuel conn) (fun x => Linked x.2) h := by
  simp only [backendRelay, bind_eq, pure_eq]
  refine wp_connect_linked hl hnone fun fd h' hl' => ?_
  split
  · exact hl'
  · rename_i hpos
    exact (wp_bind _ _ _ _ _ _).mpr (wp_tunnel_linked fuel bufferSize 30 hl' (not_lt.mp hpos))

/-- The handshake leaves the descriptors of the record as they are. -/
lemma wp_socks5Authenticate_linked (fuel : ℕ) (buffer : Bytes) (hl : Linked conn h) :
    wp Anything SocketGuard (socks5Authenticate fuel buffer conn)
      (fun x h' => Linked x.2 h' ∧ x.2.remoteFd = conn.remoteFd) h := by
  simp only [socks5Authenticate, recv, bind_eq, pure_eq, wp_bind, wp_ask]
  refine ⟨trivial, fun r _ => ?_⟩
  have hl₁ := hl.snoc (c := .recv .client 256) trivial r
  cases r with
  | closed => exact ⟨hl₁, rfl⟩
  | error => exact ⟨hl₁, rfl⟩
  | data received pos le =>
      dsimp only
      split
      · exact ⟨hl₁, rfl⟩
      · rename_i username password _
        simp only [callAuthVerify, wp_bind, wp_ask]
        refine ⟨trivial, fun ret _ => ?_⟩
        have hl₂ := hl₁.snoc (c := .authVerify username password) trivial ret
        refine wp_mono (wp_sendClient_linked fuel _ hl₂) fun sent h₃ hl₃ => ?_
        split
        · exact ⟨hl₃, rfl⟩
        · split
          · exact ⟨hl₃, rfl⟩
          · exact ⟨hl₃, rfl⟩

lemma wp_socks5HandleHandshake_linked (config : HandlerConfig) (fuel : ℕ) (buffer : Bytes)
    (hl : Linked conn h) :
    wp Anything SocketGuard (socks5HandleHandshake config fuel buffer conn)
      (fun x h' => Linked x.2 h' ∧ x.2.remoteFd = conn.remoteFd) h := by
  simp only [socks5HandleHandshake, recv, bind_eq, pure_eq, wp_bind, wp_ask]
  refine ⟨trivial, fun r _ => ?_⟩
  have hl₁ := hl.snoc (c := .recv .client 256) trivial r
  cases r with
  | closed => exact ⟨hl₁, rfl⟩
  | error => exact ⟨hl₁, rfl⟩
  | data received pos le =>
      dsimp only
      split
      · exact ⟨hl₁, rfl⟩
      · refine (wp_bind _ _ _ _ _ _).mpr
          (wp_mono (wp_sendClient_linked fuel _ hl₁) fun sent h₂ hl₂ => ?_)
        split
        · exact ⟨hl₂, rfl⟩
        · split
          · exact ⟨hl₂, rfl⟩
          · split
            · exact wp_socks5Authenticate_linked fuel _ hl₂
            · exact ⟨hl₂, rfl⟩

lemma wp_socks5Connect_linked (fuel : ℕ) (host : Bytes) (port : ℤ) (hl : Linked conn h)
    (hnone : conn.remoteFd < 0) :
    wp Anything SocketGuard (socks5Connect fuel host port conn) (fun x => Linked x.2) h := by
  simp only [socks5Connect, bind_eq, pure_eq]
  refine wp_connect_linked hl hnone fun fd h' hl' => ?_
  split
  · exact wp_refuse_linked fuel (socks5Reply 4) hl'
  · rename_i hpos
    have hfd : 0 ≤ fd := not_lt.mp hpos
    simp only [getsockname, wp_bind, wp_ask]
    refine ⟨hfd.trans_eq hl', fun localAddr _ => ?_⟩
    have hl₁ := hl'.snoc (c := .getsockname) trivial localAddr
    refine wp_mono (wp_sendClient_linked fuel _ hl₁) fun sent h₂ hl₂ => ?_
    split
    · exact hl₂
    · exact (wp_bind _ _ _ _ _ _).mpr (wp_tunnel_linked fuel 512 300 hl₂ hfd)

lemma wp_socks5HandleRequest_linked (fuel : ℕ) (buffer : Bytes) (hl : Linked conn h)
    (hnone : conn.remoteFd < 0) :
    wp Anything SocketGuard (socks5HandleRequest fuel buffer conn) (fun x => Linked x.2) h := by
  simp only [socks5HandleRequest, recv, bind_eq, pure_eq, wp_bind, wp_ask]
  refine ⟨trivial, fun r _ => ?_⟩
  have hl₁ := hl.snoc (c := .recv .client 512) trivial r
  cases r with
  | closed => exact hl₁
  | error => exact hl₁
  | data received pos le =>
      dsimp only
      split
      · exact hl₁
      · exact wp_refuse_linked fuel (socks5Reply 8) hl₁
      · split
        · exact wp_socks5Connect_linked fuel _ _ hl₁ hnone
        · split
          · exact wp_refuse_linked fuel (socks5Reply 7) hl₁
          · exact hl₁

/-- **The remote socket of every connection**, in all modes and whatever its handler meets. -/
lemma wp_connectionHandle_linked (config : HandlerConfig) (fuel : ℕ) (locals : Locals)
    (hl : Linked conn h) (hnone : conn.remoteFd < 0) :
    wp Anything SocketGuard (connectionHandle config fuel locals conn)
      (fun x => Linked x.2) h := by
  have hmode : ∀ h₁, Linked conn h₁ →
      wp Anything SocketGuard (modeHandle config fuel locals conn) (fun x => Linked x.2) h₁ := by
    intro h₁ hl₁
    rw [modeHandle]
    split
    · exact wp_httpHandleRequest_linked config fuel locals.host hl₁ hnone
    · exact wp_httpHandleRequest_linked config fuel locals.host hl₁ hnone
    · simp only [socks5Handle, bind_eq, pure_eq, wp_bind]
      refine wp_mono (wp_socks5HandleHandshake_linked config fuel locals.handshake hl₁) ?_
      rintro x h₂ ⟨hl₂, hfd₂⟩
      split
      · exact wp_socks5HandleRequest_linked fuel locals.request hl₂ (hfd₂.trans_lt hnone)
      · exact hl₂
    · exact wp_backendRelay_linked config fuel hl₁ hnone
    · exact wp_backendRelay_linked config fuel hl₁ hnone
    · exact hl₁
  have hchecked : ∀ (blocked : ℤ) h₁, Linked conn h₁ → wp Anything SocketGuard
      (if blocked ≠ 0 then .ret ((-1 : ℤ), conn) else modeHandle config fuel locals conn)
      (fun x => Linked x.2) h₁ := by
    intro blocked h₁ hl₁
    split
    · exact hl₁
    · exact hmode h₁ hl₁
  simp only [connectionHandle, bind_eq, pure_eq]
  split
  · exact ⟨trivial, fun blocked _ =>
      hchecked blocked _ (hl.snoc (c := .filterCheckIp conn.clientIp) trivial blocked)⟩
  · exact hchecked 0 h hl

end Handlers

end ProxyMax.Resources
