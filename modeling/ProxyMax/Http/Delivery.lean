import ProxyMax.Http.Handler
import ProxyMax.Http.RequestHead
import ProxyMax.Server.Network

/-!
The delivery of a request that arrives in pieces.

* `Responding`: events that neither bring the remote server anything nor take anything
  from the client.
* `ends_httpForward`: what was received is forwarded.
* `Delivered`, `Delivers`: the request is parsed and forwarded as a whole, in a run and
  in every run.
* `delivers_iff`: this is so for the requests that arrive in one piece.
-/

namespace ProxyMax

open CString Interaction

/-- Between `h` and `h'` nothing is brought to the remote server, nothing is received from
the client, and no connection is made. -/
structure Responding (h h' : Trace) : Prop where
  toRemote : acceptedBy .remote h' = acceptedBy .remote h
  fromClient : receivedFrom .client h' = receivedFrom .client h
  destinations_eq : destinations h' = destinations h

namespace Responding

lemma refl (h : Trace) : Responding h h := ⟨rfl, rfl, rfl⟩

lemma trans {h h' h'' : Trace} (hr : Responding h h') (hr' : Responding h' h'') :
    Responding h h'' :=
  ⟨hr'.toRemote.trans hr.toRemote, hr'.fromClient.trans hr.fromClient,
    hr'.destinations_eq.trans hr.destinations_eq⟩

lemma of_event (h : Trace) {e : Event Reply} (ha : accepted .remote e = [])
    (hc : received .client e = []) (hd : connectedTo e = []) : Responding h (h ++ [e]) := by
  refine ⟨?_, ?_, ?_⟩
  · rw [acceptedBy_snoc, ha, List.append_nil]
  · rw [receivedFrom_snoc, hc, List.append_nil]
  · rw [destinations_snoc, hd, List.append_nil]

lemma snoc {h h' : Trace} (hr : Responding h h') {e : Event Reply}
    (ha : accepted .remote e = []) (hc : received .client e = []) (hd : connectedTo e = []) :
    Responding h (h' ++ [e]) :=
  hr.trans (of_event h' ha hc hd)

end Responding

lemma SentTo.responding {bytes : Bytes} {h h' : Trace} (hs : SentTo .client bytes h h') :
    Responding h h' :=
  ⟨hs.acceptedBy_other (Peer.other_ne .client), hs.receivedFrom_eq .client, hs.destinations_eq⟩

/-- Between `h` and `h'` the bytes are forwarded to the destination. -/
structure Forwarded (bytes : Bytes) (host : Bytes) (port : ℤ) (h h' : Trace) : Prop where
  toRemote : acceptedBy .remote h' = acceptedBy .remote h ++ bytes
  fromClient : receivedFrom .client h' = receivedFrom .client h
  destinations_eq : destinations h' = destinations h ++ [(host, port)]

lemma Responding.forwarded {bytes host : Bytes} {port : ℤ} {h h' h'' : Trace}
    (hr : Responding h h') (hf : Forwarded bytes host port h' h'') :
    Forwarded bytes host port h h'' :=
  ⟨hr.toRemote ▸ hf.toRemote, hf.fromClient.trans hr.fromClient,
    hr.destinations_eq ▸ hf.destinations_eq⟩

lemma Forwarded.responding {bytes host : Bytes} {port : ℤ} {h h' h'' : Trace}
    (hf : Forwarded bytes host port h h') (hr : Responding h' h'') :
    Forwarded bytes host port h h'' :=
  ⟨hr.toRemote.trans hf.toRemote, hr.fromClient.trans hf.fromClient,
    hr.destinations_eq.trans hf.destinations_eq⟩

/-! ### The stages -/

section Stages

variable {net : Network} {F : Fault → Prop} {fuel : ℕ}

lemma ends_refuse {response : Bytes} (hfuel : response.length < fuel) (conn : Connection)
    (h : Trace) :
    Ends net.answers F (refuse fuel response conn) (fun _ h' => Responding h h') h :=
  (ends_bind ..).mpr (ends_mono (ends_sendAll net.sendsSucceed hfuel) fun _ _ hs => hs.2.responding)

/-- The response is relayed, as much of it as the remote server sends. -/
lemma ends_relayResponse (hfuel : net.limit < fuel) (conn : Connection) (h : Trace) :
    Ends net.answers F (relayResponse fuel none conn)
      (fun x h' => x.1 = none ∧ Responding h h') h := by
  refine ends_loop (I := fun n s h' => s.1 = none ∧ Responding h h' ∧
    net.limit ≤ n + (receivedFrom .remote h').length) ?_ hfuel
    ⟨rfl, .refl h, Nat.le_add_right _ _⟩
  rintro n ⟨response, conn'⟩ h' ⟨rfl, hresp, hlimit⟩
  simp only [relayResponseRound, recv, bind_eq, pure_eq, ends_bind, ends_ask]
  intro r hr
  cases r with
  | closed => exact ⟨rfl, hresp.snoc rfl rfl rfl⟩
  | error => exact ⟨rfl, hresp.snoc rfl rfl rfl⟩
  | data chunk pos le =>
      have hchunk : (receivedFrom .remote h').length + chunk.length ≤ net.limit := hr
      refine (ends_bind ..).mpr
        (ends_mono (ends_sendAll net.sendsSucceed (by omega)) ?_)
      rintro ret h'' ⟨rfl, hs⟩
      rw [if_neg (by omega)]
      simp only [statsAddBytesTransferred, keepChunk, pure_eq, ends_bind, ends_ask, ends_ret]
      intro r _
      refine ⟨n - chunk.length, by omega, rfl, ?_, ?_⟩
      · exact ((hresp.snoc rfl rfl rfl).trans hs.responding).snoc rfl rfl rfl
      · rw [receivedFrom_snoc, hs.receivedFrom_eq, receivedFrom_snoc]
        simp only [received, if_true, List.append_nil, List.length_append]
        omega

/-- What was received is forwarded to the destination of the request. -/
lemma ends_httpForward {config : HandlerConfig} (hcaching : config.enableCaching = 0)
    (hconnect : ∀ host port, 0 ≤ net.connect host port) {bytes : Bytes}
    (hbytes : bytes.length < fuel) (hlimit : net.limit < fuel) (request : Request)
    (conn : Connection) (h : Trace) :
    Ends net.answers F (httpForward config fuel bytes request conn)
      (fun _ h' => Forwarded bytes request.host request.port h h') h := by
  simp only [httpForward, connectToHost, bind_eq, pure_eq, ends_bind, ends_ask]
  intro (fd : ℤ) hfd
  have hfd' : 0 ≤ fd := (hconnect request.host request.port).trans_eq (Eq.symm hfd)
  rw [if_neg (not_lt.mpr hfd')]
  refine (ends_bind ..).mpr (ends_mono (ends_sendAll net.sendsSucceed hbytes) ?_)
  rintro ret h₁ ⟨rfl, hs⟩
  have hcacheable : cacheable config request = false := by simp [cacheable, hcaching]
  have hforwarded : Forwarded bytes request.host request.port h h₁ := by
    refine ⟨?_, ?_, ?_⟩
    · rw [hs.acceptedBy_eq, acceptedBy_snoc]
      exact congrArg (· ++ bytes) (List.append_nil _)
    · rw [hs.receivedFrom_eq, receivedFrom_snoc]
      exact List.append_nil _
    · rw [hs.destinations_eq, destinations_snoc]
      rfl
  rw [if_neg (by omega)]
  simp only [hcacheable, Bool.false_eq_true, if_false, ends_bind, ends_ret]
  refine ends_mono (ends_relayResponse hlimit _ h₁) ?_
  rintro ⟨response, conn'⟩ h₂ ⟨rfl, hresp⟩
  exact hforwarded.responding hresp

/-- A request that is not a `CONNECT` is forwarded. -/
lemma ends_httpServe {config : HandlerConfig} (hcaching : config.enableCaching = 0)
    (hauth : config.enableAuth = 0) (hfiltering : config.enableFiltering = 0)
    (hconnect : ∀ host port, 0 ≤ net.connect host port) {bytes : Bytes}
    (hbytes : bytes.length < fuel) (hlimit : net.limit < fuel) {request : Request}
    (hmethod : request.method ≠ ascii "CONNECT") (conn : Connection) (h : Trace) :
    Ends net.answers F (httpServe config fuel bytes request conn)
      (fun _ h' => Forwarded bytes request.host request.port h h') h := by
  have hcacheable : cacheable config request = false := by simp [cacheable, hcaching]
  simp only [httpServe, httpRoute, httpFetch, httpAnswer, statsIncrementRequests, bind_eq, pure_eq,
    hauth, hfiltering, hcacheable, hmethod, ne_eq, not_true_eq_false, Bool.false_eq_true, if_false,
    Prog.bind, ends_bind, ends_ask]
  intro r _
  refine ends_mono (ends_httpForward hcaching hconnect hbytes hlimit request conn _) ?_
  intro a h' hf
  exact (Responding.of_event h rfl rfl rfl).forwarded hf

end Stages

/-! ### The handler -/

section Handling

variable {net : Network} {config : HandlerConfig} {fuel : ℕ} {host first : Bytes}
  {conn : Connection}

/-- The bytes of the first `recv`, and what follows of them. -/
lemma ends_httpHandleRequest {F : Fault → Prop} (hnext : net.next [] = first) (hne : first ≠ [])
    {Q : ℤ × Connection → Trace → Prop}
    (hserve : ∀ e, received .client e = first.take (bufferSize - 1) → accepted .remote e = [] →
      connectedTo e = [] → Ends net.answers F
        (match httpParseRequest (cstr (first.take (bufferSize - 1))) host 80 with
          | .error fault => .raise fault
          | .ok none => refuse fuel badRequest conn
          | .ok (some request) =>
              httpServe config fuel (first.take (bufferSize - 1)) request conn) Q [e]) :
    Ends net.answers F (httpHandleRequest config fuel host conn) Q [] := by
  simp only [httpHandleRequest, recv, bind_eq, ends_bind, ends_ask]
  intro r hr
  obtain ⟨pos, le, rfl⟩ := Network.answered_recv (by decide) (hnext ▸ hne) hr
  subst hnext
  exact hserve _ (by simp [received]) rfl rfl

/-- A request that is parsed is forwarded as it was received. -/
lemma ends_parsed {F : Fault → Prop} (hnext : net.next [] = first) (hne : first ≠ [])
    (hcaching : config.enableCaching = 0) (hauth : config.enableAuth = 0)
    (hfiltering : config.enableFiltering = 0) (hconnect : ∀ host port, 0 ≤ net.connect host port)
    {request : Request}
    (hparse : httpParseRequest (cstr (first.take (bufferSize - 1))) host 80 = .ok (some request))
    (hmethod : request.method ≠ ascii "CONNECT") (hfirst : first.length < fuel)
    (hlimit : net.limit < fuel) :
    Ends net.answers F (httpHandleRequest config fuel host conn)
      (fun _ tr => acceptedBy .remote tr = first.take (bufferSize - 1) ∧
        receivedFrom .client tr = first.take (bufferSize - 1) ∧
        destinations tr = [(request.host, request.port)]) [] := by
  refine ends_httpHandleRequest hnext hne fun e hreceived haccepted hconnected => ?_
  rw [hparse]
  have hbytes : (first.take (bufferSize - 1)).length < fuel :=
    (List.length_take_le' _ _).trans_lt hfirst
  refine ends_mono
    (ends_httpServe hcaching hauth hfiltering hconnect hbytes hlimit hmethod conn [e]) ?_
  intro a tr hf
  refine ⟨hf.toRemote.trans ?_, hf.fromClient.trans ?_, hf.destinations_eq.trans ?_⟩
  · simp [acceptedBy, haccepted]
  · simp [receivedFrom, hreceived]
  · simp [destinations, hconnected]

/-- A request that is not parsed is not forwarded. -/
lemma ends_rejected {F : Fault → Prop} (hnext : net.next [] = first) (hne : first ≠ [])
    (hparse : httpParseRequest (cstr (first.take (bufferSize - 1))) host 80 = .ok none)
    (hfuel : badRequest.length < fuel) :
    Ends net.answers F (httpHandleRequest config fuel host conn)
      (fun _ tr => acceptedBy .remote tr = []) [] := by
  refine ends_httpHandleRequest hnext hne fun e _ haccepted _ => ?_
  rw [hparse]
  refine ends_mono (ends_refuse hfuel conn [e]) fun a tr hresp => hresp.toRemote.trans ?_
  simp [acceptedBy, haccepted]

/-- A request that overruns the arrays has no result. -/
lemma ends_overrun (hnext : net.next [] = first) (hne : first ≠ []) {fault : Fault}
    (hparse : httpParseRequest (cstr (first.take (bufferSize - 1))) host 80 = .error fault) :
    Ends net.answers (fun _ => True) (httpHandleRequest config fuel host conn)
      (fun _ _ => False) [] := by
  refine ends_httpHandleRequest hnext hne fun e _ _ _ => ?_
  rw [hparse]
  trivial

end Handling

/-- The request was parsed as a whole, its destination was connected to, and it was delivered
there as a whole. -/
structure Delivered (host stream : Bytes) (tr : Trace) : Prop where
  acts : ∃ request, httpParseRequest (cstr stream) host 80 = .ok (some request) ∧
    httpParseRequest (cstr (receivedFrom .client tr)) host 80 = .ok (some request) ∧
    destinations tr = [(request.host, request.port)]
  delivered : acceptedBy .remote tr = stream

/-- The handler delivers the request: no run fails, and all that return have delivered it. -/
def Delivers (net : Network) (config : HandlerConfig) (host : Bytes) (conn : Connection)
    (stream : Bytes) : Prop :=
  ∃ bound, ∀ fuel, bound < fuel → ∀ tr out,
    Runs net.answers [] (httpHandleRequest config fuel host conn) tr out →
      (∀ e, out ≠ .raised e) ∧ ∀ a, out = .returned a → Delivered host stream tr

section Delivering

variable {net : Network} {config : HandlerConfig} {host first stream : Bytes} {conn : Connection}

/-- A request that is delivered is not refused. -/
lemma Delivers.not_rejected (hdelivers : Delivers net config host conn stream)
    (hstream : stream ≠ []) (hnext : net.next [] = first) (hne : first ≠ []) :
    httpParseRequest (cstr (first.take (bufferSize - 1))) host 80 ≠ .ok none := by
  intro hparse
  obtain ⟨bound, hall⟩ := hdelivers
  have hfuel : badRequest.length < bound + badRequest.length + 1 := by omega
  obtain ⟨tr, a, hrun, hnothing⟩ :=
    exists_returned net.exists_answer (ends_rejected hnext hne hparse hfuel)
  have hdelivered := ((hall _ (by omega) tr _ hrun).2 a rfl).delivered
  exact hstream (hdelivered.symm.trans hnothing)

/-- A request that is delivered does not overrun the arrays. -/
lemma Delivers.not_overrun (hdelivers : Delivers net config host conn stream)
    (hnext : net.next [] = first) (hne : first ≠ []) (fault : Fault) :
    httpParseRequest (cstr (first.take (bufferSize - 1))) host 80 ≠ .error fault := by
  intro hparse
  obtain ⟨bound, hall⟩ := hdelivers
  obtain ⟨tr, out, hrun, hout⟩ := exists_run net.exists_answer
    (httpHandleRequest config (bound + 1) host conn) []
  obtain ⟨hraise, -⟩ := hall (bound + 1) (by omega) tr out hrun
  cases out with
  | returned a => exact (ends_sound (ends_overrun hnext hne hparse) hrun).2 a rfl
  | raised e => exact hraise e rfl
  | waiting => exact hout rfl

variable (hcaching : config.enableCaching = 0) (hauth : config.enableAuth = 0)
  (hfiltering : config.enableFiltering = 0) (hconnect : ∀ host port, 0 ≤ net.connect host port)
  (hnext : net.next [] = first) (hne : first ≠ []) {request : Request}
  (hparse : httpParseRequest (cstr (first.take (bufferSize - 1))) host 80 = .ok (some request))
  (hmethod : request.method ≠ ascii "CONNECT")

include hcaching hauth hfiltering hconnect hnext hne hparse hmethod

/-- A request that is delivered was received at once. -/
lemma Delivers.received_eq (hdelivers : Delivers net config host conn stream) :
    first.take (bufferSize - 1) = stream := by
  obtain ⟨bound, hall⟩ := hdelivers
  obtain ⟨fuel, hbound, hfirst, hlimit⟩ :
      ∃ fuel, bound < fuel ∧ first.length < fuel ∧ net.limit < fuel :=
    ⟨bound + first.length + net.limit + 1, by omega, by omega, by omega⟩
  obtain ⟨tr, a, hrun, hpiece, -⟩ := exists_returned net.exists_answer
    (ends_parsed hnext hne hcaching hauth hfiltering hconnect hparse hmethod hfirst hlimit)
  exact hpiece.symm.trans ((hall fuel hbound tr _ hrun).2 a rfl).delivered

/-- A request that is received at once is delivered. -/
lemma delivers_of_received_eq (heq : first.take (bufferSize - 1) = stream) :
    Delivers net config host conn stream := by
  refine ⟨first.length + net.limit, fun fuel hfuel tr out hrun => ?_⟩
  obtain ⟨hraise, hres⟩ := ends_sound (F := fun _ => False)
    (ends_parsed hnext hne hcaching hauth hfiltering hconnect hparse hmethod (by omega)
      (by omega)) hrun
  refine ⟨fun e he => hraise e he, fun a ha => ?_⟩
  obtain ⟨hdelivered, hreceived, hdestinations⟩ := hres a ha
  rw [heq] at hparse hdelivered hreceived
  exact ⟨⟨request, hparse, hreceived ▸ hparse, hdestinations⟩, hdelivered⟩

end Delivering

/-- **Delivery depends on the pieces.** A request that is not a `CONNECT`, sent completely, is
delivered if and only if it arrives in one piece, which leaves room for a NUL in the buffer, and
its words fit the arrays of the handler. -/
theorem delivers_iff (head : RequestHead) (hmethod : head.method ≠ ascii "CONNECT")
    (body : Bytes) (net : Network) (hcut : IsCut (head.bytes ++ body) net.pieces)
    (hconnect : ∀ host port, 0 ≤ net.connect host port) (config : HandlerConfig)
    (hcaching : config.enableCaching = 0) (hauth : config.enableAuth = 0)
    (hfiltering : config.enableFiltering = 0) (host : Bytes) (conn : Connection) :
    Delivers net config host conn (head.bytes ++ body) ↔
      net.pieces = [head.bytes ++ body] ∧ (head.bytes ++ body).length < bufferSize ∧
        head.Fits := by
  have hbytes : head.bytes ++ body = head.line ++ (crlf ++ (head.fields ++ body)) :=
    head.bytes_append body
  have hstream : head.bytes ++ body ≠ [] := List.ne_nil_of_length_pos (head.length_pos body)
  obtain ⟨first, rest, hpieces, hne, hpre, hone⟩ := hcut.exists_first hstream
  have hnext : net.next [] = first := by
    rw [Network.next, hpieces]
    exact nextPiece_cons hne rest
  constructor
  · intro hdelivers
    have hpart : first.take (bufferSize - 1) <+: head.line ++ (crlf ++ (head.fields ++ body)) :=
      (List.take_prefix _ _).trans (hbytes ▸ hpre)
    rcases httpParseRequest_part head hpart host 80 with hnone | ⟨rest', hline⟩
    · -- a piece of the request line
      exact absurd hnone (hdelivers.not_rejected hstream hnext hne)
    by_cases hfits : head.Fits
    · -- a piece with the request line
      obtain ⟨request, hparse, hmethod', -⟩ := httpParseRequest_text head hfits rest' host 80
      rw [← hline] at hparse
      have htake := hdelivers.received_eq hcaching hauth hfiltering hconnect hnext hne hparse
        (hmethod' ▸ hmethod)
      have hle : (head.bytes ++ body).length ≤ bufferSize - 1 := htake ▸ List.length_take_le _ _
      have hfull : first = head.bytes ++ body :=
        hpre.eq_of_length_le (htake ▸ List.length_take_le' _ _)
      exact ⟨hone.mp hfull, Nat.lt_of_le_pred (Nat.succ_pos _) hle, hfits⟩
    · -- a piece whose words overrun the arrays
      have hparse := httpParseRequest_overrun head hfits rest' host 80
      rw [← hline] at hparse
      exact absurd hparse (hdelivers.not_overrun hnext hne _)
  · rintro ⟨hwhole, hlen, hfits⟩
    have hfirst : first = head.bytes ++ body := hone.mpr hwhole
    have htake : first.take (bufferSize - 1) = head.bytes ++ body := by
      rw [hfirst, List.take_of_length_le (by omega)]
    obtain ⟨request, hparse, hmethod', -⟩ :=
      httpParseRequest_text head hfits (head.fields ++ body) host 80
    rw [← hbytes] at hparse
    exact delivers_of_received_eq hcaching hauth hfiltering hconnect hnext hne (htake ▸ hparse)
      (hmethod' ▸ hmethod) htake

/-- A `POST` with two bytes to follow. -/
def postHead : RequestHead where
  method := ascii "POST"
  url := ascii "http://h/"
  version := ascii "HTTP/1.1"
  fields := ascii "Content-Length: 2\r\n\r\n"
  method_word := isWord_of_all (by decide) (by decide)
  url_word := isWord_of_all (by decide) (by decide)
  version_word := isWord_version

/-- A request that arrives in one piece is delivered. -/
theorem delivers_iff_post :
    Delivers (.plain [postHead.bytes ++ [111, 107]]) plainConfig [] ⟨[], -1, 0, 0, 0⟩
      (postHead.bytes ++ [111, 107]) :=
  (delivers_iff postHead (by decide) [111, 107] (.plain [postHead.bytes ++ [111, 107]])
    (isCut_singleton (by decide)) (fun _ _ => Int.natCast_nonneg 4) plainConfig rfl rfl rfl []
    ⟨[], -1, 0, 0, 0⟩).mpr ⟨rfl, by decide, by decide⟩

/-- The same request, with its body in a piece of its own. -/
def splitPost : Network := .plain [postHead.bytes, [111, 107]]

/-- The body that arrives after the head is lost. -/
theorem body_lost :
    IsCut (postHead.bytes ++ [111, 107]) splitPost.pieces ∧
      ¬Delivers splitPost plainConfig [] ⟨[], -1, 0, 0, 0⟩ (postHead.bytes ++ [111, 107]) := by
  refine ⟨⟨by decide, rfl⟩, ?_⟩
  intro hdelivers
  obtain ⟨request, hparse, hmethod, -⟩ :=
    httpParseRequest_text postHead (by decide) postHead.fields [] 80
  have hnext : splitPost.next [] = postHead.bytes := rfl
  have hreceived := hdelivers.received_eq rfl rfl rfl (fun _ _ => Int.natCast_nonneg 4) hnext
    (by decide) hparse (by rw [hmethod]; decide)
  exact absurd hreceived (by decide)

end ProxyMax
