import ProxyMax.Server.Connection
import ProxyMax.Server.Network
import ProxyMax.Socks5.Messages

/-!
The negotiation with a SOCKS5 client whose messages arrive in pieces.

* `Negotiation`: the replies, the authentication and the destinations of a run, before
  the relay loop begins.
* `Socks5Client`, `Socks5Cut`: the messages of a client, and their pieces.
* `Network.negotiate`: the negotiation, from the first pieces.
* `ends_socks5Handle`: this is what the handlers do.
* `sameNegotiation_iff`: when it is the negotiation of the whole messages.
-/

namespace ProxyMax

open CString Interaction

/-! ### Observations -/

/-- What a negotiation comes to. -/
structure Negotiation where
  replies : Bytes
  authenticated : ℤ
  destinations : List (Bytes × ℤ)
deriving DecidableEq

/-- The call is not the one that begins a round of the relay loop. -/
def Command.negotiates : Command → Bool
  | .select _ => false
  | _ => true

/-- The events before the relay loop. -/
def beforeRelay (h : Trace) : Trace := h.takeWhile fun e => e.1.negotiates

/-- The negotiation of a trace, which left the connection so. -/
def negotiationOf (h : Trace) (conn : Connection) : Negotiation where
  replies := acceptedBy .client (beforeRelay h)
  authenticated := conn.authenticated
  destinations := destinations (beforeRelay h)

/-- The relay loop has not begun, and so far the negotiation is `n`. -/
structure Negotiating (n : Negotiation) (conn : Connection) (h : Trace) : Prop where
  unrelayed : ∀ e ∈ h, e.1.negotiates = true
  negotiation : negotiationOf h conn = n

section Observing

variable {n : Negotiation} {conn : Connection} {h h' : Trace}

lemma beforeRelay_eq (hu : ∀ e ∈ h, e.1.negotiates = true) : beforeRelay h = h :=
  List.takeWhile_eq_self_iff.mpr hu

/-- The relay loop hides what comes after its beginning. -/
lemma beforeRelay_append (hu : ∀ e ∈ h, e.1.negotiates = true) {e : Event Reply}
    (he : e.1.negotiates = false) (post : Trace) : beforeRelay (h ++ e :: post) = h := by
  rw [beforeRelay, List.takeWhile_append_of_pos hu,
    List.takeWhile_cons_of_neg (by simp [he]), List.append_nil]

lemma negotiating_nil (conn : Connection) : Negotiating ⟨[], conn.authenticated, []⟩ conn [] :=
  ⟨by simp, rfl⟩

/-- Another event of the negotiation. -/
lemma Negotiating.snoc (hn : Negotiating n conn h) {e : Event Reply}
    (he : e.1.negotiates = true) :
    Negotiating ⟨n.replies ++ accepted .client e, n.authenticated,
      n.destinations ++ connectedTo e⟩ conn (h ++ [e]) := by
  have hu : ∀ e' ∈ h ++ [e], e'.1.negotiates = true := by
    intro e' hmem
    rcases List.mem_append.mp hmem with hmem | hmem
    · exact hn.unrelayed e' hmem
    · rwa [List.mem_singleton.mp hmem]
  refine ⟨hu, ?_⟩
  rw [← hn.negotiation, negotiationOf, negotiationOf, beforeRelay_eq hu,
    beforeRelay_eq hn.unrelayed, acceptedBy_snoc, destinations_snoc]

/-- An event that the negotiation does not show. -/
lemma Negotiating.skip (hn : Negotiating n conn h) {e : Event Reply}
    (he : e.1.negotiates = true) (ha : accepted .client e = []) (hc : connectedTo e = []) :
    Negotiating n conn (h ++ [e]) := by
  have hsnoc := hn.snoc he
  rwa [ha, hc, List.append_nil, List.append_nil] at hsnoc

/-- A reply. -/
lemma Negotiating.sent (hn : Negotiating n conn h) {bytes : Bytes}
    (hs : SentTo .client bytes h h') :
    Negotiating ⟨n.replies ++ bytes, n.authenticated, n.destinations⟩ conn h' := by
  have hu : ∀ e ∈ h', e.1.negotiates = true := by
    obtain ⟨tr, rfl, honly, -⟩ := hs
    intro e hmem
    rcases List.mem_append.mp hmem with hmem | hmem
    · exact hn.unrelayed e hmem
    · obtain ⟨bytes, hbytes⟩ := honly e hmem
      rw [hbytes]
      rfl
  refine ⟨hu, ?_⟩
  rw [← hn.negotiation, negotiationOf, negotiationOf, beforeRelay_eq hu,
    beforeRelay_eq hn.unrelayed, hs.acceptedBy_eq, hs.destinations_eq]

/-- The relay loop adds nothing to the negotiation. -/
lemma Negotiating.selecting (hn : Negotiating n conn h) (hs : Selecting h h') {conn' : Connection}
    (hauth : conn'.authenticated = conn.authenticated) : negotiationOf h' conn' = n := by
  obtain ⟨seconds, r, post, rfl⟩ := hs
  have hbefore : beforeRelay (h ++ ⟨.select seconds, r⟩ :: post) = h :=
    beforeRelay_append hn.unrelayed rfl post
  rw [← hn.negotiation, negotiationOf, negotiationOf, hbefore, beforeRelay_eq hn.unrelayed, hauth]

end Observing

/-! ### The request -/

/-- How the handler answers a request. -/
def Network.answerRequest (net : Network) (n : Negotiation) : Socks5Request → Negotiation
  | .invalid => n
  | .badAddressType => { n with replies := n.replies ++ socks5Reply 8 }
  | .command cmd host port =>
      if cmd = 1 then
        { n with
          replies := n.replies ++
            if net.connect host port < 0 then socks5Reply 4
            else [5, 0, 0, 1] ++ net.localAddr.val
          destinations := n.destinations ++ [(host, port)] }
      else if cmd = 2 ∨ cmd = 3 then { n with replies := n.replies ++ socks5Reply 7 }
      else n

section Handling

variable {net : Network} {F : Fault → Prop} {fuel : ℕ}
  (htunnel : ∀ size seconds conn h, Ends net.answers F (tunnel fuel size seconds conn)
    (fun c h' => c.authenticated = conn.authenticated ∧ Selecting h h') h)
  (hfuel : 10 < fuel)

include hfuel in
lemma ends_refuse_socks5 {n : Negotiation} {conn : Connection} {h : Trace}
    (hn : Negotiating n conn h) (rep : UInt8) :
    Ends net.answers F (refuse fuel (socks5Reply rep) conn)
      (fun x h' => negotiationOf h' x.2 = { n with replies := n.replies ++ socks5Reply rep })
      h :=
  (ends_bind ..).mpr (ends_mono (ends_sendAll net.sendsSucceed hfuel) fun _ _ hs =>
    (hn.sent hs.2).negotiation)

include htunnel hfuel in
lemma ends_socks5Connect {n : Negotiation} {conn : Connection} {h : Trace}
    (hn : Negotiating n conn h) (host : Bytes) (port : ℤ) :
    Ends net.answers F (socks5Connect fuel host port conn)
      (fun x h' => negotiationOf h' x.2 = net.answerRequest n (.command 1 host port)) h := by
  simp only [socks5Connect, connectToHost, getsockname, bind_eq, pure_eq, ends_bind, ends_ask]
  intro (fd : ℤ) hfd
  obtain rfl : fd = net.connect host port := hfd
  have hconnected := hn.snoc (e := ⟨.connectToHost host port, net.connect host port⟩) rfl
  have hn' : Negotiating ⟨n.replies, n.authenticated, n.destinations ++ [(host, port)]⟩
      { conn with remoteFd := net.connect host port }
      (h ++ [⟨.connectToHost host port, net.connect host port⟩]) :=
    ⟨hconnected.unrelayed, hconnected.negotiation.trans (by simp [accepted, connectedTo])⟩
  simp only [Network.answerRequest, if_true]
  by_cases hneg : net.connect host port < 0
  · rw [if_pos hneg, if_pos hneg]
    exact ends_refuse_socks5 hfuel hn' 4
  · rw [if_neg hneg, if_neg hneg]
    simp only [ends_bind, ends_ask]
    intro address haddress
    obtain rfl : address = net.localAddr := haddress
    have hlocal := hn'.skip (e := ⟨.getsockname, net.localAddr⟩) rfl rfl rfl
    refine ends_mono (ends_sendAll net.sendsSucceed ?_) ?_
    · rw [List.length_append, net.localAddr.property]
      exact hfuel
    rintro ret h' ⟨rfl, hs⟩
    rw [if_neg (by omega)]
    refine (ends_bind ..).mpr (ends_mono (htunnel 512 300 _ h') ?_)
    rintro conn' h'' ⟨hauth, hselecting⟩
    exact (hlocal.sent hs).selecting hselecting hauth

include htunnel hfuel in
/-- **The request**, as far as its first piece goes. -/
lemma ends_socks5HandleRequest {n : Negotiation} {conn : Connection} {h : Trace}
    (hn : Negotiating n conn h) (hne : net.next h ≠ []) (buffer : Bytes) :
    Ends net.answers F (socks5HandleRequest fuel buffer conn)
      (fun x h' => negotiationOf h' x.2 = net.answerRequest n
        (parseRequest ((net.next h).take 512).length ((net.next h).take 512))) h := by
  simp only [socks5HandleRequest, recv, bind_eq, pure_eq, ends_bind, ends_ask]
  intro r hr
  obtain ⟨pos, le, rfl⟩ := Network.answered_recv (Nat.succ_pos _) hne hr
  have hreceived := hn.skip (e := ⟨.recv .client 512, .data ((net.next h).take 512) pos le⟩)
    rfl rfl rfl
  dsimp only
  rw [parseRequest_overwrite]
  cases parseRequest ((net.next h).take 512).length ((net.next h).take 512) with
  | invalid => exact hreceived.negotiation
  | badAddressType => exact ends_refuse_socks5 hfuel hreceived 8
  | command cmd host port =>
      dsimp only
      by_cases h1 : cmd = 1
      · subst h1
        exact ends_socks5Connect htunnel hfuel hreceived host port
      · rw [if_neg h1, Network.answerRequest, if_neg h1]
        by_cases h23 : cmd = 2 ∨ cmd = 3
        · rw [if_pos h23, if_pos h23]
          exact ends_refuse_socks5 hfuel hreceived 7
        · rw [if_neg h23, if_neg h23]
          exact hreceived.negotiation

end Handling

/-! ### The handshake -/

/-- The messages of a client. The second one is sent only if it is asked for. -/
structure Socks5Client where
  greeting : Greeting
  message : AuthMessage
  request : ConnectRequest

/-- The pieces of the messages. -/
structure Socks5Cut (client : Socks5Client) where
  greeting : List Bytes
  message : List Bytes
  request : List Bytes
  greeting_cut : IsCut client.greeting.bytes greeting
  message_cut : IsCut client.message.bytes message
  request_cut : IsCut client.request.bytes request

namespace Socks5Client

variable (client : Socks5Client)

/-- The method that the server selects. -/
def selected (enableAuth : ℤ) : UInt8 := selectMethod enableAuth client.greeting.methods

/-- What `auth_verify` says of the credentials. -/
def verified (net : Network) : ℤ :=
  net.verify (cstr client.message.username) (cstr client.message.password)

lemma greeting_ne_nil : client.greeting.bytes ≠ [] := List.cons_ne_nil _ _

lemma message_ne_nil : client.message.bytes ≠ [] := List.cons_ne_nil _ _

lemma request_ne_nil : client.request.bytes ≠ [] := List.cons_ne_nil _ _

/-- Every message in one piece. -/
def whole : Socks5Cut client where
  greeting := [client.greeting.bytes]
  message := [client.message.bytes]
  request := [client.request.bytes]
  greeting_cut := isCut_singleton client.greeting_ne_nil
  message_cut := isCut_singleton client.message_ne_nil
  request_cut := isCut_singleton client.request_ne_nil

end Socks5Client

/-- The pieces that the client sends, each message after the reply to the one before. -/
def Socks5Cut.pieces {client : Socks5Client} (cut : Socks5Cut client) (enableAuth : ℤ) :
    List Bytes :=
  cut.greeting ++
    if client.selected enableAuth = 2 then cut.message ++ cut.request else cut.request

section Pieces

variable {net : Network} {client : Socks5Client} {cut : Socks5Cut client} {enableAuth : ℤ}

/-- The greeting comes first. -/
lemma Socks5Cut.next_nil (hpieces : net.pieces = cut.pieces enableAuth) :
    net.next [] = nextPiece cut.greeting 0 := by
  rw [Network.next, hpieces]
  exact cut.greeting_cut.nextPiece_eq client.greeting_ne_nil _

/-- The message the greeting is answered with depends on the method selected. -/
lemma Socks5Cut.next_greeted (hpieces : net.pieces = cut.pieces enableAuth) {h : Trace}
    (hfrom : receivedFrom .client h = client.greeting.bytes) :
    net.next h = nextPiece
      (if client.selected enableAuth = 2 then cut.message ++ cut.request else cut.request) 0 := by
  rw [Network.next, hpieces, hfrom]
  exact cut.greeting_cut.nextPiece_after _ 0

/-- The request comes after the credentials. -/
lemma Socks5Cut.next_authenticated (hpieces : net.pieces = cut.pieces enableAuth) {h : Trace}
    (h2 : client.selected enableAuth = 2)
    (hfrom : receivedFrom .client h = client.greeting.bytes ++ client.message.bytes) :
    net.next h = nextPiece cut.request 0 := by
  rw [Network.next, hpieces, hfrom, List.length_append, Socks5Cut.pieces,
    cut.greeting_cut.nextPiece_after, if_pos h2]
  exact cut.message_cut.nextPiece_after _ 0

end Pieces

/-- **The negotiation**, where these are what the `recv`s of the three messages give. -/
def Network.negotiate (net : Network) (enableAuth authenticated : ℤ) (client : Socks5Client)
    (greeting message request : Bytes) : Negotiation :=
  let selected := client.selected enableAuth
  if greeting = client.greeting.bytes then
    if selected = 255 then ⟨[5, selected], authenticated, []⟩
    else if selected = 2 then
      if message = client.message.bytes then
        if client.verified net = 0 then
          net.answerRequest ⟨[5, selected, 1, 0], 1, []⟩ (parseRequest request.length request)
        else ⟨[5, selected, 1, 1], authenticated, []⟩
      else ⟨[5, selected], authenticated, []⟩
    else
      net.answerRequest ⟨[5, selected], authenticated, []⟩ (parseRequest request.length request)
  else ⟨[], authenticated, []⟩

section Handshake

variable {net : Network} {F : Fault → Prop} {fuel : ℕ} (hfuel : 10 < fuel)

/-- The authentication has come to its end: it was refused, or all of the message was
received and the credentials are right. -/
structure Authenticating (net : Network) (message : AuthMessage) (n : Negotiation) (h : Trace)
    (x : ℤ × Connection) (h' : Trace) : Prop where
  short : (net.next h).take 256 ≠ message.bytes → x.1 ≠ 0 ∧ negotiationOf h' x.2 = n
  wrong : (net.next h).take 256 = message.bytes →
    net.verify (cstr message.username) (cstr message.password) ≠ 0 →
      x.1 ≠ 0 ∧ negotiationOf h' x.2 = { n with replies := n.replies ++ [1, 1] }
  right : (net.next h).take 256 = message.bytes →
    net.verify (cstr message.username) (cstr message.password) = 0 →
      x.1 = 0 ∧ Negotiating ⟨n.replies ++ [1, 0], 1, n.destinations⟩ x.2 h' ∧
        receivedFrom .client h' = receivedFrom .client h ++ message.bytes

include hfuel in
lemma ends_socks5Authenticate {n : Negotiation} {conn : Connection} {h : Trace}
    (hn : Negotiating n conn h) (hne : net.next h ≠ []) {message : AuthMessage}
    (hpart : (net.next h).take 256 <+: message.bytes) (buffer : Bytes) :
    Ends net.answers F (socks5Authenticate fuel buffer conn)
      (Authenticating net message n h) h := by
  simp only [socks5Authenticate, recv, bind_eq, pure_eq, ends_bind, ends_ask]
  intro r hr
  obtain ⟨pos, le, rfl⟩ := Network.answered_recv (Nat.succ_pos _) hne hr
  have hreceived := hn.skip (e := ⟨.recv .client 256, .data ((net.next h).take 256) pos le⟩)
    rfl rfl rfl
  dsimp only
  rw [parseCredentials_part hpart]
  by_cases hwhole : (net.next h).take 256 = message.bytes
  · rw [if_pos hwhole]
    simp only [callAuthVerify, ends_bind, ends_ask]
    intro result hresult
    obtain rfl : result = net.verify _ _ := hresult
    have hverified := hreceived.skip (e := ⟨.authVerify (cstr message.username)
      (cstr message.password), net.verify (cstr message.username) (cstr message.password)⟩)
      rfl rfl rfl
    refine ends_mono (ends_sendAll net.sendsSucceed ?_) ?_
    · exact (by decide : 2 < 10).trans hfuel
    rintro ret h' ⟨rfl, hs⟩
    have hsent := hverified.sent hs
    rw [if_neg (by omega)]
    by_cases hright : net.verify (cstr message.username) (cstr message.password) = 0
    · rw [if_neg (not_not.mpr hright)]
      refine ⟨fun hshort => absurd hwhole hshort, fun _ hwrong => absurd hright hwrong,
        fun _ _ => ⟨rfl, ⟨hsent.unrelayed, ?_⟩, ?_⟩⟩
      · have hnegotiation := hsent.negotiation
        rw [if_pos hright] at hnegotiation
        exact congrArg (fun n : Negotiation => { n with authenticated := 1 }) hnegotiation
      · rw [hs.receivedFrom_eq, receivedFrom_snoc, receivedFrom_snoc, ← hwhole]
        simp [received]
    · rw [if_pos hright]
      refine ⟨fun hshort => absurd hwhole hshort, fun _ _ => ⟨by simp, ?_⟩,
        fun _ h0 => absurd h0 hright⟩
      have hnegotiation := hsent.negotiation
      rwa [if_neg hright] at hnegotiation
  · rw [if_neg hwhole]
    exact ⟨fun _ => ⟨by simp, hreceived.negotiation⟩, fun h => absurd h hwhole,
      fun h => absurd h hwhole⟩

/-- The handshake has come to its end: it failed, or the request is next. -/
def Handshaken (net : Network) (client : Socks5Client) (cut : Socks5Cut client)
    (outcome : Bytes → Negotiation) (x : ℤ × Connection) (h' : Trace) : Prop :=
  (x.1 ≠ 0 ∧ ∀ request, negotiationOf h' x.2 = outcome request) ∨
    (x.1 = 0 ∧ net.next h' = nextPiece cut.request 0 ∧ ∃ n, Negotiating n x.2 h' ∧
      ∀ request, outcome request = net.answerRequest n (parseRequest request.length request))

include hfuel in
/-- The end of a handshake that selects the passwords. -/
lemma ends_socks5Authenticate_handshaken {client : Socks5Client} {cut : Socks5Cut client}
    {enableAuth : ℤ} (hpieces : net.pieces = cut.pieces enableAuth)
    (h2 : client.selected enableAuth = 2) {conn : Connection} {h : Trace}
    (hn : Negotiating ⟨[5, client.selected enableAuth], conn.authenticated, []⟩ conn h)
    (hfrom : receivedFrom .client h = client.greeting.bytes) (buffer : Bytes) :
    Ends net.answers F (socks5Authenticate fuel buffer conn)
      (Handshaken net client cut (net.negotiate enableAuth conn.authenticated client
        client.greeting.bytes ((nextPiece cut.message 0).take 256))) h := by
  have h255 : client.selected enableAuth ≠ 255 := by rw [h2]; decide
  have hnext : net.next h = nextPiece cut.message 0 := by
    rw [cut.next_greeted hpieces hfrom, if_pos h2]
    exact cut.message_cut.nextPiece_eq client.message_ne_nil _
  obtain ⟨hne, hpart, -⟩ := cut.message_cut.nextPiece_isPrefix client.message_ne_nil
  rw [← hnext] at hne hpart ⊢
  refine ends_mono
    (ends_socks5Authenticate hfuel hn hne ((List.take_prefix _ _).trans hpart) buffer) ?_
  intro x h' hx
  by_cases hwhole : (net.next h).take 256 = client.message.bytes
  · by_cases hright : client.verified net = 0
    · obtain ⟨hret, hn', hfrom'⟩ := hx.right hwhole hright
      refine .inr ⟨hret, cut.next_authenticated hpieces h2 (hfrom'.trans (by rw [hfrom])), _, hn',
        fun request => ?_⟩
      simp only [Network.negotiate, if_true, if_neg h255, if_pos h2, if_pos hwhole, if_pos hright]
      rfl
    · obtain ⟨hret, hn'⟩ := hx.wrong hwhole hright
      refine .inl ⟨hret, fun request => hn'.trans ?_⟩
      simp only [Network.negotiate, if_true, if_neg h255, if_pos h2, if_pos hwhole, if_neg hright]
      rfl
  · obtain ⟨hret, hn'⟩ := hx.short hwhole
    refine .inl ⟨hret, fun request => hn'.trans ?_⟩
    simp only [Network.negotiate, if_true, if_neg h255, if_pos h2, if_neg hwhole]

include hfuel in
/-- **The handshake**, as far as the first pieces of its messages go. -/
lemma ends_socks5HandleHandshake {client : Socks5Client} {cut : Socks5Cut client}
    {config : HandlerConfig} (hpieces : net.pieces = cut.pieces config.enableAuth)
    (buffer : Bytes) (conn : Connection) :
    Ends net.answers F (socks5HandleHandshake config fuel buffer conn)
      (Handshaken net client cut (net.negotiate config.enableAuth conn.authenticated client
        ((nextPiece cut.greeting 0).take 256) ((nextPiece cut.message 0).take 256))) [] := by
  have hnext : net.next [] = nextPiece cut.greeting 0 := cut.next_nil hpieces
  obtain ⟨hne, hpart, -⟩ := cut.greeting_cut.nextPiece_isPrefix client.greeting_ne_nil
  rw [← hnext] at hne hpart ⊢
  have hprefix : (net.next []).take 256 <+: client.greeting.bytes :=
    (List.take_prefix _ _).trans hpart
  simp only [socks5HandleHandshake, recv, bind_eq, pure_eq, ends_bind, ends_ask]
  intro r hr
  obtain ⟨pos, le, rfl⟩ := Network.answered_recv (Nat.succ_pos _) hne hr
  have hreceived := (negotiating_nil conn).skip
    (e := ⟨.recv .client 256, .data ((net.next []).take 256) pos le⟩) rfl rfl rfl
  dsimp only
  rw [parseGreeting_part hprefix]
  -- the greeting is answered if all of it was received at once
  by_cases hwhole : (net.next []).take 256 = client.greeting.bytes
  · rw [if_pos hwhole]
    have hselected : selectMethod config.enableAuth client.greeting.methods =
        client.selected config.enableAuth := rfl
    refine (ends_bind ..).mpr (ends_mono (ends_sendAll net.sendsSucceed ?_) ?_)
    · exact (by decide : 2 < 10).trans hfuel
    rintro ret h' ⟨rfl, hs⟩
    have hsent : Negotiating ⟨[5, client.selected config.enableAuth], conn.authenticated, []⟩
        conn h' := hreceived.sent hs
    have hfrom : receivedFrom .client h' = client.greeting.bytes := by
      rw [hs.receivedFrom_eq, ← hwhole]
      simp [receivedFrom, received]
    rw [if_neg (by omega)]
    simp only [hselected]
    by_cases h255 : client.selected config.enableAuth = 255
    · rw [if_pos h255]
      refine .inl ⟨by simp, fun request => hsent.negotiation.trans ?_⟩
      simp only [Network.negotiate, if_pos hwhole, if_pos h255]
    rw [if_neg h255]
    by_cases h2 : client.selected config.enableAuth = 2
    · -- the second message is asked for
      rw [if_pos h2, hwhole]
      exact ends_socks5Authenticate_handshaken hfuel hpieces h2 hsent hfrom _
    · -- the request is next
      have hnext' := cut.next_greeted hpieces hfrom
      rw [if_neg h2] at hnext' ⊢
      refine .inr ⟨rfl, hnext', _, hsent, fun request => ?_⟩
      simp only [Network.negotiate, if_pos hwhole, if_neg h255, if_neg h2]
  · rw [if_neg hwhole]
    refine .inl ⟨by simp, fun request => hreceived.negotiation.trans ?_⟩
    rw [Network.negotiate, if_neg hwhole]

end Handshake

/-- The negotiation, from the first pieces of the messages. -/
def Socks5Cut.negotiation {client : Socks5Client} (cut : Socks5Cut client) (net : Network)
    (enableAuth authenticated : ℤ) : Negotiation :=
  net.negotiate enableAuth authenticated client ((nextPiece cut.greeting 0).take 256)
    ((nextPiece cut.message 0).take 256) ((nextPiece cut.request 0).take 512)

/-- **What the handlers do**: the negotiation that the first pieces allow. -/
lemma ends_socks5Handle {net : Network} {F : Fault → Prop} {fuel : ℕ} (hfuel : 10 < fuel)
    (htunnel : ∀ size seconds conn h, Ends net.answers F (tunnel fuel size seconds conn)
      (fun c h' => c.authenticated = conn.authenticated ∧ Selecting h h') h)
    {client : Socks5Client} {cut : Socks5Cut client} {config : HandlerConfig}
    (hpieces : net.pieces = cut.pieces config.enableAuth) (locals : Locals) (conn : Connection) :
    Ends net.answers F (socks5Handle config fuel locals conn)
      (fun x h' => negotiationOf h' x.2 =
        cut.negotiation net config.enableAuth conn.authenticated) [] := by
  refine (ends_bind ..).mpr
    (ends_mono (ends_socks5HandleHandshake hfuel hpieces locals.handshake conn) ?_)
  rintro ⟨ret, conn'⟩ h' (⟨hret, hn⟩ | ⟨hret, hnext, n, hn, hrequest⟩)
  · dsimp only at hret ⊢
    rw [if_neg hret]
    exact hn _
  · dsimp only at hret ⊢
    rw [if_pos hret]
    obtain ⟨hne, -, -⟩ := cut.request_cut.nextPiece_isPrefix client.request_ne_nil
    rw [← hnext] at hne
    refine ends_mono (ends_socks5HandleRequest htunnel hfuel hn hne locals.request) ?_
    intro x h'' hx
    rw [hx, hnext]
    exact (hrequest _).symm

/-! ### The comparison -/

/-- In the two networks the negotiation comes to the same. -/
def SameNegotiation (config : HandlerConfig) (locals : Locals) (conn : Connection)
    (net net' : Network) : Prop :=
  ∃ bound, ∀ fuel, bound < fuel → ∀ tr tr' x x',
    Runs net.answers [] (socks5Handle config fuel locals conn) tr (.returned x) →
    Runs net'.answers [] (socks5Handle config fuel locals conn) tr' (.returned x') →
    negotiationOf tr x.2 = negotiationOf tr' x'.2

/-- The network in which the messages arrive in these pieces. -/
def Socks5Cut.network {client : Socks5Client} (cut : Socks5Cut client) (net : Network)
    (enableAuth : ℤ) : Network := { net with pieces := cut.pieces enableAuth }

/-- Every run has the negotiation of the first pieces. -/
lemma negotiationOf_run {client : Socks5Client} {cut : Socks5Cut client} {net : Network}
    {config : HandlerConfig} {locals : Locals} {conn : Connection} {fuel : ℕ} (hfuel : 10 < fuel)
    {tr : Trace} {x : ℤ × Connection}
    (hrun : Runs (cut.network net config.enableAuth).answers []
      (socks5Handle config fuel locals conn) tr (.returned x)) :
    negotiationOf tr x.2 = cut.negotiation net config.enableAuth conn.authenticated :=
  (ends_sound (ends_socks5Handle hfuel
    (fun size seconds conn h => ends_tunnel fuel size seconds conn h) rfl locals conn) hrun).2 x rfl

/-- There is such a run. -/
lemma exists_negotiation {client : Socks5Client} (cut : Socks5Cut client) (net : Network)
    (config : HandlerConfig) (locals : Locals) (conn : Connection) {fuel : ℕ}
    (hfuel : 10 < fuel) :
    ∃ tr x, Runs (cut.network net config.enableAuth).answers []
      (socks5Handle config fuel locals conn) tr (.returned x) := by
  have htunnel : ∀ size seconds conn h,
      Ends (cut.network net config.enableAuth).hushed.answers (fun _ => False)
        (tunnel fuel size seconds conn)
        (fun c h' => c.authenticated = conn.authenticated ∧ Selecting h h') h := by
    intro size seconds conn h
    refine ends_mono (ends_tunnel_quiet rfl (by omega) size seconds conn h) ?_
    rintro c h' ⟨rfl, rfl⟩
    exact ⟨rfl, seconds, .idle, [], rfl⟩
  have hpieces : (cut.network net config.enableAuth).hushed.pieces =
      cut.pieces config.enableAuth := rfl
  obtain ⟨tr, x, hrun, -⟩ := exists_returned (Network.exists_answer _)
    (ends_socks5Handle hfuel htunnel hpieces locals conn)
  exact ⟨tr, x, Network.runs_of_hushed hrun⟩

lemma sameNegotiation_iff_eq {client : Socks5Client} (cut cut' : Socks5Cut client) (net : Network)
    (config : HandlerConfig) (locals : Locals) (conn : Connection) :
    SameNegotiation config locals conn (cut.network net config.enableAuth)
        (cut'.network net config.enableAuth) ↔
      cut.negotiation net config.enableAuth conn.authenticated =
        cut'.negotiation net config.enableAuth conn.authenticated := by
  constructor
  · rintro ⟨bound, hall⟩
    have hfuel : 10 < bound + 11 := by omega
    obtain ⟨tr, x, hrun⟩ := exists_negotiation cut net config locals conn hfuel
    obtain ⟨tr', x', hrun'⟩ := exists_negotiation cut' net config locals conn hfuel
    rw [← negotiationOf_run hfuel hrun, ← negotiationOf_run hfuel hrun']
    exact hall (bound + 11) (by omega) tr tr' x x' hrun hrun'
  · intro heq
    refine ⟨10, fun fuel hfuel tr tr' x x' hrun hrun' => ?_⟩
    rw [negotiationOf_run hfuel hrun, negotiationOf_run hfuel hrun', heq]

/-! ### The condition -/

lemma selectMethod_cases (enableAuth : ℤ) (methods : Bytes) :
    selectMethod enableAuth methods = 255 ∨ selectMethod enableAuth methods = 2 ∨
      selectMethod enableAuth methods = 0 := by
  induction methods with
  | nil => exact .inl rfl
  | cons method methods ih =>
      rw [selectMethod]
      split
      · exact .inr (.inl rfl)
      · split
        · exact .inr (.inr rfl)
        · exact ih

/-- A message that fits a `recv` is received at once if and only if it is in one piece. -/
lemma IsCut.take_eq_iff {message : Bytes} {pieces : List Bytes} (h : IsCut message pieces)
    (hm : message ≠ []) {size : ℕ} (hsize : message.length ≤ size) :
    (nextPiece pieces 0).take size = message ↔ pieces = [message] := by
  obtain ⟨-, hpart, hwhole⟩ := h.nextPiece_isPrefix hm
  rw [List.take_of_length_le (hpart.length_le.trans hsize), hwhole]

namespace Socks5Cut

variable {client : Socks5Client} (cut : Socks5Cut client) (net : Network)

/-- The request is in one piece; or its address is an IPv6 address, and the first piece goes
as far as the type of the address. -/
def WholeRequest : Prop :=
  cut.request = [client.request.bytes] ∨
    client.request.address.host = none ∧ 4 ≤ (nextPiece cut.request 0).length

/-- The messages that the negotiation comes to are in one piece each; or the greeting is too
long for the buffer of the handler. -/
def Undivided (enableAuth : ℤ) : Prop :=
  client.greeting.methods.length = 255 ∨
    cut.greeting = [client.greeting.bytes] ∧
      (client.selected enableAuth = 2 →
        cut.message = [client.message.bytes] ∧ (client.verified net = 0 → cut.WholeRequest)) ∧
      (client.selected enableAuth = 0 → cut.WholeRequest)

end Socks5Cut

/-- The replies to a request come after the ones before. -/
lemma Network.prefix_answerRequest (net : Network) (n : Negotiation) (request : Socks5Request) :
    n.replies <+: (net.answerRequest n request).replies := by
  cases request with
  | invalid => exact List.prefix_refl _
  | badAddressType => exact List.prefix_append _ _
  | command cmd host port =>
      rw [Network.answerRequest]
      split
      · exact List.prefix_append _ _
      · split
        · exact List.prefix_append _ _
        · exact List.prefix_refl _

/-- A request that is read is answered. -/
lemma Network.answerRequest_ne (net : Network) (n : Negotiation) {request : Socks5Request}
    (h : request = .badAddressType ∨ ∃ host port, request = .command 1 host port) :
    net.answerRequest n .invalid ≠ net.answerRequest n request := by
  intro he
  have hreplies := congrArg Negotiation.replies he
  rcases h with rfl | ⟨host, port, rfl⟩
  · simp [Network.answerRequest, socks5Reply] at hreplies
  · simp only [Network.answerRequest, if_true, List.self_eq_append_right] at hreplies
    split at hreplies <;> simp [socks5Reply] at hreplies

/-- The answer to the first piece of a request is that to the whole. -/
lemma Socks5Cut.answerRequest_eq_iff {client : Socks5Client} (cut : Socks5Cut client)
    (net : Network) (n : Negotiation) :
    net.answerRequest n (parseRequest ((nextPiece cut.request 0).take 512).length
        ((nextPiece cut.request 0).take 512)) =
      net.answerRequest n (parseRequest client.request.bytes.length client.request.bytes) ↔
      cut.WholeRequest := by
  obtain ⟨-, hpart, hwhole⟩ := cut.request_cut.nextPiece_isPrefix client.request_ne_nil
  have hlen := client.request.length_bytes_le
  rw [List.take_of_length_le (hpart.length_le.trans (by omega)),
    ← parseRequest_overwrite [], ← parseRequest_overwrite [] client.request.bytes]
  rw [Socks5Cut.WholeRequest, ← hwhole]
  have hpart' := hpart.trans (List.prefix_append _ ([] : Bytes))
  have hself : client.request.bytes <+: client.request.bytes ++ [] := List.prefix_append _ _
  cases hhost : client.request.address.host with
  | some host =>
      rw [parseRequest_supported hhost hpart', parseRequest_supported hhost hself, if_pos le_rfl,
        eq_iff_length_le hpart]
      by_cases hle : client.request.bytes.length ≤ (nextPiece cut.request 0).length
      · simp [hle]
      · rw [if_neg hle]
        simpa [hle] using net.answerRequest_ne n (.inr ⟨host, client.request.port, rfl⟩)
  | none =>
      have h4 : 4 ≤ client.request.bytes.length := by
        simp only [ConnectRequest.bytes, List.length_cons, List.length_append, List.length_nil]
        omega
      rw [parseRequest_ipv6 hhost hpart', parseRequest_ipv6 hhost hself, if_pos h4]
      by_cases hle : 4 ≤ (nextPiece cut.request 0).length
      · simp [hle]
      · rw [if_neg hle]
        have hne : nextPiece cut.request 0 ≠ client.request.bytes := fun he =>
          hle (he ▸ h4)
        simpa [hle, hne] using net.answerRequest_ne n (.inl rfl)

/-- The negotiation of the whole messages. -/
lemma negotiation_whole (client : Socks5Client) (net : Network) (enableAuth authenticated : ℤ) :
    client.whole.negotiation net enableAuth authenticated =
      net.negotiate enableAuth authenticated client (client.greeting.bytes.take 256)
        client.message.bytes client.request.bytes := by
  have hmessage := client.message.length_bytes
  have hfits := client.message.fits
  have hrequest := client.request.length_bytes_le
  rw [Socks5Cut.negotiation, Socks5Client.whole, nextPiece_cons client.greeting_ne_nil,
    nextPiece_cons client.message_ne_nil, nextPiece_cons client.request_ne_nil,
    List.take_of_length_le (by omega : client.message.bytes.length ≤ 256),
    List.take_of_length_le (by omega : client.request.bytes.length ≤ 512)]

/-- After the greeting was read, some reply was sent. -/
lemma Network.negotiate_replies_ne_nil (net : Network) (enableAuth authenticated : ℤ)
    (client : Socks5Client) (message request : Bytes) :
    (net.negotiate enableAuth authenticated client client.greeting.bytes message request).replies ≠
      [] := by
  have hanswer : ∀ n : Negotiation, n.replies ≠ [] → ∀ r, (net.answerRequest n r).replies ≠ [] :=
    fun n hn r he => hn (List.prefix_nil.mp (he ▸ net.prefix_answerRequest n r))
  simp only [Network.negotiate, if_true]
  split
  · exact List.cons_ne_nil _ _
  · split
    · split
      · split
        · exact hanswer _ (List.cons_ne_nil _ _) _
        · exact List.cons_ne_nil _ _
      · exact List.cons_ne_nil _ _
    · exact hanswer _ (List.cons_ne_nil _ _) _

/-- After the second message was read, another reply was sent. -/
lemma Network.negotiate_message_ne (net : Network) {enableAuth : ℤ} (authenticated : ℤ)
    {client : Socks5Client} (h2 : client.selected enableAuth = 2) {message : Bytes}
    (hm : message ≠ client.message.bytes) (request request' : Bytes) :
    net.negotiate enableAuth authenticated client client.greeting.bytes message request ≠
      net.negotiate enableAuth authenticated client client.greeting.bytes client.message.bytes
        request' := by
  intro he
  have hreplies := congrArg Negotiation.replies he
  simp only [Network.negotiate, h2, hm, if_true, if_false] at hreplies
  split at hreplies
  · rename_i h255
    exact absurd h255 (by decide)
  · split at hreplies
    · have hprefix := net.prefix_answerRequest ⟨[5, 2, 1, 0], 1, []⟩
        (parseRequest request'.length request')
      rw [← hreplies] at hprefix
      exact absurd hprefix.length_le (by simp)
    · simp at hreplies

/-- **The comparison.** -/
lemma negotiation_eq_iff {client : Socks5Client} (cut : Socks5Cut client) (net : Network)
    (enableAuth authenticated : ℤ) :
    cut.negotiation net enableAuth authenticated =
      client.whole.negotiation net enableAuth authenticated ↔ cut.Undivided net enableAuth := by
  have hlen := client.greeting.length_bytes
  rw [negotiation_whole, Socks5Cut.negotiation, Socks5Cut.Undivided]
  by_cases hlong : client.greeting.methods.length = 255
  · -- no `recv` brings the whole greeting
    have hshort : ∀ piece : Bytes, piece.take 256 ≠ client.greeting.bytes := by
      intro piece he
      have hle := List.length_take_le 256 piece
      rw [he] at hle
      omega
    simp [Network.negotiate, hshort, hlong]
  have hle := client.greeting.length_le
  rw [List.take_of_length_le (by omega : client.greeting.bytes.length ≤ 256)]
  have hgreeting := cut.greeting_cut.take_eq_iff client.greeting_ne_nil
    (by omega : client.greeting.bytes.length ≤ 256)
  -- a greeting that is divided is not answered, and a reply is missing
  by_cases hg : cut.greeting = [client.greeting.bytes]
  · rw [hgreeting.mpr hg]
    simp only [hlong, hg, false_or, true_and]
    rcases selectMethod_cases enableAuth client.greeting.methods with h255 | h2 | h0
    · -- no method is acceptable
      have hselected : client.selected enableAuth = 255 := h255
      simp [Network.negotiate, hselected]
    · -- the second message comes next
      have hselected : client.selected enableAuth = 2 := h2
      have hmessage := cut.message_cut.take_eq_iff client.message_ne_nil
        (client.message.length_bytes ▸ client.message.fits)
      by_cases hm : cut.message = [client.message.bytes]
      · rw [hmessage.mpr hm]
        by_cases hverified : client.verified net = 0
        · simpa [Network.negotiate, hselected, hm, hverified] using cut.answerRequest_eq_iff net _
        · simp [Network.negotiate, hselected, hm, hverified]
      · have hpiece : (nextPiece cut.message 0).take 256 ≠ client.message.bytes :=
          fun he => hm (hmessage.mp he)
        simpa [hselected, hm] using net.negotiate_message_ne authenticated hselected hpiece _ _
    · -- the request comes next
      have hselected : client.selected enableAuth = 0 := h0
      simpa [Network.negotiate, hselected] using cut.answerRequest_eq_iff net _
  · have hpiece : (nextPiece cut.greeting 0).take 256 ≠ client.greeting.bytes :=
      fun he => hg (hgreeting.mp he)
    simp only [hlong, hg, false_and, or_self, iff_false]
    intro he
    have hreplies := congrArg Negotiation.replies he
    rw [Network.negotiate, if_neg hpiece] at hreplies
    exact net.negotiate_replies_ne_nil _ _ client _ _ hreplies.symm

/-- **Negotiation depends on the pieces.** It comes to the same as with whole messages if and
only if the messages it comes to are in one piece each, apart from greetings that the handler
cannot receive and requests that it refuses by the type of their address. -/
theorem sameNegotiation_iff (client : Socks5Client) (cut : Socks5Cut client) (net : Network)
    (config : HandlerConfig) (locals : Locals) (conn : Connection) :
    SameNegotiation config locals conn (cut.network net config.enableAuth)
        (client.whole.network net config.enableAuth) ↔
      cut.Undivided net config.enableAuth :=
  (sameNegotiation_iff_eq cut client.whole net config locals conn).trans
    (negotiation_eq_iff cut net config.enableAuth conn.authenticated)

/-- A client without authentication. -/
def plainClient : Socks5Client where
  greeting := ⟨[0], by decide⟩
  message := ⟨[], [], by decide, by decide, by decide⟩
  request := ⟨.ipv4 10 0 0 1, 0, 80⟩

/-- The first byte of the greeting arrives alone. -/
def splitGreeting : Socks5Cut plainClient where
  greeting := [[5], [1, 0]]
  message := [plainClient.message.bytes]
  request := [plainClient.request.bytes]
  greeting_cut := ⟨by decide, rfl⟩
  message_cut := isCut_singleton plainClient.message_ne_nil
  request_cut := isCut_singleton plainClient.request_ne_nil

/-- The client gets no reply. -/
theorem greeting_unanswered :
    ¬SameNegotiation ⟨.socks5, 0, 0, 0, 0, [], 0⟩ ⟨[], [], []⟩ ⟨[], -1, 0, 0, 0⟩
      (splitGreeting.network (.plain []) 0) (plainClient.whole.network (.plain []) 0) := by
  intro hsame
  have heq := (sameNegotiation_iff_eq splitGreeting plainClient.whole (.plain [])
    ⟨.socks5, 0, 0, 0, 0, [], 0⟩ ⟨[], [], []⟩ ⟨[], -1, 0, 0, 0⟩).mp hsame
  exact absurd heq (by decide)

end ProxyMax
