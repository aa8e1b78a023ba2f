import ProxyMax.Socks5.Negotiation

/-!
The replies to a SOCKS5 request.

* `CompleteRequest`: a request that one `recv` delivers whole.
* `Replied rep h`: the client has one reply, whose REP field is `rep`.
* `until_socks5HandleRequest`: the handler, up to the relay loop.
* `answeredOnce_iff`: which requests get exactly one reply.
-/

namespace ProxyMax

open CString Interaction

/-- A request that one `recv` delivers whole, with any command and any type of address. What
follows the address of another type is not read. -/
structure CompleteRequest where
  bytes : Bytes
  length_le : bytes.length ≤ 512
  four_le : 4 ≤ bytes.length
  version : bytes.getD 0 0 = 5
  ipv4 : bytes.getD 3 0 = 1 → 10 ≤ bytes.length
  domain : bytes.getD 3 0 = 3 → 5 + (bytes.getD 4 0).toNat + 2 ≤ bytes.length

namespace CompleteRequest

variable (request : CompleteRequest)

/-- The command. -/
def cmd : UInt8 := request.bytes.getD 1 0

/-- The type of the address. -/
def atyp : UInt8 := request.bytes.getD 3 0

/-- What the `recv` gives. -/
def received : Received 512 :=
  .data request.bytes (Nat.lt_of_lt_of_le (by decide) request.four_le) request.length_le

/-- The environment delivers the request. -/
def DeliveredBy (env : Trace → (c : Command) → Reply c → Prop) : Prop :=
  ∀ r, env [] (.recv .client 512) r → r = request.received

/-- A `recv` of the request alone gives all of it. -/
lemma arrival_eq : arrival request.bytes 512 = request.received := by
  have htake := List.take_of_length_le request.length_le
  have hpos : 0 < (request.bytes.take 512).length := by
    rw [htake]
    exact Nat.lt_of_lt_of_le (by decide) request.four_le
  rw [arrival, dif_pos hpos]
  simp only [htake, received]

/-- The handler reads the destination if it knows the type of the address. -/
lemma parse_supported (h : request.atyp = 1 ∨ request.atyp = 3) :
    ∃ host port, parseRequest request.bytes.length request.bytes =
      .command request.cmd host port := by
  rw [CompleteRequest.atyp] at h
  rw [parseRequest, if_neg (Nat.not_lt.mpr request.four_le), if_neg (not_not.mpr request.version)]
  rcases h with h1 | h3
  · rw [if_pos h1, if_neg (Nat.not_lt.mpr (request.ipv4 h1))]
    exact ⟨_, _, rfl⟩
  · rw [if_neg (by rw [h3]; decide), if_pos h3]
    dsimp only
    rw [if_neg (Nat.not_lt.mpr (request.domain h3))]
    exact ⟨_, _, rfl⟩

/-- It reads no more of a request with another type. -/
lemma parse_unsupported (h : ¬ (request.atyp = 1 ∨ request.atyp = 3)) :
    parseRequest request.bytes.length request.bytes = .badAddressType := by
  rw [CompleteRequest.atyp, not_or] at h
  rw [parseRequest, if_neg (Nat.not_lt.mpr request.four_le), if_neg (not_not.mpr request.version),
    if_neg h.1, if_neg h.2]

end CompleteRequest

/-! ### One reply -/

/-- The client has accepted one reply of 10 bytes, whose REP field is `rep`. -/
def Replied (rep : UInt8) (h : Trace) : Prop :=
  ∃ address : Bytes, address.length = 6 ∧ acceptedBy .client h = [5, rep, 0, 1] ++ address

/-- The relay loop has begun. -/
def RelayBegun (h : Trace) : Prop := ∃ e ∈ h, e.1.negotiates = false

/-- There is one reply before the relay loop, and its REP field is 0 if and only if the loop
begins. -/
def RepliedOnce (h : Trace) : Prop :=
  ∃ rep, Replied rep (beforeRelay h) ∧ (rep = 0 ↔ RelayBegun h)

/-- **One reply to the request.** In every run where the request is delivered and the `send`s
succeed, there is one reply before the handler returns or begins the relay loop, and the
handler does not fail before that. -/
def CompleteRequest.AnsweredOnce (request : CompleteRequest) : Prop :=
  ∀ env, SendsSucceed env → request.DeliveredBy env → ∀ fuel, 10 < fuel → ∀ buffer conn tr out,
    Runs env [] (socks5HandleRequest fuel buffer conn) tr out →
    out ≠ .waiting ∨ RelayBegun tr → RepliedOnce tr

/-- The command is one that the handler knows, or the type of the address is not. -/
def CompleteRequest.Answerable (request : CompleteRequest) : Prop :=
  request.cmd = 1 ∨ request.cmd = 2 ∨ request.cmd = 3 ∨
    ¬ (request.atyp = 1 ∨ request.atyp = 3)

instance (request : CompleteRequest) : Decidable request.Answerable :=
  inferInstanceAs (Decidable (_ ∨ _ ∨ _ ∨ ¬ (_ ∨ _)))

/-! ### The handler up to the relay loop -/

/-- The handler has refused the request. -/
def Refused (h : Trace) : Prop := ∃ rep, rep ≠ 0 ∧ Replied rep h

/-- Up to the relay loop the program does not fail, and the loop begins after a reply that
says so. -/
abbrev UpToRelay {α : Type} (env : Trace → (c : Command) → Reply c → Prop) (p : Handler α)
    (Q : α → Trace → Prop) (h : Trace) : Prop :=
  Until env (fun c => c.negotiates = false) (Replied 0) p Q h

section Handling

variable {env : Trace → (c : Command) → Reply c → Prop} (henv : SendsSucceed env) {fuel : ℕ}
  (hfuel : 10 < fuel) {h : Trace} (hnone : acceptedBy .client h = [])

include henv hfuel hnone in
/-- A reply is sent. -/
lemma until_sendReply (rep : UInt8) {address : Bytes} (hlen : address.length = 6) :
    UpToRelay env (sendAll fuel .client ([5, rep, 0, 1] ++ address))
      (fun ret h' => 0 ≤ ret ∧ Replied rep h') h := by
  have hfits : ([5, rep, 0, 1] ++ address).length < fuel := by
    rw [List.length_append, hlen]
    exact hfuel
  refine until_of_ends (ends_mono (ends_sendAll henv hfits) ?_)
    (only_mono (only_sendAll fuel .client _) ?_)
  · rintro ret h' ⟨rfl, hs⟩
    refine ⟨Int.natCast_nonneg _, address, hlen, ?_⟩
    rw [hs.acceptedBy_eq, hnone, List.nil_append]
  · rintro c ⟨bytes, rfl⟩
    simp [Command.negotiates]

include henv hfuel hnone in
/-- A refusal. -/
lemma until_refuse {rep : UInt8} (hrep : rep ≠ 0) (conn : Connection) :
    UpToRelay env (refuse fuel (socks5Reply rep) conn) (fun _ => Refused) h :=
  until_bind (until_mono (until_sendReply henv hfuel hnone rep rfl) fun _ _ hr =>
    ⟨rep, hrep, hr.2⟩)

/-- The relay loop begins. -/
lemma until_tunnel (hfuel : 0 < fuel) (hreplied : Replied 0 h) {size seconds : ℕ}
    (conn : Connection) {Q : Connection → Trace → Prop} :
    UpToRelay env (tunnel fuel size seconds conn) Q h := by
  obtain ⟨fuel, rfl⟩ := Nat.exists_eq_succ_of_ne_zero hfuel.ne'
  exact until_call_of (c := .select seconds) (K := fun c => c.negotiates = false) rfl _ hreplied

include henv hfuel hnone in
/-- `CONNECT`: the reply says whether the relay loop begins. -/
lemma until_socks5Connect (host : Bytes) (port : ℤ) (conn : Connection) :
    UpToRelay env (socks5Connect fuel host port conn) (fun _ => Refused) h := by
  simp only [socks5Connect, connectToHost, getsockname, bind_eq, pure_eq]
  refine until_bind (until_ask (by simp [Command.negotiates]) fun fd _ => ?_)
  have hconnected : acceptedBy .client (h ++ [⟨.connectToHost host port, fd⟩]) = [] := by
    rw [acceptedBy_snoc, hnone]
    rfl
  split
  · exact until_refuse henv hfuel hconnected (by decide) _
  refine until_bind (until_ask (by simp [Command.negotiates]) fun address _ => ?_)
  have hlocal : acceptedBy .client
      (h ++ [⟨.connectToHost host port, fd⟩] ++ [⟨.getsockname, address⟩]) = [] := by
    rw [acceptedBy_snoc, hconnected]
    rfl
  refine until_bind (until_mono (until_sendReply henv hfuel hlocal 0 address.property) ?_)
  rintro ret h' ⟨hret, hreplied⟩
  rw [if_neg (not_lt.mpr hret)]
  exact until_bind (until_tunnel (by omega) hreplied _)

include henv hfuel in
/-- **The request**, up to the relay loop. -/
lemma until_socks5HandleRequest {request : CompleteRequest} (hrequest : request.Answerable)
    (hdelivered : request.DeliveredBy env) (buffer : Bytes) (conn : Connection) :
    UpToRelay env (socks5HandleRequest fuel buffer conn) (fun _ => Refused) [] := by
  simp only [socks5HandleRequest, recv, bind_eq, pure_eq]
  refine until_bind (until_ask (by simp [Command.negotiates]) fun r hr => ?_)
  obtain rfl := hdelivered r hr
  have hnone : acceptedBy .client [⟨.recv .client 512, request.received⟩] = [] := rfl
  dsimp only [CompleteRequest.received]
  rw [parseRequest_overwrite]
  by_cases hatyp : request.atyp = 1 ∨ request.atyp = 3
  · obtain ⟨host, port, hparse⟩ := request.parse_supported hatyp
    rw [hparse]
    dsimp only
    split
    · exact until_socks5Connect henv hfuel hnone host port conn
    rename_i h1
    have h23 : request.cmd = 2 ∨ request.cmd = 3 := by
      rcases hrequest with h | h | h | h
      · exact absurd h h1
      · exact .inl h
      · exact .inr h
      · exact absurd hatyp h
    rw [if_pos h23]
    exact until_refuse henv hfuel hnone (by decide) conn
  · rw [request.parse_unsupported hatyp]
    exact until_refuse henv hfuel hnone (by decide) conn

end Handling

/-! ### Which requests are answered -/

/-- An answerable request gets one reply. -/
lemma CompleteRequest.Answerable.answeredOnce {request : CompleteRequest}
    (hrequest : request.Answerable) : request.AnsweredOnce := by
  intro env henv hdelivered fuel hfuel buffer conn tr out hrun hend
  have hnegotiates : ∀ {h : Trace}, (∀ e ∈ h, ¬ e.1.negotiates = false) →
      ∀ e ∈ h, e.1.negotiates = true := fun hall e he => Bool.eq_true_of_not_eq_false (hall e he)
  rcases until_sound (until_socks5HandleRequest henv hfuel hrequest hdelivered buffer conn) hrun
    with ⟨pre, c, r, post, rfl, hpre, hc, hreplied⟩ | ⟨hbefore, hraise, hreturned⟩
  · -- the relay loop begins at `c`
    refine ⟨0, ?_, iff_of_true rfl ⟨⟨c, r⟩, by simp, hc⟩⟩
    rwa [beforeRelay_append (hnegotiates hpre) hc]
  · have hunbegun : ¬ RelayBegun tr := fun ⟨e, he, hne⟩ => hbefore e he hne
    cases out with
    | returned x =>
        obtain ⟨rep, hrep, hreplied⟩ := hreturned x rfl
        refine ⟨rep, ?_, iff_of_false hrep hunbegun⟩
        rwa [beforeRelay_eq (hnegotiates hbefore)]
    | raised e => exact absurd rfl (hraise e)
    | waiting => exact absurd (hend.resolve_left (not_not.mpr rfl)) hunbegun

/-- The handler returns without a reply to an unknown command. -/
lemma CompleteRequest.runs_unanswered {request : CompleteRequest} (h : ¬ request.Answerable)
    {env : Trace → (c : Command) → Reply c → Prop}
    (henv : env [] (.recv .client 512) request.received) (fuel : ℕ) (buffer : Bytes)
    (conn : Connection) :
    Runs env [] (socks5HandleRequest fuel buffer conn) [⟨.recv .client 512, request.received⟩]
      (.returned (-1, conn)) := by
  have hatyp := not_not.mp fun hn => h (.inr (.inr (.inr hn)))
  obtain ⟨host, port, hparse⟩ := request.parse_supported hatyp
  have h1 : request.cmd ≠ 1 := fun h1 => h (.inl h1)
  have h23 : ¬ (request.cmd = 2 ∨ request.cmd = 3) := fun h23 =>
    h (.inr (h23.imp_right .inl))
  refine .call henv ?_
  dsimp only [Prog.bind, CompleteRequest.received]
  rw [parseRequest_overwrite, hparse]
  dsimp only
  rw [if_neg h1, if_neg h23]
  exact .ret _ _

/-- A network with this request alone delivers it. -/
lemma CompleteRequest.answers_iff (request : CompleteRequest) (r : Received 512) :
    (Network.plain [request.bytes]).answers [] (.recv .client 512) r ↔ r = request.received := by
  have hne : request.bytes ≠ [] :=
    List.length_pos_iff.mp (Nat.lt_of_lt_of_le (by decide) request.four_le)
  have hnext : (Network.plain [request.bytes]).next [] = request.bytes := nextPiece_cons hne []
  rw [Network.answers, hnext, request.arrival_eq]
  exact ⟨fun hr => hr hne, fun hr _ => hr⟩

/-- A request that is not answerable gets no reply. -/
lemma CompleteRequest.not_answeredOnce {request : CompleteRequest} (h : ¬ request.Answerable) :
    ¬ request.AnsweredOnce := by
  intro hanswered
  have hrun := runs_unanswered h ((request.answers_iff _).mpr rfl) 11 [] ⟨[], -1, 0, 0, 0⟩
  obtain ⟨rep, ⟨address, -, haccepted⟩, -⟩ := hanswered _ (Network.sendsSucceed _)
    (fun r hr => (request.answers_iff r).mp hr) 11 (by decide) _ _ _ _ hrun (.inl (by simp))
  have hnothing : acceptedBy .client
      (beforeRelay [⟨.recv .client 512, request.received⟩]) = [] := rfl
  rw [hnothing] at haccepted
  exact List.cons_ne_nil _ _ haccepted.symm

/-- **One reply, except to unknown commands.** A complete request gets exactly one reply, with
REP 0 just when the relay loop begins, if and only if its command is `CONNECT`, `BIND` or
`UDP`, or the type of its address is not supported. -/
theorem answeredOnce_iff (request : CompleteRequest) :
    request.AnsweredOnce ↔ request.Answerable :=
  ⟨fun h => by_contra fun hnot => CompleteRequest.not_answeredOnce hnot h,
    CompleteRequest.Answerable.answeredOnce⟩

/-- The command 4, to 10.0.0.1 port 80. -/
def unknownCommand : CompleteRequest where
  bytes := [5, 4, 0, 1, 10, 0, 0, 1, 0, 80]
  length_le := by decide
  four_le := by decide
  version := rfl
  ipv4 := by decide
  domain := by decide

/-- The client gets no reply. -/
theorem unknownCommand_unanswered : ¬ unknownCommand.AnsweredOnce :=
  CompleteRequest.not_answeredOnce (by decide)

end ProxyMax
