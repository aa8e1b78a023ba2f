import ProxyMax.Server.Connection

/-!
Authentication comes first: with `enable_auth` set, a connection to a host and an
answer from the cache both come after the credentials of the client were verified.

* `SocksMessage`, `Credentials`: the credentials that a message of the client
  carries.
* `Authenticated`: the credentials of an earlier message were verified.
* `NeedsAuth`: the calls that need it.
* `auth_gate`: in every run, each such call comes after it.
-/

namespace ProxyMax

open CString Interaction

/-- The message of RFC 1929: the version, and the username and the password each
after its length. -/
def SocksMessage (message username password : Bytes) : Prop :=
  ∃ name word rest : Bytes, message = 1 :: UInt8.ofNat name.length :: name ++
      UInt8.ofNat word.length :: word ++ rest ∧
    name.length < 256 ∧ word.length < 256 ∧ username = cstr name ∧ password = cstr word

/-- The message carries the credentials, in a `Proxy-Authorization` header or as
the message of SOCKS5. -/
def Credentials (message username password : Bytes) : Prop :=
  httpCredentials (cstr message) = some (username, password) ∨
    SocksMessage message username password

/-- The client sent credentials, and after that they were verified. -/
def Authenticated (users : List AuthCredentials) (h : Trace) : Prop :=
  ∃ (h₁ h₂ h₃ : Trace) (size : ℕ) (message : Bytes) (pos : 0 < message.length)
      (le : message.length ≤ size) (username password : Bytes),
    h = h₁ ++ ⟨.recv .client size, Received.data message pos le⟩ :: h₂ ++
        ⟨.authVerify username password, (0 : ℤ)⟩ :: h₃ ∧
      Credentials message username password ∧ authVerify users username password = 0

/-- A connection to a host, or data for the client after the cache had an answer. -/
def NeedsAuth (h : Trace) : Command → Prop
  | .connectToHost _ _ => True
  | .send .client _ => ∃ key data, ⟨.cacheGet key, some data⟩ ∈ h
  | _ => False

/-- The calls that are allowed. -/
def AuthGuard (users : List AuthCredentials) (h : Trace) (c : Command) : Prop :=
  NeedsAuth h c → Authenticated users h

lemma Authenticated.snoc {users : List AuthCredentials} {h : Trace} (ha : Authenticated users h)
    (c : Command) (r : Reply c) : Authenticated users (h ++ [⟨c, r⟩]) := by
  obtain ⟨h₁, h₂, h₃, size, message, pos, le, username, password, rfl, hcred, hret⟩ := ha
  exact ⟨h₁, h₂, h₃ ++ [⟨c, r⟩], size, message, pos, le, username, password, by simp, hcred, hret⟩

/-- Nothing is asked of what comes after the authentication. -/
lemma Authenticated.wp_any {globals : Globals} {h : Trace} (ha : Authenticated globals.users h)
    {α : Type} (p : Handler α) :
    wp (answers globals) (AuthGuard globals.users) p (fun _ => Authenticated globals.users) h :=
  wp_of_stable (fun h c ha => (fun _ => ha : AuthGuard globals.users h c))
    (fun _ c r ha => ha.snoc c r) p ha

/-- Data for the client is allowed as long as the cache was not asked. -/
lemma NoHit.wp_sendAll {globals : Globals} {h : Trace} (hn : NoHit h) (fuel : ℕ)
    (buffer : Bytes) :
    wp (answers globals) (AuthGuard globals.users) (sendAll fuel .client buffer)
      (fun _ => NoHit) h := by
  refine wp_of_only (fun h c hc hn hneeds => ?_) (fun h c r hc hn => ?_)
    (only_sendAll fuel .client buffer) hn
  · obtain ⟨bytes, rfl⟩ := hc
    obtain ⟨key, data, hmem⟩ := hneeds
    exact absurd hmem (hn key data)
  · obtain ⟨bytes, rfl⟩ := hc
    exact hn.snoc (by trivial) r

lemma NoHit.wp_refuse {globals : Globals} {h : Trace} (hn : NoHit h) (fuel : ℕ)
    (response : Bytes) (conn : Connection) :
    wp (answers globals) (AuthGuard globals.users) (refuse fuel response conn)
      (fun _ _ => True) h := by
  simp only [refuse, bind_eq, pure_eq, wp_bind]
  exact wp_mono (hn.wp_sendAll fuel response) fun _ _ _ => trivial

/-- A call that does not need it. -/
lemma AuthGuard.free {users : List AuthCredentials} {h : Trace} {c : Command}
    (hc : ¬ NeedsAuth h c) : AuthGuard users h c := fun hneeds => absurd hneeds hc

/-! ### HTTP -/

/-- The request at the end of the trace is authenticated or refused. -/
lemma wp_httpServe_auth {config : HandlerConfig} (hauth : config.enableAuth ≠ 0) {globals : Globals}
    {h : Trace} (hn : NoHit h) (fuel : ℕ) {size : ℕ} (received : Bytes)
    (pos : 0 < received.length) (le : received.length ≤ size) (request : Request)
    (conn : Connection) :
    wp (answers globals) (AuthGuard globals.users) (httpServe config fuel received request conn)
      (fun _ _ => True) (h ++ [⟨.recv .client size, Received.data received pos le⟩]) := by
  have hn' : NoHit (h ++ [⟨.recv .client size, Received.data received pos le⟩] ++
      [⟨.statsIncrementRequests, ()⟩]) := (hn.snoc (by trivial) _).snoc (by trivial) _
  simp only [httpServe, if_pos hauth, statsIncrementRequests, bind_eq, wp_bind, wp_ask]
  refine ⟨.free id, ?_⟩
  intro _ _
  rw [httpAuthenticate]
  split
  · exact hn'.wp_refuse fuel authRequired conn
  · rename_i username password hcred
    split
    · trivial
    · simp only [callAuthVerify, bind_eq, pure_eq, wp_bind, wp_ask, wp_ret]
      refine ⟨.free id, ?_⟩
      intro ret hret
      by_cases h0 : ret = 0
      · subst h0
        have ha : Authenticated globals.users (h ++ [⟨.recv .client size,
            Received.data received pos le⟩] ++ [⟨.statsIncrementRequests, ()⟩] ++
            [⟨.authVerify username password, (0 : ℤ)⟩]) :=
          ⟨h, [⟨.statsIncrementRequests, ()⟩], [], size, received, pos, le, username, password,
            by simp, .inl hcred, hret.symm⟩
        exact wp_mono (ha.wp_any _) fun _ _ _ => trivial
      · have hn'' := hn'.snoc (c := .authVerify username password) trivial ret
        simp only [h0, decide_false]
        exact hn''.wp_refuse fuel authRequired conn

/-- **The HTTP handler.** -/
lemma wp_httpHandleRequest {config : HandlerConfig} (hauth : config.enableAuth ≠ 0)
    {globals : Globals} {h : Trace} (hn : NoHit h) (fuel : ℕ) (host : Bytes) (conn : Connection) :
    wp (answers globals) (AuthGuard globals.users) (httpHandleRequest config fuel host conn)
      (fun _ _ => True) h := by
  simp only [httpHandleRequest, recv, bind_eq, pure_eq, wp_bind, wp_ask]
  refine ⟨.free id, ?_⟩
  intro r _
  cases r with
  | closed => trivial
  | error => trivial
  | data received pos le =>
      simp only
      split
      · trivial
      · exact (hn.snoc (by trivial) _).wp_refuse fuel badRequest conn
      · exact wp_httpServe_auth hauth hn fuel received pos le _ conn

/-! ### SOCKS5 -/

/-- A message with credentials is the message of RFC 1929. -/
lemma socksMessage_of_parse {message username password : Bytes}
    (h : parseCredentials message.length message = some (username, password)) :
    SocksMessage message username password := by
  rw [parseCredentials] at h
  split at h
  · simp at h
  rename_i h3
  split at h
  · simp at h
  rename_i hversion
  simp only at h
  split at h
  · simp at h
  rename_i hname
  split at h
  · simp at h
  rename_i hword
  -- the message is cut at its two lengths
  obtain ⟨v, n, t, rfl⟩ : ∃ v n t, message = v :: n :: t := by
    rcases message with _ | ⟨v, _ | ⟨n, t⟩⟩
    · simp at h3
    · simp at h3
    · exact ⟨v, n, t, rfl⟩
  have hlen : n.toNat + 1 ≤ t.length := by
    simp only [List.getD_cons_succ, List.getD_cons_zero, List.length_cons] at hname
    omega
  obtain ⟨w, t', ht⟩ : ∃ w t', t.drop n.toNat = w :: t' :=
    List.exists_cons_of_ne_nil (by simpa using hlen)
  obtain ⟨name, hnamelen, rfl⟩ : ∃ name, name.length = n.toNat ∧ t = name ++ w :: t' :=
    ⟨t.take n.toNat, by simp; omega, by rw [← ht, List.take_append_drop]⟩
  have hw : (v :: n :: (name ++ w :: t')).getD (2 + n.toNat) 0 = w := by
    rw [Nat.add_comm, ← hnamelen]
    simp
  -- what is printed are the two parts, up to their first NUL
  simp only [List.getD_cons_succ, List.getD_cons_zero, hw, List.length_cons, List.length_append,
    Option.some.injEq, Prod.mk.injEq] at h hword
  have hu : username = cstr name := by
    rw [← h.1, ← hnamelen]
    simp
  have hp : password = cstr (t'.take w.toNat) := by
    rw [← h.2, ← hnamelen, show 2 + name.length + 1 = name.length + 1 + 2 by omega]
    simp
  have hv : v = 1 := of_not_not hversion
  -- the parts make up the message again, and their lengths fit a byte
  refine ⟨name, t'.take w.toNat, t'.drop w.toNat, ?_, ?_, ?_, hu, hp⟩
  · have hwlen : (t'.take w.toNat).length = w.toNat := by
      rw [List.length_take]
      omega
    rw [hwlen, hnamelen, UInt8.ofNat_toNat, UInt8.ofNat_toNat, hv]
    simp
  · rw [hnamelen]
    exact n.toNat_lt
  · rw [List.length_take]
    have := w.toNat_lt
    omega

lemma selectMethod_of_auth {enableAuth : ℤ} (hauth : enableAuth ≠ 0) (methods : Bytes) :
    selectMethod enableAuth methods = 2 ∨ selectMethod enableAuth methods = 255 := by
  induction methods with
  | nil => exact .inr rfl
  | cons method methods ih =>
      rw [selectMethod]
      split
      · exact .inl rfl
      · simpa [hauth] using ih

lemma wp_socks5Authenticate {globals : Globals} {h : Trace} (hn : NoHit h) (fuel : ℕ)
    (buffer : Bytes) (conn : Connection) :
    wp (answers globals) (AuthGuard globals.users) (socks5Authenticate fuel buffer conn)
      (fun x h => x.1 = 0 → Authenticated globals.users h) h := by
  simp only [socks5Authenticate, recv, bind_eq, pure_eq, wp_bind, wp_ask]
  refine ⟨.free id, ?_⟩
  intro r _
  cases r with
  | closed => simp
  | error => simp
  | data received pos le =>
      simp only [parseCredentials_overwrite]
      split
      · simp
      · rename_i username password hparse
        simp only [callAuthVerify, wp_bind, wp_ask]
        refine ⟨.free id, ?_⟩
        intro ret hret
        have hn' : NoHit (h ++ [⟨.recv .client 256, Received.data received pos le⟩] ++
            [⟨.authVerify username password, ret⟩]) := (hn.snoc (by trivial) _).snoc (by trivial) _
        by_cases h0 : ret = 0
        · subst h0
          have ha : Authenticated globals.users (h ++ [⟨.recv .client 256,
              Received.data received pos le⟩] ++ [⟨.authVerify username password, (0 : ℤ)⟩]) :=
            ⟨h, [], [], 256, received, pos, le, username, password, by simp,
              .inr (socksMessage_of_parse hparse), hret.symm⟩
          exact wp_mono (ha.wp_any _) fun _ _ ha => (wp_mono (ha.wp_any _) fun _ _ ha _ => ha)
        · refine wp_mono (hn'.wp_sendAll fuel _) ?_
          intro sent _ _
          simp [h0]

/-- **The SOCKS5 handshake** succeeds for an authenticated client only. -/
lemma wp_socks5HandleHandshake {config : HandlerConfig} (hauth : config.enableAuth ≠ 0)
    {globals : Globals} {h : Trace} (hn : NoHit h) (fuel : ℕ) (buffer : Bytes)
    (conn : Connection) :
    wp (answers globals) (AuthGuard globals.users) (socks5HandleHandshake config fuel buffer conn)
      (fun x h => x.1 = 0 → Authenticated globals.users h) h := by
  simp only [socks5HandleHandshake, recv, bind_eq, pure_eq, wp_bind, wp_ask]
  refine ⟨.free id, ?_⟩
  intro r _
  cases r with
  | closed => simp
  | error => simp
  | data received pos le =>
      simp only
      split
      · simp
      · rename_i methods _
        simp only [wp_bind]
        refine wp_mono ((hn.snoc (by trivial) _).wp_sendAll fuel _) ?_
        intro sent h' hn'
        rcases selectMethod_of_auth hauth methods with hsel | hsel
        · simp only [hsel]
          split
          · simp
          · exact wp_socks5Authenticate hn' fuel _ conn
        · simp [hsel]

/-! ### All connections -/

/-- **Authentication comes first.** With `enable_auth` set and a mode that has
users, in every run of `connection_handle` a connection to a host, and data for the
client after an answer of the cache, come after credentials that the client sent
were verified. -/
theorem auth_gate {config : HandlerConfig} (hauth : config.enableAuth ≠ 0)
    (hmode : config.mode = .http ∨ config.mode = .https ∨ config.mode = .socks5)
    {globals : Globals} {fuel : ℕ} {locals : Locals} {conn : Connection} {tr : Trace}
    {out : Outcome Fault (ℤ × Connection)}
    (hrun : Runs (answers globals) [] (connectionHandle config fuel locals conn) tr out)
    {pre post : Trace} {c : Command} {r : Reply c} (htr : tr = pre ++ ⟨c, r⟩ :: post)
    (hneeds : NeedsAuth pre c) : Authenticated globals.users pre := by
  have hempty : NoHit [] := fun _ _ h => absurd h List.not_mem_nil
  have hmodes : ∀ {h : Trace}, NoHit h → wp (answers globals) (AuthGuard globals.users)
      (modeHandle config fuel locals conn) (fun _ _ => True) h := by
    intro h hn
    rw [modeHandle]
    rcases hmode with hmode | hmode | hmode
    · rw [hmode]
      exact wp_httpHandleRequest hauth hn fuel locals.host conn
    · rw [hmode]
      exact wp_httpHandleRequest hauth hn fuel locals.host conn
    · rw [hmode]
      simp only [socks5Handle, bind_eq, wp_bind]
      refine wp_mono (wp_socks5HandleHandshake hauth hn fuel locals.handshake conn)
        fun x h' hx => ?_
      split
      · rename_i h0
        exact wp_mono ((hx h0).wp_any _) fun _ _ _ => trivial
      · trivial
  have hwp : wp (answers globals) (AuthGuard globals.users)
      (connectionHandle config fuel locals conn) (fun _ _ => True) [] := by
    rw [connectionHandle]
    split
    · simp only [callFilterCheckIp, bind_eq, wp_bind, wp_ask]
      refine ⟨.free id, ?_⟩
      intro ret _
      split
      · trivial
      · exact hmodes (hempty.snoc (by trivial) _)
    · simp only [bind_eq, pure_eq, wp_bind, wp_ret]
      exact hmodes hempty
  have hguard := (wp_sound hwp hrun).1 pre c r post htr
  exact hguard hneeds

/-- The user that `auth_init` makes up when it has no file. -/
def adminUser : AuthCredentials :=
  ⟨ascii "admin" ++ List.replicate 123 0, ascii "admin" ++ List.replicate 123 0, []⟩

/-- A request with the credentials of this user. -/
def adminRequest : Bytes :=
  ascii ("GET / HTTP/1.1\r\nHost: a\r\n" ++
    "Proxy-Authorization: Basic YWRtaW46YWRtaW4=\r\n\r\n")

/-- The run that this request makes. -/
def adminRun : Trace × Outcome Fault (ℤ × Connection) :=
  play (Script.reply ⟨[adminUser], ⟨[], [], [], []⟩⟩ ⟨[adminRequest], [], fun _ => none⟩) []
    (connectionHandle ⟨.http, 0, 1, 0, 0, [], 0⟩ 2 ⟨[], [], []⟩ ⟨[], -1, 0, 0, 0⟩)

/-- It goes on to its destination after it was authenticated. -/
theorem auth_gate_adminRun :
    ∃ pre r post, adminRun.1 = pre ++ ⟨.connectToHost (ascii "a") 80, r⟩ :: post ∧
      Authenticated [adminUser] pre := by
  have hcalls : adminRun.1.map Sigma.fst =
      [.recv .client 65535, .statsIncrementRequests, .authVerify (ascii "admin") (ascii "admin")] ++
        .connectToHost (ascii "a") 80 :: (adminRun.1.map Sigma.fst).drop 4 := by
    decide +kernel
  obtain ⟨pre, r, post, htr, -⟩ := exists_event hcalls
  exact ⟨pre, r, post, htr, auth_gate (by decide) (.inl rfl)
    (play_runs (Script.answers_reply _ _) _ _) htr trivial⟩

end ProxyMax
