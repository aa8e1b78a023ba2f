import ProxyMax.Lib.Threads
import ProxyMax.Server.Relay
import ProxyMax.Socks5.Messages

/-!
What the SOCKS5 handlers do with the messages of a client that are received at once.

* `Destination`: the destinations of RFC 1928 that are supported; `connectMessage` is
  the request to connect to one, and `connectMessage_decoded` what the handler connects
  to.
* `UserPassword`: a username and a password, and the message of RFC 1929 with them.
* `Verifies`: the handler passes on both; `verifies_iff` says for which lengths, and
  `long_credentials_refused` is a message that is refused.
-/

namespace ProxyMax

open CString Interaction

/-! ### Requests -/

/-- An IPv4 address, or a domain name of 1 to 255 bytes. -/
inductive Destination where
  | ipv4 (a b c d : UInt8)
  | domain (name : Bytes) (ne_nil : name ≠ []) (length_le : name.length ≤ 255)
      (not_nul : ∀ c ∈ name, c ≠ 0)

/-- The address in the message. -/
def Destination.address : Destination → Address
  | .ipv4 a b c d => .ipv4 a b c d
  | .domain name _ length_le _ => .domain name length_le

/-- The host as a text. -/
def Destination.text : Destination → Bytes
  | .ipv4 a b c d => dottedDecimal a b c d
  | .domain name _ _ _ => name

/-- The request to connect, with the port in network byte order. -/
def connectRequest (destination : Destination) (port : UInt16) : ConnectRequest where
  address := destination.address
  high := UInt8.ofNat (port.toNat / 256)
  low := UInt8.ofNat (port.toNat % 256)

/-- The message of the request. -/
def connectMessage (destination : Destination) (port : UInt16) : Bytes :=
  (connectRequest destination port).bytes

lemma Destination.host_address (destination : Destination) :
    destination.address.host = some destination.text := by
  cases destination with
  | ipv4 a b c d => rfl
  | domain name ne_nil length_le not_nul => exact congrArg some (cstr_of_not_nul not_nul)

/-- Two bytes make up the port again. -/
lemma port_connectRequest (destination : Destination) (port : UInt16) :
    (connectRequest destination port).port = port.toNat := by
  have hport : port.toNat < 65536 := port.toNat_lt
  have hhigh : (UInt8.ofNat (port.toNat / 256)).toNat = port.toNat / 256 :=
    UInt8.toNat_ofNat_of_lt' (by rw [UInt8.size]; omega)
  have hlow : (UInt8.ofNat (port.toNat % 256)).toNat = port.toNat % 256 :=
    UInt8.toNat_ofNat_of_lt' (by rw [UInt8.size]; omega)
  rw [ConnectRequest.port, connectRequest, portOf, hhigh, hlow]
  omega

/-- The request, with any bytes after it, is read. -/
lemma parseRequest_connectMessage (destination : Destination) (port : UInt16)
    (extra buffer : Bytes) :
    parseRequest (connectMessage destination port ++ extra).length
        (overwrite buffer (connectMessage destination port ++ extra)) =
      .command 1 destination.text port.toNat := by
  have hhost : (connectRequest destination port).address.host = some destination.text :=
    destination.host_address
  have hlen : (connectRequest destination port).bytes.length ≤
      ((connectRequest destination port).bytes ++ extra).length := by
    rw [List.length_append]
    omega
  rw [connectMessage, parseRequest_supported hhost (List.prefix_refl _) buffer, if_pos hlen,
    port_connectRequest]

/-- **Decoding undoes encoding.** After a request to connect was received, with any bytes after
it, the handler goes on with a connection to exactly the host and the port of the request; so
does every run that begins with the receipt of the request. -/
theorem connectMessage_decoded (destination : Destination) (port : UInt16) (extra : Bytes)
    (pos : 0 < (connectMessage destination port ++ extra).length)
    (le : (connectMessage destination port ++ extra).length ≤ 512) (fuel : ℕ) (buffer : Bytes)
    (conn : Connection) :
    (socks5HandleRequest fuel buffer conn).next
        [⟨.recv .client 512, .data (connectMessage destination port ++ extra) pos le⟩] =
      some (.connectToHost destination.text port.toNat) ∧
    ∀ env tr out, Runs env [] (socks5HandleRequest fuel buffer conn)
        (⟨.recv .client 512, .data (connectMessage destination port ++ extra) pos le⟩ :: tr) out →
      tr = [] ∧ out = .waiting ∨
        ∃ fd post, tr = ⟨.connectToHost destination.text port.toNat, fd⟩ :: post := by
  have hnext : (socks5HandleRequest fuel buffer conn).next
      [⟨.recv .client 512, .data (connectMessage destination port ++ extra) pos le⟩] =
        some (.connectToHost destination.text port.toNat) := by
    simp only [socks5HandleRequest, recv, ask, bind_eq, Prog.bind, next_call_cons,
      parseRequest_connectMessage, if_true, socks5Connect, connectToHost, next_call_nil]
  exact ⟨hnext, fun env tr out hrun => hrun.next hnext⟩

/-- A domain. -/
def domainExample : Destination := .domain (ascii "a.org") (by decide) (by decide) (by decide)

/-- A run that receives a request to connect to a domain, with a byte after it. -/
theorem connectMessage_decoded_example :
    (socks5HandleRequest 0 [] ⟨[], -1, 0, 0, 0⟩).next
        [⟨.recv .client 512, .data (connectMessage domainExample 443 ++ [22])
          (by decide) (by decide)⟩] =
      some (.connectToHost (ascii "a.org") 443) ∧
    ∃ tr out, Runs (fun _ _ _ => True) [] (socks5HandleRequest 0 [] ⟨[], -1, 0, 0, 0⟩)
        (⟨.recv .client 512, .data (connectMessage domainExample 443 ++ [22])
          (by decide) (by decide)⟩ :: tr) out ∧
      tr ≠ [] ∧ ∃ fd post, tr = ⟨.connectToHost (ascii "a.org") 443, fd⟩ :: post := by
  obtain ⟨hnext, hruns⟩ := connectMessage_decoded domainExample 443 [22] (by decide) (by decide) 0
    [] ⟨[], -1, 0, 0, 0⟩
  obtain ⟨out, hrun⟩ := exists_runs_of_next (h := []) hnext (-1 : ℤ)
  refine ⟨hnext, _, out, hrun, List.cons_ne_nil _ _, ?_⟩
  exact (hruns _ _ out hrun).resolve_left fun hwaiting => List.cons_ne_nil _ _ hwaiting.1

/-! ### Username and password -/

/-- A username and a password of 1 to 255 bytes each. -/
structure UserPassword where
  username : Bytes
  password : Bytes
  username_ne_nil : username ≠ []
  password_ne_nil : password ≠ []
  username_le : username.length ≤ 255
  password_le : password.length ≤ 255
  username_not_nul : ∀ c ∈ username, c ≠ 0
  password_not_nul : ∀ c ∈ password, c ≠ 0

namespace UserPassword

/-- The message with them. -/
def bytes (credentials : UserPassword) : Bytes :=
  1 :: UInt8.ofNat credentials.username.length ::
    (credentials.username ++ UInt8.ofNat credentials.password.length :: credentials.password)

lemma length_bytes (credentials : UserPassword) :
    credentials.bytes.length = 3 + credentials.username.length + credentials.password.length := by
  simp only [bytes, List.length_cons, List.length_append]
  omega

lemma take_pos (credentials : UserPassword) : 0 < (credentials.bytes.take 256).length := by
  rw [List.length_take, length_bytes]
  omega

/-- What `recv` gives of the message, which is all there: at most the size it was called with. -/
def received (credentials : UserPassword) : Received 256 :=
  .data (credentials.bytes.take 256) credentials.take_pos (List.length_take_le _ _)

/-- Both lengths together decide whether the message is read. -/
lemma parseCredentials_take (credentials : UserPassword) (buffer : Bytes) :
    parseCredentials (credentials.bytes.take 256).length
        (overwrite buffer (credentials.bytes.take 256)) =
      if credentials.username.length + credentials.password.length ≤ 253 then
        some (credentials.username, credentials.password)
      else none := by
  have hlen := credentials.length_bytes
  split
  · rename_i hfits
    let message : AuthMessage := ⟨credentials.username, credentials.password,
      credentials.username_le, credentials.password_le, by omega⟩
    have hwhole : credentials.bytes.take 256 = message.bytes :=
      List.take_of_length_le (by omega)
    rw [hwhole, parseCredentials_part (List.prefix_refl message.bytes), if_pos rfl,
      cstr_of_not_nul credentials.username_not_nul, cstr_of_not_nul credentials.password_not_nul]
  · rename_i hlong
    have htake : (credentials.bytes.take 256).length = 256 := by
      rw [List.length_take]
      omega
    have hpart : ∀ i, i < 256 → (overwrite buffer (credentials.bytes.take 256)).getD i 0 =
        credentials.bytes.getD i 0 := fun i hi =>
      getD_overwrite_part (List.take_prefix _ _) buffer (by omega)
    have h1 : (credentials.bytes.getD 1 0).toNat = credentials.username.length :=
      toNat_length credentials.username_le
    rw [htake, parseCredentials, if_neg (by omega), hpart 0 (by omega), hpart 1 (by omega), h1]
    split
    · rfl
    dsimp only
    by_cases hu : 256 < 2 + credentials.username.length + 1
    · exact if_pos hu
    have hp : (credentials.bytes.getD (2 + credentials.username.length) 0).toNat =
        credentials.password.length := by
      rw [← toNat_length credentials.password_le]
      simp [bytes, Nat.add_comm 2]
    rw [if_neg hu, hpart _ (by omega), hp, if_pos (by omega)]

end UserPassword

/-- The credentials are verified: whenever the method with username and password was selected
for a greeting, and that was sent to the client in whatever pieces, the handler goes on, after
the receipt of the message, with `auth_verify` of exactly this username and this password. -/
def Verifies (credentials : UserPassword) : Prop :=
  ∀ (config : HandlerConfig) (fuel : ℕ) (buffer : Bytes) (conn : Connection) (greeting : Bytes)
    (pos : 0 < greeting.length) (le : greeting.length ≤ 256) (methods : Bytes) (sends : Trace)
    (ret : ℤ), config.enableAuth ≠ 0 →
    parseGreeting greeting.length (overwrite buffer greeting) = some methods →
    selectMethod config.enableAuth methods = 2 →
    Runs Anything [⟨.recv .client 256, .data greeting pos le⟩] (sendAll fuel .client [5, 2]) sends
      (.returned ret) → 0 ≤ ret →
    (socks5HandleHandshake config fuel buffer conn).next
        (⟨.recv .client 256, .data greeting pos le⟩ ::
          (sends ++ [⟨.recv .client 256, credentials.received⟩])) =
      some (.authVerify credentials.username credentials.password)

section Handshake

variable {config : HandlerConfig} {fuel : ℕ} {buffer greeting methods : Bytes}
  {pos : 0 < greeting.length} {le : greeting.length ≤ 256} {sends : Trace} {ret : ℤ}

/-- After the method was selected and sent, the handler goes on with the authentication. -/
lemma next_socks5HandleHandshake (conn : Connection)
    (hgreeting : parseGreeting greeting.length (overwrite buffer greeting) = some methods)
    (hselected : selectMethod config.enableAuth methods = 2)
    (hsent : Runs Anything [⟨.recv .client 256, .data greeting pos le⟩]
      (sendAll fuel .client [5, 2]) sends (.returned ret))
    (hret : 0 ≤ ret) (tr : Trace) :
    (socks5HandleHandshake config fuel buffer conn).next
        (⟨.recv .client 256, .data greeting pos le⟩ :: (sends ++ tr)) =
      (socks5Authenticate fuel (overwrite buffer greeting) conn).next tr := by
  simp only [socks5HandleHandshake, recv, ask, bind_eq, Prog.bind, next_call_cons, hgreeting,
    hselected]
  rw [next_bind hsent, if_neg (not_lt.mpr hret), if_neg (by decide), if_pos trivial]

/-- The authentication goes on with the credentials it has read. -/
lemma next_socks5Authenticate (credentials : UserPassword) (conn : Connection) :
    (socks5Authenticate fuel buffer conn).next [⟨.recv .client 256, credentials.received⟩] =
      if credentials.username.length + credentials.password.length ≤ 253 then
        some (.authVerify credentials.username credentials.password)
      else none := by
  simp only [socks5Authenticate, recv, ask, bind_eq, Prog.bind, next_call_cons,
    UserPassword.received, credentials.parseCredentials_take]
  split_ifs <;> rfl

end Handshake

/-- A greeting that offers the method, to a proxy with authentication, and its answer. -/
lemma Verifies.next {credentials : UserPassword} (hverifies : Verifies credentials) :
    (socks5Authenticate 2 (overwrite [] [5, 1, 2]) ⟨[], -1, 0, 0, 0⟩).next
        [⟨.recv .client 256, credentials.received⟩] =
      some (.authVerify credentials.username credentials.password) := by
  have hgreeting :
      parseGreeting ([5, 1, 2] : Bytes).length (overwrite [] [5, 1, 2]) = some [2] := by decide
  have hsent : Runs Anything [⟨.recv .client 256, .data [5, 1, 2] (by decide) (by decide)⟩]
      (sendAll 2 .client [5, 2]) [⟨.send .client [5, 2], .sent 2 (by decide) (by decide)⟩]
      (.returned 2) := .call trivial (.ret _ _)
  have hselected : selectMethod 1 [2] = 2 := by decide
  have hnext := hverifies { plainConfig with enableAuth := 1 } 2 [] ⟨[], -1, 0, 0, 0⟩ [5, 1, 2]
    (by decide) (by decide) [2] _ 2 one_ne_zero hgreeting hselected hsent (by decide)
  rwa [next_socks5HandleHandshake _ hgreeting hselected hsent (by decide)] at hnext

/-- Longer ones are not verified, as the message is cut off. -/
lemma Verifies.length_le {credentials : UserPassword} (hverifies : Verifies credentials) :
    credentials.username.length + credentials.password.length ≤ 253 := by
  by_contra hlong
  have hnext := hverifies.next
  rw [next_socks5Authenticate, if_neg hlong] at hnext
  cases hnext

/-- **Username and password.** They are verified if and only if they have at most 253 bytes
together, so that the message fits the buffer of 256 bytes. -/
theorem verifies_iff (credentials : UserPassword) :
    Verifies credentials ↔ credentials.username.length + credentials.password.length ≤ 253 := by
  refine ⟨Verifies.length_le, fun hfits => ?_⟩
  intro config fuel buffer conn greeting pos le methods sends ret _ hgreeting hselected hsent hret
  rw [next_socks5HandleHandshake conn hgreeting hselected hsent hret, next_socks5Authenticate,
    if_pos hfits]

lemma replicate_ne_nil (c : UInt8) : List.replicate 127 c ≠ [] := by simp

lemma replicate_length_le (c : UInt8) : (List.replicate 127 c).length ≤ 255 := by simp

lemma replicate_not_nul {c : UInt8} (hc : c ≠ 0) : ∀ d ∈ List.replicate 127 c, d ≠ 0 := by
  intro d hd
  rwa [List.eq_of_mem_replicate hd]

lemma letter_ne_zero : (117 : UInt8) ≠ 0 := by decide

/-- A username and a password of 127 bytes each. -/
def longCredentials : UserPassword where
  username := List.replicate 127 117
  password := List.replicate 127 117
  username_ne_nil := replicate_ne_nil 117
  password_ne_nil := replicate_ne_nil 117
  username_le := replicate_length_le 117
  password_le := replicate_length_le 117
  username_not_nul := replicate_not_nul letter_ne_zero
  password_not_nul := replicate_not_nul letter_ne_zero

/-- They are refused without being verified. -/
theorem long_credentials_refused :
    longCredentials.bytes.length = 257 ∧
      Runs Anything [] (socks5HandleHandshake { plainConfig with enableAuth := 1 } 2 []
          ⟨[], -1, 0, 0, 0⟩)
        [⟨.recv .client 256, .data [5, 1, 2] (by decide) (by decide)⟩,
          ⟨.send .client [5, 2], .sent 2 (by decide) (by decide)⟩,
          ⟨.recv .client 256, longCredentials.received⟩] (.returned (-1, ⟨[], -1, 0, 0, 0⟩)) ∧
      ¬Verifies longCredentials := by
  have hlong : ¬longCredentials.username.length + longCredentials.password.length ≤ 253 := by
    simp [longCredentials]
  refine ⟨by simp [UserPassword.length_bytes, longCredentials], ?_,
    fun hverifies => hlong hverifies.length_le⟩
  refine .call trivial (.call trivial (.call trivial ?_))
  simp only [Prog.bind, UserPassword.received, UserPassword.parseCredentials_take, if_neg hlong]
  exact .ret _ _

end ProxyMax
