import ProxyMax.Http.Handler

/-!
`src/protocols/socks5.c`.

* `overwrite`: a buffer after a message was received into it.
* `selectMethod`, `parseGreeting`, `parseCredentials`, `parseRequest`: what the
  handlers read in the messages.
* `socks5HandleHandshake`, `socks5HandleRequest`: the handlers.
-/

namespace ProxyMax

open CString Interaction

/-- A buffer after the bytes `received` were written to its start. -/
def overwrite (buffer received : Bytes) : Bytes := received ++ buffer.drop received.length

lemma getD_overwrite (buffer : Bytes) {received : Bytes} {i : ℕ} (h : i < received.length) :
    (overwrite buffer received).getD i 0 = received.getD i 0 := by
  simp [overwrite, List.getD, List.getElem?_append_left h]

lemma slice_overwrite (buffer : Bytes) {received : Bytes} {i k : ℕ} (h : i + k ≤ received.length) :
    ((overwrite buffer received).drop i).take k = (received.drop i).take k := by
  rw [overwrite, List.drop_append_of_le_length (by omega), List.take_append_of_le_length]
  rw [List.length_drop]
  omega

/-! ### The handshake -/

/-- The loop over the offered methods; 255 is `SOCKS5_AUTH_NO_ACCEPTABLE`. -/
def selectMethod (enableAuth : ℤ) : Bytes → UInt8
  | [] => 255
  | method :: methods =>
      if enableAuth ≠ 0 ∧ method = 2 then 2
      else if enableAuth = 0 ∧ method = 0 then 0
      else selectMethod enableAuth methods

/-- The offered methods in a greeting of `n` bytes. -/
def parseGreeting (n : ℕ) (buffer : Bytes) : Option Bytes :=
  if n < 2 then none
  else if buffer.getD 0 0 ≠ 5 then none
  else
    let numMethods := (buffer.getD 1 0).toNat
    if n < 2 + numMethods then none else some ((buffer.drop 2).take numMethods)

/-- The username and the password in a message of `n` bytes. They are copied to
arrays of 256 zero bytes. -/
def parseCredentials (n : ℕ) (buffer : Bytes) : Option (Bytes × Bytes) :=
  if n < 3 then none
  else if buffer.getD 0 0 ≠ 1 then none
  else
    let usernameLen := (buffer.getD 1 0).toNat
    if n < 2 + usernameLen + 1 then none
    else
      let passwordLen := (buffer.getD (2 + usernameLen) 0).toNat
      if n < 2 + usernameLen + 1 + passwordLen then none
      else
        some (cstr ((buffer.drop 2).take usernameLen),
          cstr ((buffer.drop (2 + usernameLen + 1)).take passwordLen))

/-- A greeting is read from the bytes received alone. -/
lemma parseGreeting_overwrite (buffer received : Bytes) :
    parseGreeting received.length (overwrite buffer received)
      = parseGreeting received.length received := by
  rw [parseGreeting, parseGreeting]
  by_cases h2 : received.length < 2
  · rw [if_pos h2, if_pos h2]
  rw [if_neg h2, if_neg h2, getD_overwrite buffer (by omega), getD_overwrite buffer (by omega)]
  split
  · rfl
  dsimp only
  split
  · rfl
  rw [slice_overwrite buffer (by omega)]

/-- A message is read from the bytes received alone. -/
lemma parseCredentials_overwrite (buffer received : Bytes) :
    parseCredentials received.length (overwrite buffer received)
      = parseCredentials received.length received := by
  rw [parseCredentials, parseCredentials]
  by_cases h3 : received.length < 3
  · rw [if_pos h3, if_pos h3]
  rw [if_neg h3, if_neg h3, getD_overwrite buffer (by omega), getD_overwrite buffer (by omega)]
  split
  · rfl
  dsimp only
  split
  · rfl
  rw [getD_overwrite buffer (by omega)]
  split
  · rfl
  rw [slice_overwrite buffer (by omega), slice_overwrite buffer (by omega)]

/-- The username and password authentication. -/
def socks5Authenticate (fuel : ℕ) (buffer : Bytes) (conn : Connection) :
    Handler (ℤ × Connection) := do
  match ← recv .client 256 with
  | .closed => pure (-1, conn)
  | .error => pure (-1, conn)
  | .data received _ _ =>
      match parseCredentials received.length (overwrite buffer received) with
      | none => pure (-1, conn)
      | some (username, password) => do
          let authResult ← callAuthVerify username password
          let sent ← sendAll fuel .client [1, if authResult = 0 then 0 else 1]
          if sent < 0 then pure (-1, conn)
          else if authResult ≠ 0 then pure (-1, conn)
          else pure (0, { conn with authenticated := 1 })

/-- `socks5_handle_handshake`; `buffer` is what its array holds at first. -/
def socks5HandleHandshake (config : HandlerConfig) (fuel : ℕ) (buffer : Bytes)
    (conn : Connection) : Handler (ℤ × Connection) := do
  match ← recv .client 256 with
  | .closed => pure (-1, conn)
  | .error => pure (-1, conn)
  | .data received _ _ =>
      let buffer := overwrite buffer received
      match parseGreeting received.length buffer with
      | none => pure (-1, conn)
      | some methods => do
          let selected := selectMethod config.enableAuth methods
          let sent ← sendAll fuel .client [5, selected]
          if sent < 0 then pure (-1, conn)
          else if selected = 255 then pure (-1, conn)
          else if selected = 2 then socks5Authenticate fuel buffer conn
          else pure (0, conn)

/-! ### The request -/

/-- The text of an IPv4 address, as `sprintf` writes it. -/
def dottedDecimal (a b c d : UInt8) : Bytes :=
  decimal a.toNat ++ 46 :: decimal b.toNat ++ 46 :: decimal c.toNat ++ 46 :: decimal d.toNat

/-- What the handler reads in a request of `n` bytes. -/
inductive Socks5Request where
  /-- The handler returns without an answer. -/
  | invalid
  /-- The address type is not supported. -/
  | badAddressType
  /-- A command with a destination. -/
  | command (cmd : UInt8) (host : Bytes) (port : ℤ)
deriving DecidableEq, Repr

/-- A port, in network byte order. -/
def portOf (high low : UInt8) : ℤ := high.toNat * 256 + low.toNat

/-- The parsing of a request of `n` bytes. -/
def parseRequest (n : ℕ) (buffer : Bytes) : Socks5Request :=
  if n < 4 then .invalid
  else if buffer.getD 0 0 ≠ 5 then .invalid
  else if buffer.getD 3 0 = 1 then
    if n < 10 then .invalid
    else
      .command (buffer.getD 1 0)
        (dottedDecimal (buffer.getD 4 0) (buffer.getD 5 0) (buffer.getD 6 0) (buffer.getD 7 0))
        (portOf (buffer.getD 8 0) (buffer.getD 9 0))
  else if buffer.getD 3 0 = 3 then
    let domainLen := (buffer.getD 4 0).toNat
    if n < 5 + domainLen + 2 then .invalid
    else
      .command (buffer.getD 1 0) (cstr ((buffer.drop 5).take domainLen))
        (portOf (buffer.getD (5 + domainLen) 0) (buffer.getD (5 + domainLen + 1) 0))
  else .badAddressType

/-- A request is read from the bytes received alone: the length of a name that was not received
does not matter. -/
lemma parseRequest_overwrite (buffer received : Bytes) :
    parseRequest received.length (overwrite buffer received)
      = parseRequest received.length received := by
  rw [parseRequest, parseRequest]
  by_cases h4 : received.length < 4
  · rw [if_pos h4, if_pos h4]
  rw [if_neg h4, if_neg h4, getD_overwrite buffer (by omega), getD_overwrite buffer (by omega),
    getD_overwrite buffer (by omega)]
  split
  · rfl
  split
  · -- an IPv4 address
    split
    · rfl
    rw [getD_overwrite buffer (by omega), getD_overwrite buffer (by omega),
      getD_overwrite buffer (by omega), getD_overwrite buffer (by omega),
      getD_overwrite buffer (by omega), getD_overwrite buffer (by omega)]
  split
  · -- a domain name
    by_cases h5 : received.length < 5
    · rw [if_pos (by omega), if_pos (by omega)]
    rw [getD_overwrite buffer (by omega)]
    dsimp only
    split
    · rfl
    rw [slice_overwrite buffer (by omega), getD_overwrite buffer (by omega),
      getD_overwrite buffer (by omega)]
  · rfl

/-- A reply without an address. -/
def socks5Reply (rep : UInt8) : Bytes := [5, rep, 0, 1, 0, 0, 0, 0, 0, 0]

/-- The command `CONNECT`. -/
def socks5Connect (fuel : ℕ) (host : Bytes) (port : ℤ) (conn : Connection) :
    Handler (ℤ × Connection) := do
  let remoteFd ← connectToHost host port
  let conn := { conn with remoteFd }
  if remoteFd < 0 then refuse fuel (socks5Reply 4) conn
  else do
    let localAddr ← getsockname
    let sent ← sendAll fuel .client ([5, 0, 0, 1] ++ localAddr.val)
    if sent < 0 then pure (-1, conn)
    else do
      let conn ← tunnel fuel 512 300 conn
      pure (0, conn)

/-- `socks5_handle_request`; `buffer` is what its array holds at first. -/
def socks5HandleRequest (fuel : ℕ) (buffer : Bytes) (conn : Connection) :
    Handler (ℤ × Connection) := do
  match ← recv .client 512 with
  | .closed => pure (-1, conn)
  | .error => pure (-1, conn)
  | .data received _ _ =>
      match parseRequest received.length (overwrite buffer received) with
      | .invalid => pure (-1, conn)
      | .badAddressType => refuse fuel (socks5Reply 8) conn
      | .command cmd host port =>
          if cmd = 1 then socks5Connect fuel host port conn
          else if cmd = 2 ∨ cmd = 3 then refuse fuel (socks5Reply 7) conn
          else pure (-1, conn)

end ProxyMax
