import ProxyMax.Lib.Blocks
import ProxyMax.Lib.Decimal
import ProxyMax.Server.Streams
import ProxyMax.Socks5.Handler

/-!
The handlers of `src/protocols/socks5.c` with every access to their arrays checked.

* `greetingChecked`, `credentialsChecked`, `requestChecked`: what the handlers read, from
  arrays of the sizes in the source; an access outside of one is an error.
* `greetingChecked_receive`, `credentialsChecked_receive`, `requestChecked_receive`: there
  is none, and what is read comes from the bytes that were received.
* `socks5HandleHandshakeChecked`, `socks5HandleRequestChecked`: the handlers, which are
  the ones without checks.
* `socks5_bounded`: the claim about both.
-/

namespace ProxyMax

open CString Interaction

/-! ### Reading the messages -/

/-- The loop over the offered methods: the method of the round `i`, where `k` rounds are left. -/
def selectMethodChecked (enableAuth : ℤ) (buffer : Block 256) :
    ℕ → ℕ → Except OutOfBounds UInt8
  | _, 0 => .ok 255
  | i, k + 1 => do
      let method ← buffer.read (2 + i)
      if enableAuth ≠ 0 ∧ method = 2 then pure 2
      else if enableAuth = 0 ∧ method = 0 then pure 0
      else selectMethodChecked enableAuth buffer (i + 1) k

/-- The method that is selected for a greeting of `n` bytes. -/
def greetingChecked (enableAuth : ℤ) (n : ℕ) (buffer : Block 256) :
    Except OutOfBounds (Option UInt8) :=
  if n < 2 then pure none
  else do
    let version ← buffer.read 0
    if version ≠ 5 then pure none
    else do
      let numMethods ← buffer.read 1
      if n < 2 + numMethods.toNat then pure none
      else do
        let selected ← selectMethodChecked enableAuth buffer 0 numMethods.toNat
        pure (some selected)

/-- The username and the password in a message of `n` bytes, by way of their arrays. -/
def credentialsChecked (n : ℕ) (buffer : Block 256) :
    Except OutOfBounds (Option (Bytes × Bytes)) :=
  if n < 3 then pure none
  else do
    let version ← buffer.read 0
    if version ≠ 1 then pure none
    else do
      let usernameLen ← buffer.read 1
      if n < 2 + usernameLen.toNat + 1 then pure none
      else do
        let username ← (Block.zero 256).copy buffer 2 usernameLen.toNat
        let passwordLen ← buffer.read (2 + usernameLen.toNat)
        if n < 2 + usernameLen.toNat + 1 + passwordLen.toNat then pure none
        else do
          let password ← (Block.zero 256).copy buffer (2 + usernameLen.toNat + 1) passwordLen.toNat
          let username ← username.string
          let password ← password.string
          pure (some (username, password))

/-- What is read in a request of `n` bytes, the host by way of its array. -/
def requestChecked (n : ℕ) (buffer : Block 512) : Except OutOfBounds Socks5Request :=
  if n < 4 then pure .invalid
  else do
    let version ← buffer.read 0
    let cmd ← buffer.read 1
    let atyp ← buffer.read 3
    if version ≠ 5 then pure .invalid
    else if atyp = 1 then
      if n < 10 then pure .invalid
      else do
        let a ← buffer.read 4
        let b ← buffer.read 5
        let c ← buffer.read 6
        let d ← buffer.read 7
        let host ← (Block.zero maxHostname).print (dottedDecimal a b c d)
        let high ← buffer.read 8
        let low ← buffer.read 9
        let host ← host.string
        pure (.command cmd host (portOf high low))
    else if atyp = 3 then do
      let domainLen ← buffer.read 4
      if n < 5 + domainLen.toNat + 2 then pure .invalid
      else do
        let host ← (Block.zero maxHostname).copy buffer 5 domainLen.toNat
        let host ← host.write domainLen.toNat 0
        let high ← buffer.read (5 + domainLen.toNat)
        let low ← buffer.read (5 + domainLen.toNat + 1)
        let host ← host.string
        pure (.command cmd host (portOf high low))
    else pure .badAddressType

/-! ### No access is outside of an array -/

section Receiving

variable {received : Bytes}

/-- The loop reads the methods that were received. -/
lemma selectMethodChecked_receive (enableAuth : ℤ) (buffer : Block 256)
    (le : received.length ≤ 256) (k i : ℕ) (hk : 2 + i + k ≤ received.length) :
    selectMethodChecked enableAuth (buffer.receive received le) i k =
      .ok (selectMethod enableAuth ((received.drop (2 + i)).take k)) := by
  induction k generalizing i with
  | zero => rfl
  | succ k ih =>
      have hi : 2 + i < received.length := by omega
      have hget : received.getD (2 + i) 0 = received[2 + i] := by
        rw [List.getD, List.getElem?_eq_getElem hi]
        rfl
      rw [selectMethodChecked, Block.read_receive buffer le hi, List.drop_eq_getElem_cons hi,
        List.take_succ_cons, selectMethod, hget]
      simp only [bind, Except.bind]
      split_ifs
      · rfl
      · rfl
      · exact ih (i + 1) (by omega)

/-- **The greeting.** -/
lemma greetingChecked_receive (enableAuth : ℤ) (buffer : Block 256)
    (le : received.length ≤ 256) :
    greetingChecked enableAuth received.length (buffer.receive received le) =
      .ok ((parseGreeting received.length received).map (selectMethod enableAuth)) := by
  rw [greetingChecked, parseGreeting]
  by_cases h2 : received.length < 2
  · rw [if_pos h2, if_pos h2]
    rfl
  rw [if_neg h2, if_neg h2, Block.read_receive buffer le (by omega),
    Block.read_receive buffer le (by omega)]
  simp only [bind, Except.bind]
  by_cases hversion : received.getD 0 0 ≠ 5
  · rw [if_pos hversion, if_pos hversion]
    rfl
  rw [if_neg hversion, if_neg hversion]
  by_cases hn : received.length < 2 + (received.getD 1 0).toNat
  · rw [if_pos hn, if_pos hn]
    rfl
  · rw [if_neg hn, if_neg hn, selectMethodChecked_receive enableAuth buffer le _ 0 (by omega)]
    rfl

/-- A part whose length is a byte fits an array of 256 bytes, and leaves room for a NUL. -/
lemma length_part_lt (offset : ℕ) (count : UInt8) :
    ((received.drop offset).take count.toNat).length < 256 :=
  (List.length_take_le _ _).trans_lt count.toNat_lt

/-- **The credentials.** -/
lemma credentialsChecked_receive (buffer : Block 256) (le : received.length ≤ 256) :
    credentialsChecked received.length (buffer.receive received le) =
      .ok (parseCredentials received.length received) := by
  rw [credentialsChecked, parseCredentials]
  by_cases h3 : received.length < 3
  · rw [if_pos h3, if_pos h3]
    rfl
  rw [if_neg h3, if_neg h3, Block.read_receive buffer le (by omega),
    Block.read_receive buffer le (by omega)]
  simp only [bind, Except.bind]
  by_cases hversion : received.getD 0 0 ≠ 1
  · rw [if_pos hversion, if_pos hversion]
    rfl
  rw [if_neg hversion, if_neg hversion]
  by_cases hu : received.length < 2 + (received.getD 1 0).toNat + 1
  · rw [if_pos hu, if_pos hu]
    rfl
  have husername := @length_part_lt received 2 (received.getD 1 0)
  rw [if_neg hu, if_neg hu, Block.copy_receive buffer le (by omega) _ husername.le
    (UInt8.toNat_lt _).le, Block.read_receive buffer le (by omega)]
  by_cases hp : received.length < 2 + (received.getD 1 0).toNat + 1 +
      (received.getD (2 + (received.getD 1 0).toNat) 0).toNat
  · simp only [if_pos hp]
    rfl
  have hpassword := @length_part_lt received (2 + (received.getD 1 0).toNat + 1)
    (received.getD (2 + (received.getD 1 0).toNat) 0)
  simp only [if_neg hp]
  rw [Block.copy_receive buffer le (by omega) _ hpassword.le (UInt8.toNat_lt _).le]
  simp only [Block.string_receive_zero _ husername, Block.string_receive_zero _ hpassword]
  rfl

/-- A number of one byte has at most three digits. -/
lemma length_decimal_byte (c : UInt8) : (decimal c.toNat).length ≤ 3 :=
  decimal_length_le (by decide) (c.toNat_lt.trans (by decide))

lemma length_dottedDecimal_lt (a b c d : UInt8) :
    (dottedDecimal a b c d ++ [0]).length ≤ maxHostname := by
  have ha := length_decimal_byte a
  have hb := length_decimal_byte b
  have hc := length_decimal_byte c
  have hd := length_decimal_byte d
  have hmax : maxHostname = 256 := rfl
  simp only [dottedDecimal, List.length_append, List.length_cons, List.length_nil]
  omega

/-- There is no NUL in the text of an address. -/
lemma cstr_dottedDecimal (a b c d : UInt8) :
    cstr (dottedDecimal a b c d) = dottedDecimal a b c d := by
  have hdigits : ∀ n, ∀ x ∈ decimal n, x ≠ 0 := fun n x hx =>
    (isspace_of_isdigit x (decimal_isdigit x hx)).2.2.2.1
  refine cstr_of_not_nul fun x hx => ?_
  simp only [dottedDecimal, List.append_assoc, List.cons_append, List.mem_append,
    List.mem_cons] at hx
  rcases hx with hx | rfl | hx | rfl | hx | rfl | hx
  · exact hdigits _ x hx
  · decide
  · exact hdigits _ x hx
  · decide
  · exact hdigits _ x hx
  · decide
  · exact hdigits _ x hx

/-- **The request.** The length of the name is read also where it was not received, and is
not used then. -/
lemma requestChecked_receive (buffer : Block 512) (le : received.length ≤ 512) :
    requestChecked received.length (buffer.receive received le) =
      .ok (parseRequest received.length received) := by
  rw [requestChecked, parseRequest]
  -- the head of four bytes
  by_cases h4 : received.length < 4
  · rw [if_pos h4, if_pos h4]
    rfl
  rw [if_neg h4, if_neg h4, Block.read_receive buffer le (by omega),
    Block.read_receive buffer le (by omega), Block.read_receive buffer le (by omega)]
  simp only [bind, Except.bind]
  by_cases hversion : received.getD 0 0 ≠ 5
  · rw [if_pos hversion, if_pos hversion]
    rfl
  rw [if_neg hversion, if_neg hversion]
  -- an IPv4 address: all ten bytes were received, and its text fits
  by_cases hipv4 : received.getD 3 0 = 1
  · rw [if_pos hipv4, if_pos hipv4]
    by_cases h10 : received.length < 10
    · rw [if_pos h10, if_pos h10]
      rfl
    rw [if_neg h10, if_neg h10, Block.read_receive buffer le (by omega),
      Block.read_receive buffer le (by omega), Block.read_receive buffer le (by omega),
      Block.read_receive buffer le (by omega), Block.read_receive buffer le (by omega),
      Block.read_receive buffer le (by omega)]
    simp only [Block.print_of_lt _ (length_dottedDecimal_lt ..), Block.string_print,
      cstr_dottedDecimal]
    rfl
  rw [if_neg hipv4, if_neg hipv4]
  -- a domain: its length, its bytes and the port were received, and the name fits
  by_cases hdomain : received.getD 3 0 = 3
  · rw [if_pos hdomain, if_pos hdomain]
    by_cases h5 : received.length < 5
    · rw [Block.read_of_lt _ (by omega)]
      have hshort : ∀ k, received.length < 5 + k + 2 := fun k => by omega
      simp only [hshort, if_true]
      rfl
    rw [Block.read_receive buffer le (by omega)]
    by_cases hn : received.length < 5 + (received.getD 4 0).toNat + 2
    · simp only [if_pos hn]
      rfl
    have hname : ((received.drop 5).take (received.getD 4 0).toNat).length < maxHostname :=
      length_part_lt 5 (received.getD 4 0)
    have hcount : (received.getD 4 0).toNat ≤ maxHostname := (received.getD 4 0).toNat_lt.le
    have hlen : ((received.drop 5).take (received.getD 4 0).toNat).length =
        (received.getD 4 0).toNat := by
      rw [List.length_take, List.length_drop]
      omega
    simp only [if_neg hn]
    rw [Block.copy_receive buffer le (by omega) _ hname.le hcount]
    simp only [Block.write_receive_zero _ hname hlen, Block.string_receive_zero _ hname]
    rw [Block.read_receive buffer le (by omega), Block.read_receive buffer le (by omega)]
    rfl
  · rw [if_neg hdomain, if_neg hdomain]
    rfl

end Receiving

/-! ### The handlers -/

/-- The username and password authentication. -/
def socks5AuthenticateChecked (fuel : ℕ) (buffer : Block 256) (conn : Connection) :
    Handler (ℤ × Connection) := do
  match ← recv .client 256 with
  | .closed => pure (-1, conn)
  | .error => pure (-1, conn)
  | .data received _ le =>
      match credentialsChecked received.length (buffer.receive received le) with
      | .error _ => .raise .overrun
      | .ok none => pure (-1, conn)
      | .ok (some (username, password)) => do
          let authResult ← callAuthVerify username password
          let sent ← sendAll fuel .client [1, if authResult = 0 then 0 else 1]
          if sent < 0 then pure (-1, conn)
          else if authResult ≠ 0 then pure (-1, conn)
          else pure (0, { conn with authenticated := 1 })

/-- `socks5_handle_handshake`; `buffer` is what its array holds at first. -/
def socks5HandleHandshakeChecked (config : HandlerConfig) (fuel : ℕ) (buffer : Block 256)
    (conn : Connection) : Handler (ℤ × Connection) := do
  match ← recv .client 256 with
  | .closed => pure (-1, conn)
  | .error => pure (-1, conn)
  | .data received _ le =>
      let buffer := buffer.receive received le
      match greetingChecked config.enableAuth received.length buffer with
      | .error _ => .raise .overrun
      | .ok none => pure (-1, conn)
      | .ok (some selected) => do
          let sent ← sendAll fuel .client [5, selected]
          if sent < 0 then pure (-1, conn)
          else if selected = 255 then pure (-1, conn)
          else if selected = 2 then socks5AuthenticateChecked fuel buffer conn
          else pure (0, conn)

/-- `socks5_handle_request`; `buffer` is what its array holds at first. -/
def socks5HandleRequestChecked (fuel : ℕ) (buffer : Block 512) (conn : Connection) :
    Handler (ℤ × Connection) := do
  match ← recv .client 512 with
  | .closed => pure (-1, conn)
  | .error => pure (-1, conn)
  | .data received _ le =>
      match requestChecked received.length (buffer.receive received le) with
      | .error _ => .raise .overrun
      | .ok .invalid => pure (-1, conn)
      | .ok .badAddressType => refuse fuel (socks5Reply 8) conn
      | .ok (.command cmd host port) =>
          if cmd = 1 then socks5Connect fuel host port conn
          else if cmd = 2 ∨ cmd = 3 then refuse fuel (socks5Reply 7) conn
          else pure (-1, conn)

section Handlers

variable (config : HandlerConfig) (fuel : ℕ) (conn : Connection)

/-- With checks and without, whatever the arrays hold at first. -/
lemma socks5AuthenticateChecked_eq (buffer : Block 256) (stale : Bytes) :
    socks5AuthenticateChecked fuel buffer conn = socks5Authenticate fuel stale conn := by
  refine congrArg (Prog.call _) (funext fun r => ?_)
  cases r with
  | closed => rfl
  | error => rfl
  | data received pos le =>
      dsimp only [Prog.bind]
      rw [credentialsChecked_receive, parseCredentials_overwrite]
      cases parseCredentials received.length received with
      | none => rfl
      | some credentials => rfl

lemma socks5HandleHandshakeChecked_eq (buffer : Block 256) (stale : Bytes) :
    socks5HandleHandshakeChecked config fuel buffer conn =
      socks5HandleHandshake config fuel stale conn := by
  refine congrArg (Prog.call _) (funext fun r => ?_)
  cases r with
  | closed => rfl
  | error => rfl
  | data received pos le =>
      dsimp only [Prog.bind]
      rw [greetingChecked_receive, parseGreeting_overwrite]
      cases parseGreeting received.length received with
      | none => rfl
      | some methods =>
          simp only [Option.map_some,
            socks5AuthenticateChecked_eq fuel conn _ (overwrite stale received)]

lemma socks5HandleRequestChecked_eq (buffer : Block 512) (stale : Bytes) :
    socks5HandleRequestChecked fuel buffer conn = socks5HandleRequest fuel stale conn := by
  refine congrArg (Prog.call _) (funext fun r => ?_)
  cases r with
  | closed => rfl
  | error => rfl
  | data received pos le =>
      dsimp only [Prog.bind]
      rw [requestChecked_receive, parseRequest_overwrite]
      cases parseRequest received.length received <;> rfl

end Handlers

/-! ### The failures of the handlers -/

/-- The failure of a loop that goes on for longer than it is followed. -/
def FuelOnly (e : Fault) (_ : Trace) : Prop := e = .outOfFuel

section Failing

variable (fuel : ℕ) (conn : Connection) (h : Trace)

lemma fuelOnly_outOfFuel (h : Trace) : FuelOnly .outOfFuel h := rfl

lemma fuelOnly_refuse (response : Bytes) : Fails FuelOnly (refuse fuel response conn) h :=
  fails_bind (fails_sendAll fuelOnly_outOfFuel fuel .client response h) fun _ _ => trivial

lemma fuelOnly_socks5HandleHandshake (config : HandlerConfig) (buffer : Bytes) :
    Fails FuelOnly (socks5HandleHandshake config fuel buffer conn) h := by
  intro r
  cases r with
  | closed => trivial
  | error => trivial
  | data received pos le =>
      dsimp only [Prog.bind]
      split
      · trivial
      refine fails_bind (fails_sendAll fuelOnly_outOfFuel fuel .client _ _) fun sent tr => ?_
      split_ifs
      · trivial
      · trivial
      · -- the authentication
        intro r
        cases r with
        | closed => trivial
        | error => trivial
        | data received pos le =>
            dsimp only [Prog.bind]
            split
            · trivial
            · intro authResult
              dsimp only [Prog.bind]
              refine fails_bind (fails_sendAll fuelOnly_outOfFuel fuel .client _ _)
                fun sent tr => ?_
              split_ifs <;> trivial
      · trivial

lemma fuelOnly_socks5HandleRequest (buffer : Bytes) :
    Fails FuelOnly (socks5HandleRequest fuel buffer conn) h := by
  intro r
  cases r with
  | closed => trivial
  | error => trivial
  | data received pos le =>
      dsimp only [Prog.bind]
      split
      · trivial
      · exact fuelOnly_refuse fuel conn _ (socks5Reply 8)
      · split_ifs
        · intro remoteFd
          dsimp only [Prog.bind]
          split
          · exact fuelOnly_refuse fuel _ _ (socks5Reply 4)
          · intro localAddr
            dsimp only [Prog.bind]
            refine fails_bind (fails_sendAll fuelOnly_outOfFuel fuel .client _ _) fun sent tr => ?_
            split
            · trivial
            · exact fails_bind (fails_tunnel fuelOnly_outOfFuel fuel _ _ _ _) fun _ _ => trivial
        · exact fuelOnly_refuse fuel conn _ (socks5Reply 7)
        · trivial

end Failing

/-- **Bounds.** In every run of the two handlers with all accesses checked, none is outside of its
array, and what they hold at first makes no difference: the handlers are the same programs for
all contents, so they make the same calls and return the same when the same bytes are
received. -/
theorem socks5_bounded (config : HandlerConfig) (fuel : ℕ) (conn : Connection)
    (handshake handshake' : Block 256) (request request' : Block 512) :
    (∀ env tr, ¬Runs env [] (socks5HandleHandshakeChecked config fuel handshake conn) tr
        (.raised .overrun)) ∧
      (∀ env tr, ¬Runs env [] (socks5HandleRequestChecked fuel request conn) tr
        (.raised .overrun)) ∧
      socks5HandleHandshakeChecked config fuel handshake conn =
        socks5HandleHandshakeChecked config fuel handshake' conn ∧
      socks5HandleRequestChecked fuel request conn =
        socks5HandleRequestChecked fuel request' conn := by
  refine ⟨fun env tr hrun => ?_, fun env tr hrun => ?_, ?_, ?_⟩
  · rw [socks5HandleHandshakeChecked_eq config fuel conn handshake []] at hrun
    cases fails_sound (fuelOnly_socks5HandleHandshake fuel conn [] config []) hrun
  · rw [socks5HandleRequestChecked_eq fuel conn request []] at hrun
    cases fails_sound (fuelOnly_socks5HandleRequest fuel conn [] []) hrun
  · rw [socks5HandleHandshakeChecked_eq config fuel conn handshake [],
      socks5HandleHandshakeChecked_eq config fuel conn handshake' []]
  · rw [socks5HandleRequestChecked_eq fuel conn request [],
      socks5HandleRequestChecked_eq fuel conn request' []]

end ProxyMax
