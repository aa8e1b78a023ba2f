import ProxyMax.Socks5.Handler

/-!
The messages of a SOCKS5 client, and what the handlers read in a part of them.

* `Greeting`, `AuthMessage`, `ConnectRequest`: the messages.
* `parseGreeting_part`, `parseCredentials_part`: a part of the message is read only if
  it is all of it.
* `parseRequest_supported`, `parseRequest_ipv6`: the same for the request, which bytes of
  something else may follow.
-/

namespace ProxyMax

open CString

/-! ### Parts of messages -/

lemma getD_of_isPrefix {part message : Bytes} (h : part <+: message) {i : ℕ}
    (hi : i < part.length) :
    part.getD i 0 = message.getD i 0 := by
  obtain ⟨rest, rfl⟩ := h
  simp [List.getD, List.getElem?_append_left hi]

lemma slice_of_isPrefix {part message : Bytes} (h : part <+: message) {i k : ℕ}
    (hi : i + k ≤ part.length) : (part.drop i).take k = (message.drop i).take k := by
  obtain ⟨rest, rfl⟩ := h
  rw [List.drop_append_of_le_length (by omega), List.take_append_of_le_length]
  rw [List.length_drop]
  omega

/-- What is read in a buffer is read in the message, as far as it was received. -/
lemma getD_overwrite_part {part message : Bytes} (h : part <+: message) (buffer : Bytes) {i : ℕ}
    (hi : i < part.length) : (overwrite buffer part).getD i 0 = message.getD i 0 :=
  (getD_overwrite buffer hi).trans (getD_of_isPrefix h hi)

lemma slice_overwrite_part {part message : Bytes} (h : part <+: message) (buffer : Bytes) {i k : ℕ}
    (hi : i + k ≤ part.length) :
    ((overwrite buffer part).drop i).take k = (message.drop i).take k :=
  (slice_overwrite buffer hi).trans (slice_of_isPrefix h hi)

lemma toNat_length {bytes : Bytes} (h : bytes.length ≤ 255) :
    (UInt8.ofNat bytes.length).toNat = bytes.length :=
  UInt8.toNat_ofNat_of_lt' (by rw [UInt8.size]; omega)

lemma eq_iff_length_le {part message : Bytes} (h : part <+: message) :
    part = message ↔ message.length ≤ part.length :=
  ⟨fun he => (congrArg List.length he).ge, h.eq_of_length_le⟩

/-! ### The greeting -/

/-- The authentication methods that the client offers. -/
structure Greeting where
  methods : Bytes
  length_le : methods.length ≤ 255

def Greeting.bytes (greeting : Greeting) : Bytes :=
  5 :: UInt8.ofNat greeting.methods.length :: greeting.methods

lemma Greeting.length_bytes (greeting : Greeting) :
    greeting.bytes.length = 2 + greeting.methods.length := by
  simp only [Greeting.bytes, List.length_cons]
  omega

lemma parseGreeting_part {greeting : Greeting} {part : Bytes} (h : part <+: greeting.bytes)
    (buffer : Bytes) :
    parseGreeting part.length (overwrite buffer part) =
      if part = greeting.bytes then some greeting.methods else none := by
  have hlen := greeting.length_bytes
  simp only [eq_iff_length_le h]
  rw [parseGreeting]
  by_cases h2 : part.length < 2
  · rw [if_pos h2, if_neg (by omega)]
  have h0 : (overwrite buffer part).getD 0 0 = 5 := getD_overwrite_part h buffer (by omega)
  have h1 : ((overwrite buffer part).getD 1 0).toNat = greeting.methods.length := by
    rw [getD_overwrite_part h buffer (by omega)]
    exact toNat_length greeting.length_le
  rw [if_neg h2, if_neg (not_not.mpr h0), h1]
  by_cases hn : part.length < 2 + greeting.methods.length
  · rw [if_pos hn, if_neg (by omega)]
  · rw [if_neg hn, if_pos (by omega), slice_overwrite_part h buffer (by omega)]
    simp [Greeting.bytes]

/-! ### The credentials -/

/-- A username and a password, in a message that fits the buffer of the handler. -/
structure AuthMessage where
  username : Bytes
  password : Bytes
  username_le : username.length ≤ 255
  password_le : password.length ≤ 255
  fits : 3 + username.length + password.length ≤ 256

def AuthMessage.bytes (message : AuthMessage) : Bytes :=
  1 :: UInt8.ofNat message.username.length ::
    (message.username ++ UInt8.ofNat message.password.length :: message.password)

lemma AuthMessage.length_bytes (message : AuthMessage) :
    message.bytes.length = 3 + message.username.length + message.password.length := by
  simp only [AuthMessage.bytes, List.length_cons, List.length_append]
  omega

lemma parseCredentials_part {message : AuthMessage} {part : Bytes}
    (h : part <+: message.bytes) (buffer : Bytes) :
    parseCredentials part.length (overwrite buffer part) =
      if part = message.bytes then
        some (cstr message.username, cstr message.password)
      else none := by
  have hlen := message.length_bytes
  simp only [eq_iff_length_le h]
  rw [parseCredentials]
  by_cases h3 : part.length < 3
  · rw [if_pos h3, if_neg (by omega)]
  have h0 : (overwrite buffer part).getD 0 0 = 1 := getD_overwrite_part h buffer (by omega)
  have h1 : ((overwrite buffer part).getD 1 0).toNat = message.username.length := by
    rw [getD_overwrite_part h buffer (by omega)]
    exact toNat_length message.username_le
  rw [if_neg h3, if_neg (not_not.mpr h0), h1]
  dsimp only
  by_cases hu : part.length < 2 + message.username.length + 1
  · rw [if_pos hu, if_neg (by omega)]
  have hp : ((overwrite buffer part).getD (2 + message.username.length) 0).toNat =
      message.password.length := by
    rw [getD_overwrite_part h buffer (by omega), ← toNat_length message.password_le]
    simp [AuthMessage.bytes, Nat.add_comm 2]
  rw [if_neg hu, hp]
  by_cases hn : part.length < 2 + message.username.length + 1 + message.password.length
  · rw [if_pos hn, if_neg (by omega)]
  · rw [if_neg hn, if_pos (by omega), slice_overwrite_part h buffer (by omega),
      slice_overwrite_part h buffer (by omega)]
    simp [AuthMessage.bytes, Nat.add_comm 2, Nat.add_right_comm]

/-! ### The request -/

/-- The destination of a request. -/
inductive Address where
  | ipv4 (a b c d : UInt8)
  | domain (name : Bytes) (length_le : name.length ≤ 255)
  | ipv6 (address : Bytes) (length_eq : address.length = 16)

namespace Address

/-- The type of the address and the address. -/
def bytes : Address → Bytes
  | .ipv4 a b c d => [1, a, b, c, d]
  | .domain name _ => 3 :: UInt8.ofNat name.length :: name
  | .ipv6 address _ => 4 :: address

/-- The host that the handler connects to; it does not support IPv6. -/
def host : Address → Option Bytes
  | .ipv4 a b c d => some (dottedDecimal a b c d)
  | .domain name _ => some (cstr name)
  | .ipv6 _ _ => none

end Address

/-- A request to connect. -/
structure ConnectRequest where
  address : Address
  high : UInt8
  low : UInt8

namespace ConnectRequest

def bytes (request : ConnectRequest) : Bytes :=
  5 :: 1 :: 0 :: (request.address.bytes ++ [request.high, request.low])

def port (request : ConnectRequest) : ℤ := portOf request.high request.low

lemma length_bytes_le (request : ConnectRequest) : request.bytes.length ≤ 262 := by
  obtain ⟨address, high, low⟩ := request
  cases address with
  | ipv4 a b c d => exact Nat.le_add_left 10 252
  | domain name length_le =>
      simp only [bytes, Address.bytes, List.length_cons, List.length_append, List.length_nil]
      omega
  | ipv6 address length_eq =>
      simp only [bytes, Address.bytes, List.length_cons, List.length_append, List.length_nil]
      omega

end ConnectRequest

/-- **A request with a supported address** is read when all of it was received. -/
lemma parseRequest_supported {request : ConnectRequest} {host : Bytes}
    (hhost : request.address.host = some host) {extra part : Bytes}
    (h : part <+: request.bytes ++ extra) (buffer : Bytes) :
    parseRequest part.length (overwrite buffer part) =
      if request.bytes.length ≤ part.length then .command 1 host request.port else .invalid := by
  obtain ⟨address, high, low⟩ := request
  have hpart : ∀ i, i < part.length → (overwrite buffer part).getD i 0 =
      (ConnectRequest.bytes ⟨address, high, low⟩ ++ extra).getD i 0 := fun i hi =>
    getD_overwrite_part h buffer hi
  -- each byte that the handler reads was received and is that of the request
  rw [parseRequest]
  by_cases h4 : part.length < 4
  · have hlong : ¬(ConnectRequest.bytes ⟨address, high, low⟩).length ≤ part.length := by
      simp only [ConnectRequest.bytes, List.length_cons, List.length_append, List.length_nil]
      omega
    rw [if_pos h4, if_neg hlong]
  have h0 : (overwrite buffer part).getD 0 0 = 5 := hpart 0 (by omega)
  rw [if_neg h4, if_neg (not_not.mpr h0)]
  cases address with
  | ipv4 a b c d =>
      obtain rfl := Option.some.inj hhost
      have hlen : (ConnectRequest.bytes ⟨.ipv4 a b c d, high, low⟩).length = 10 := rfl
      have h3 : (overwrite buffer part).getD 3 0 = 1 := hpart 3 (by omega)
      rw [if_pos h3, hlen]
      by_cases h10 : part.length < 10
      · rw [if_pos h10, if_neg (by omega)]
      · rw [if_neg h10, if_pos (by omega), hpart 1 (by omega), hpart 4 (by omega),
          hpart 5 (by omega), hpart 6 (by omega), hpart 7 (by omega), hpart 8 (by omega),
          hpart 9 (by omega)]
        rfl
  | domain name length_le =>
      obtain rfl := Option.some.inj hhost
      have hlen : (ConnectRequest.bytes ⟨.domain name length_le, high, low⟩).length =
          7 + name.length := by
        simp only [ConnectRequest.bytes, Address.bytes, List.length_cons, List.length_append,
          List.length_nil]
        omega
      have h3 : (overwrite buffer part).getD 3 0 = 3 := hpart 3 (by omega)
      rw [if_neg (by rw [h3]; decide), if_pos h3, hlen]
      by_cases h7 : part.length < 7
      · -- the length of the name may not have been received yet
        rw [if_pos (by omega), if_neg (by omega)]
      have hname : ((overwrite buffer part).getD 4 0).toNat = name.length := by
        rw [hpart 4 (by omega)]
        exact toNat_length length_le
      rw [hname]
      by_cases hn : part.length < 5 + name.length + 2
      · rw [if_pos hn, if_neg (by omega)]
      · rw [if_neg hn, if_pos (by omega), hpart 1 (by omega), hpart (5 + name.length) (by omega),
          hpart (5 + name.length + 1) (by omega), slice_overwrite_part h buffer (by omega)]
        simp [ConnectRequest.bytes, Address.bytes, Nat.add_comm 5, Nat.add_right_comm _ 5 1,
          ConnectRequest.port]
  | ipv6 address length_eq => simp [Address.host] at hhost

/-- **A request with an IPv6 address** is refused when its fourth byte was received. -/
lemma parseRequest_ipv6 {request : ConnectRequest} (hhost : request.address.host = none)
    {extra part : Bytes} (h : part <+: request.bytes ++ extra) (buffer : Bytes) :
    parseRequest part.length (overwrite buffer part) =
      if 4 ≤ part.length then .badAddressType else .invalid := by
  obtain ⟨address, high, low⟩ := request
  rw [parseRequest]
  by_cases h4 : part.length < 4
  · rw [if_pos h4, if_neg (by omega)]
  have h0 : (overwrite buffer part).getD 0 0 = 5 := getD_overwrite_part h buffer (by omega)
  rw [if_neg h4, if_neg (not_not.mpr h0), if_pos (not_lt.mp h4)]
  cases address with
  | ipv4 a b c d => simp [Address.host] at hhost
  | domain name length_le => simp [Address.host] at hhost
  | ipv6 address length_eq =>
      have h3 : (overwrite buffer part).getD 3 0 = 4 := getD_overwrite_part h buffer (by omega)
      rw [if_neg (by rw [h3]; decide), if_neg (by rw [h3]; decide)]

end ProxyMax
