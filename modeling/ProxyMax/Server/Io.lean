import ProxyMax.Lib.CString
import ProxyMax.Lib.Interaction

/-!
What the handlers of a connection do to the outside: sockets, the memory
allocator and the shared components of the server.

* `Command`, `Reply`: the calls of a handler and what they return.
* `sendAll`: `send_all` of `src/utils/network.c`.
* `relay`, `tunnel`: one direction of a relay and the relay loop, which the
  source writes out three times.
-/

namespace ProxyMax

open CString Interaction

/-- The two sockets of a connection. -/
inductive Peer where
  | client
  | remote
deriving DecidableEq, Repr

/-- A call of a handler. The sockets of the connection stand for their
descriptors. -/
inductive Command where
  | recv (peer : Peer) (size : ℕ)
  | send (peer : Peer) (bytes : Bytes)
  | select (seconds : ℕ)
  | connectToHost (host : Bytes) (port : ℤ)
  | getsockname
  | malloc (size : ℕ)
  | realloc (size : ℕ)
  | authVerify (username password : Bytes)
  | filterCheckUrl (url : Bytes)
  | filterCheckIp (ip : Bytes)
  | cacheGet (key : Bytes)
  | cachePut (key data : Bytes) (ttl : ℤ)
  | statsIncrementRequests
  | statsAddBytesTransferred (bytes : ℕ)
deriving DecidableEq

/-- What `recv` gives: up to `size` bytes, the end of the stream, or an error. -/
inductive Received (size : ℕ) where
  | data (bytes : Bytes) (pos : 0 < bytes.length) (le : bytes.length ≤ size)
  | closed
  | error
deriving DecidableEq

/-- What `send` gives: the number of bytes accepted, or an error, which is either
`EAGAIN` or another one. -/
inductive Sent (bytes : Bytes) where
  | sent (n : ℕ) (pos : 0 < n) (le : n ≤ bytes.length)
  | again
  | failed
deriving DecidableEq

/-- What `select` gives: the sockets that can be read, or no activity. -/
inductive Selected where
  | ready (client remote : Bool) (some_ready : client || remote)
  | idle
deriving DecidableEq

/-- What a call returns. -/
abbrev Reply : Command → Type
  | .recv _ size => Received size
  | .send _ bytes => Sent bytes
  | .select _ => Selected
  | .connectToHost _ _ => ℤ
  | .getsockname => { address : Bytes // address.length = 6 }
  | .malloc _ => Bool
  | .realloc _ => Bool
  | .authVerify _ _ => ℤ
  | .filterCheckUrl _ => ℤ
  | .filterCheckIp _ => ℤ
  | .cacheGet _ => Option Bytes
  | .cachePut _ _ _ => ℤ
  | .statsIncrementRequests => Unit
  | .statsAddBytesTransferred _ => Unit

instance : (c : Command) → DecidableEq (Reply c)
  | .recv _ size => inferInstanceAs (DecidableEq (Received size))
  | .send _ bytes => inferInstanceAs (DecidableEq (Sent bytes))
  | .select _ => inferInstanceAs (DecidableEq Selected)
  | .connectToHost _ _ => inferInstanceAs (DecidableEq ℤ)
  | .getsockname => inferInstanceAs (DecidableEq { address : Bytes // address.length = 6 })
  | .malloc _ => inferInstanceAs (DecidableEq Bool)
  | .realloc _ => inferInstanceAs (DecidableEq Bool)
  | .authVerify _ _ => inferInstanceAs (DecidableEq ℤ)
  | .filterCheckUrl _ => inferInstanceAs (DecidableEq ℤ)
  | .filterCheckIp _ => inferInstanceAs (DecidableEq ℤ)
  | .cacheGet _ => inferInstanceAs (DecidableEq (Option Bytes))
  | .cachePut _ _ _ => inferInstanceAs (DecidableEq ℤ)
  | .statsIncrementRequests => inferInstanceAs (DecidableEq Unit)
  | .statsAddBytesTransferred _ => inferInstanceAs (DecidableEq Unit)

/-- Why a handler stops without returning: it writes past the end of one of its
arrays, or a loop goes on for longer than it is followed. -/
inductive Fault where
  | overrun
  | outOfFuel
deriving DecidableEq, Repr

/-- A handler. -/
abbrev Handler := Prog Command Reply Fault

/-- The trace of a handler. -/
abbrev Trace := List (Event Reply)

/-! ### The calls -/

def recv (peer : Peer) (size : ℕ) : Handler (Received size) := ask (Command.recv peer size)

def send (peer : Peer) (bytes : Bytes) : Handler (Sent bytes) := ask (Command.send peer bytes)

def select (seconds : ℕ) : Handler Selected := ask (Command.select seconds)

def connectToHost (host : Bytes) (port : ℤ) : Handler ℤ := ask (Command.connectToHost host port)

def getsockname : Handler { address : Bytes // address.length = 6 } := ask Command.getsockname

def malloc (size : ℕ) : Handler Bool := ask (Command.malloc size)

def realloc (size : ℕ) : Handler Bool := ask (Command.realloc size)

def callAuthVerify (username password : Bytes) : Handler ℤ :=
  ask (Command.authVerify username password)

def callFilterCheckUrl (url : Bytes) : Handler ℤ := ask (Command.filterCheckUrl url)

def callFilterCheckIp (ip : Bytes) : Handler ℤ := ask (Command.filterCheckIp ip)

def callCacheGet (key : Bytes) : Handler (Option Bytes) := ask (Command.cacheGet key)

def callCachePut (key data : Bytes) (ttl : ℤ) : Handler ℤ := ask (Command.cachePut key data ttl)

def statsIncrementRequests : Handler Unit := ask Command.statsIncrementRequests

def statsAddBytesTransferred (bytes : ℕ) : Handler Unit :=
  ask (Command.statsAddBytesTransferred bytes)

/-! ### Sending and relaying -/

/-- `connection_t`, as far as the handlers use it. The counters are `size_t`. -/
structure Connection where
  clientIp : Bytes
  remoteFd : ℤ
  bytesSent : ℕ
  bytesReceived : ℕ
  authenticated : ℤ
deriving DecidableEq

/-- `send_all`, for at most `fuel` calls of `send`. -/
def sendAll (fuel : ℕ) (peer : Peer) (buffer : Bytes) : Handler ℤ :=
  Prog.loop Fault.outOfFuel
    (fun total =>
      if total < buffer.length then do
        match ← send peer (buffer.drop total) with
        | .sent n _ _ => pure (.inl (total + n))
        | .again => pure (.inl total)
        | .failed => pure (.inr (-1))
      else pure (.inr (total : ℤ)))
    fuel 0

/-- One chunk of a relay: what is received from one socket, into a buffer of
`size` bytes, is sent to the other. The result is the number of bytes, or `none`
where the loop is left. -/
def relay (fuel size : ℕ) (src dst : Peer) : Handler (Option ℕ) := do
  match ← recv src size with
  | .data bytes _ _ =>
      let ret ← sendAll fuel dst bytes
      if ret < 0 then pure none
      else do
        statsAddBytesTransferred bytes.length
        pure (some bytes.length)
  | .closed => pure none
  | .error => pure none

/-- The client's half of a round. -/
def relayFromClient (fuel size : ℕ) (ready : Bool) (conn : Connection) :
    Handler (Option Connection) :=
  if ready then do
    match ← relay fuel size .client .remote with
    | some n => pure (some { conn with bytesSent := addSize conn.bytesSent n })
    | none => pure none
  else pure (some conn)

/-- The remote server's half of a round. -/
def relayFromRemote (fuel size : ℕ) (ready : Bool) (conn : Connection) :
    Handler (Option Connection) :=
  if ready then do
    match ← relay fuel size .remote .client with
    | some n => pure (some { conn with bytesReceived := addSize conn.bytesReceived n })
    | none => pure none
  else pure (some conn)

/-- One round of the relay loop. The connection is given back as it was when the
loop is left. -/
def tunnelRound (fuel size seconds : ℕ) (conn : Connection) :
    Handler (Connection ⊕ Connection) := do
  match ← select seconds with
  | .idle => pure (.inr conn)
  | .ready client remote _ =>
      match ← relayFromClient fuel size client conn with
      | none => pure (.inr conn)
      | some conn =>
          match ← relayFromRemote fuel size remote conn with
          | none => pure (.inr conn)
          | some conn => pure (.inl conn)

/-- The relay loop, with its buffer of `size` bytes and the timeout of its
`select`. -/
def tunnel (fuel size seconds : ℕ) (conn : Connection) : Handler Connection :=
  Prog.loop Fault.outOfFuel (tunnelRound fuel size seconds) fuel conn

/-! ### The calls they make -/

/-- A `send` to the peer. -/
def Command.SendsTo (peer : Peer) (c : Command) : Prop := ∃ bytes, c = .send peer bytes

/-- A call of the relay loop. -/
def Command.Relays (c : Command) : Prop :=
  (∃ seconds, c = .select seconds) ∨ (∃ peer size, c = .recv peer size) ∨
    (∃ peer, c.SendsTo peer) ∨ ∃ n, c = .statsAddBytesTransferred n

lemma only_sendAll (fuel : ℕ) (peer : Peer) (buffer : Bytes) :
    Only (Command.SendsTo peer) (sendAll fuel peer buffer) := by
  refine only_loop (fun total => ?_) fuel 0
  split
  · refine only_bind (only_ask ⟨_, rfl⟩) ?_
    intro r
    cases r <;> trivial
  · trivial

lemma only_relay (fuel size : ℕ) (src dst : Peer) :
    Only Command.Relays (relay fuel size src dst) := by
  refine only_bind (only_ask (.inr (.inl ⟨src, size, rfl⟩))) ?_
  intro r
  cases r with
  | data bytes pos le =>
      refine only_bind (only_mono (only_sendAll fuel dst bytes) fun c hc => ?_) fun ret => ?_
      · exact .inr (.inr (.inl ⟨dst, hc⟩))
      · split
        · trivial
        · exact only_bind (only_ask (.inr (.inr (.inr ⟨_, rfl⟩)))) fun _ => trivial
  | closed => trivial
  | error => trivial

lemma only_relayFromClient (fuel size : ℕ) (ready : Bool) (conn : Connection) :
    Only Command.Relays (relayFromClient fuel size ready conn) := by
  rw [relayFromClient]
  split
  · refine only_bind (only_relay fuel size .client .remote) ?_
    intro n
    cases n <;> trivial
  · trivial

lemma only_relayFromRemote (fuel size : ℕ) (ready : Bool) (conn : Connection) :
    Only Command.Relays (relayFromRemote fuel size ready conn) := by
  rw [relayFromRemote]
  split
  · refine only_bind (only_relay fuel size .remote .client) ?_
    intro n
    cases n <;> trivial
  · trivial

lemma only_tunnel (fuel size seconds : ℕ) (conn : Connection) :
    Only Command.Relays (tunnel fuel size seconds conn) := by
  refine only_loop (fun conn => ?_) fuel conn
  refine only_bind (only_ask (.inl ⟨seconds, rfl⟩)) ?_
  intro r
  cases r with
  | idle => trivial
  | ready client remote some_ready =>
      refine only_bind (only_relayFromClient fuel size client conn) ?_
      intro c
      cases c with
      | none => trivial
      | some conn =>
          refine only_bind (only_relayFromRemote fuel size remote conn) ?_
          intro c
          cases c <;> trivial

end ProxyMax
