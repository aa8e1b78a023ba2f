import ProxyMax.Filter.Lists
import ProxyMax.Socks5.Handler

/-!
`connection_handle` of `src/core/connection.c`, and the environment it runs in.

* `Locals`: what the local arrays of the handlers hold at first.
* `connectionHandle`: the handler of a connection in each mode.
* `Globals`, `answers`: the shared components that answer the calls of a handler
  as their own code does; the network, the allocator and the cache answer in any
  way.
* `NoHit`, `Command.Uncached`: the cache had no answer so far, and the calls that
  leave it so.
* `Script`: an environment in which a run can be computed.
-/

namespace ProxyMax

open CString Interaction

/-- What the arrays of the handlers hold before they are written. -/
structure Locals where
  host : Bytes
  handshake : Bytes
  request : Bytes

/-- The modes that relay to the backend. -/
def backendRelay (config : HandlerConfig) (fuel : ℕ) (conn : Connection) :
    Handler (ℤ × Connection) := do
  let remoteFd ← connectToHost config.backendHost config.backendPort
  let conn := { conn with remoteFd }
  if remoteFd < 0 then pure (-1, conn)
  else do
    let conn ← tunnel fuel bufferSize 30 conn
    pure (0, conn)

/-- The mode SOCKS5. -/
def socks5Handle (config : HandlerConfig) (fuel : ℕ) (locals : Locals) (conn : Connection) :
    Handler (ℤ × Connection) := do
  let (ret, conn) ← socks5HandleHandshake config fuel locals.handshake conn
  if ret = 0 then socks5HandleRequest fuel locals.request conn else pure (-1, conn)

/-- The handling of a connection that passed the address filter. -/
def modeHandle (config : HandlerConfig) (fuel : ℕ) (locals : Locals) (conn : Connection) :
    Handler (ℤ × Connection) :=
  match config.mode with
  | .http => httpHandleRequest config fuel locals.host conn
  | .https => httpHandleRequest config fuel locals.host conn
  | .socks5 => socks5Handle config fuel locals conn
  | .tcp => backendRelay config fuel conn
  | .reverse => backendRelay config fuel conn
  | .transparent => pure (-1, conn)

/-- `connection_handle`. -/
def connectionHandle (config : HandlerConfig) (fuel : ℕ) (locals : Locals) (conn : Connection) :
    Handler (ℤ × Connection) := do
  let blocked ← if config.enableFiltering ≠ 0 then callFilterCheckIp conn.clientIp else pure 0
  if blocked ≠ 0 then pure (-1, conn)
  else modeHandle config fuel locals conn

/-- The users and the access lists, which do not change while connections are
handled. -/
structure Globals where
  users : List AuthCredentials
  filters : Filters

/-- The answers that a call can get. -/
def answers (globals : Globals) (_ : Trace) : (c : Command) → Reply c → Prop
  | .authVerify username password, ret => ret = authVerify globals.users username password
  | .filterCheckUrl url, ret => ret = filterCheckUrl globals.filters url
  | .filterCheckIp ip, ret => ret = filterCheckIp globals.filters ip
  | _, _ => True

/-- The cache had no answer so far. -/
def NoHit (h : Trace) : Prop := ∀ key data, ⟨.cacheGet key, some data⟩ ∉ h

/-- A call of another component than the cache. -/
def Command.Uncached : Command → Prop
  | .cacheGet _ => False
  | .cachePut _ _ _ => False
  | _ => True

lemma Command.SendsTo.uncached {peer : Peer} {c : Command} (h : c.SendsTo peer) : c.Uncached := by
  obtain ⟨bytes, rfl⟩ := h
  trivial

lemma Command.Relays.uncached {c : Command} (h : c.Relays) : c.Uncached := by
  rcases h with ⟨seconds, rfl⟩ | ⟨peer, size, rfl⟩ | ⟨peer, h⟩ | ⟨n, rfl⟩
  · trivial
  · trivial
  · exact h.uncached
  · trivial

lemma NoHit.snoc {h : Trace} (hn : NoHit h) {c : Command} (hc : c.Uncached) (r : Reply c) :
    NoHit (h ++ [⟨c, r⟩]) := by
  intro key data hmem
  rcases List.mem_append.mp hmem with hmem | hmem
  · exact hn key data hmem
  · rw [List.mem_singleton, Sigma.mk.injEq] at hmem
    obtain ⟨rfl, -⟩ := hmem
    exact hc

/-! ### A scripted environment -/

/-- What the peers send, a chunk for each call of `recv`, and what the cache
holds. -/
structure Script where
  client : List Bytes
  remote : List Bytes
  cache : Bytes → Option Bytes

def Script.chunks (script : Script) : Peer → List Bytes
  | .client => script.client
  | .remote => script.remote

/-- The number of calls of `recv` on a socket. -/
def recvCount (peer : Peer) (h : Trace) : ℕ :=
  h.countP fun e =>
    match e.1 with
    | .recv p _ => p = peer
    | _ => false

/-- The peers send their chunks and then close, and everything else succeeds. -/
def Script.reply (globals : Globals) (script : Script) (h : Trace) : (c : Command) → Reply c
  | .recv peer size =>
      let bytes := (script.chunks peer).getD (recvCount peer h) []
      if hb : 0 < bytes.length ∧ bytes.length ≤ size then .data bytes hb.1 hb.2 else .closed
  | .send _ bytes => if hb : 0 < bytes.length then .sent bytes.length hb le_rfl else .failed
  | .select _ => .idle
  | .connectToHost _ _ => (4 : ℤ)
  | .getsockname => ⟨List.replicate 6 0, rfl⟩
  | .malloc _ => true
  | .realloc _ => true
  | .authVerify username password => authVerify globals.users username password
  | .filterCheckUrl url => filterCheckUrl globals.filters url
  | .filterCheckIp ip => filterCheckIp globals.filters ip
  | .cacheGet key => script.cache key
  | .cachePut _ _ _ => (0 : ℤ)
  | .statsIncrementRequests => ()
  | .statsAddBytesTransferred _ => ()

lemma Script.answers_reply (globals : Globals) (script : Script) (h : Trace) (c : Command) :
    answers globals h c (script.reply globals h c) := by
  cases c <;> first | rfl | trivial

/-- A call of a trace, among the calls it consists of. -/
lemma exists_event {tr : Trace} {cs ds : List Command} {c : Command}
    (h : tr.map Sigma.fst = cs ++ c :: ds) :
    ∃ (pre : Trace) (r : Reply c) (post : Trace), tr = pre ++ ⟨c, r⟩ :: post ∧
      pre.map Sigma.fst = cs := by
  obtain ⟨pre, rest, rfl, hpre, hrest⟩ := List.map_eq_append_iff.mp h
  obtain ⟨⟨c', r⟩, post, rfl, rfl, _⟩ := List.map_eq_cons_iff.mp hrest
  exact ⟨pre, r, post, rfl, hpre⟩

end ProxyMax
