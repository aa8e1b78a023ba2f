import ProxyMax.Server.Kernel
import ProxyMax.Server.RemoteSocket

/-!
The descriptors of a connection, and its record.

* `carryOut`: the calls of a handler as system calls on its two descriptors.
* `connectionCreate`, `connectionDestroy`: `src/core/connection.c`.
* `handleConnectionWorker`: the worker of `src/core/server.c`.
* `connection_resources`: in every run of a worker on a connection, every descriptor and the
  record of the connection are used while they are in hand, and given back once. The blocks that
  the handlers allocate for a response are not in the ledger.
-/

namespace ProxyMax.Resources

open CString Interaction Ownership

/-! ### The calls of a handler on its descriptors -/

/-- A call of a handler, with the descriptors of its connection. -/
def carryOut (clientFd remoteFd : ℤ) : (c : Command) → System (Reply c)
  | .recv .client size => call (.recv clientFd size)
  | .recv .remote size => call (.recv remoteFd size)
  | .send .client bytes => call (.send clientFd bytes)
  | .send .remote bytes => call (.send remoteFd bytes)
  | .select seconds => call (.select clientFd remoteFd seconds)
  | .connectToHost host port => connectToHost host port
  | .getsockname => call (.getsockname remoteFd)
  | c => call (.component c)

/-- `connection_handle`, with the descriptors of the connection. -/
def connectionHandle (config : HandlerConfig) (fuel : ℕ) (locals : Locals)
    (record : ConnectionRecord) : System (ℤ × ConnectionRecord) := do
  let (ret, conn) ← Prog.expand (carryOut record.clientFd) remoteAfter
    (ProxyMax.connectionHandle config fuel locals record.conn) record.conn.remoteFd
  pure (ret, { record with conn })

/-- `connection_create`: the text of the address is that of the peer. -/
def connectionCreate (clientFd : ℤ) : System (Option ConnectionRecord) := do
  match ← call (.malloc .connection) with
  | none => pure none
  | some ptr => do
      let clientIp ← call (.getpeername clientFd)
      let _ ← call .statsIncrementConnections
      pure (some ⟨ptr, clientFd, ProxyMax.connectionCreate clientIp⟩)

/-- A descriptor is closed, where it is one. -/
def closeOpen (fd : ℤ) : System Unit := if 0 ≤ fd then call (.close fd) else pure ()

/-- `connection_destroy`. -/
def connectionDestroy (record : ConnectionRecord) : System Unit := do
  closeOpen record.clientFd
  closeOpen record.conn.remoteFd
  call (.free record.ptr)

/-- `handle_connection_worker`. -/
def handleConnectionWorker (config : HandlerConfig) (enableLogging : ℤ) (fuel : ℕ)
    (record : ConnectionRecord) : System Unit := do
  let locals ← call .locals
  let (ret, record) ← connectionHandle config fuel locals record
  if enableLogging ≠ 0 then
    if ret < 0 then call (.loggerLog 2 record.conn.clientIp none)
    else call (.loggerLog 1 record.conn.clientIp
      (some (record.conn.bytesSent, record.conn.bytesReceived)))
  else pure ()
  connectionDestroy record

section Workers

variable {env : List (Event Answer) → (c : SysCall) → Answer c → Prop}
  {queued : ConnectionRecord → Multiset Resource}

/-- A call on a descriptor that is in hand. -/
lemma owns_carry {c : SysCall} {P : Multiset Resource} (hneeds : needs c ≤ P)
    (hgives : ∀ r, gives c r = 0) (hgains : ∀ r, gains queued c r = 0) :
    Owns (ledgerOf queued) env (call c) P fun _ => P :=
  owns_use (f := .ret) hneeds hgives hgains fun _ _ _ => owns_ret rfl

/-- **The calls of a handler**, with the client's descriptor and the remote one in hand. -/
lemma owns_carryOut {clientFd fd : ℤ} (hclient : 0 ≤ clientFd) (F : Multiset Resource)
    {c : Command} (hc : Permits fd c) :
    Owns (ledgerOf queued) env (carryOut clientFd fd c) (F + descriptor clientFd + descriptor fd)
      fun r => F + descriptor clientFd + descriptor (remoteAfter fd ⟨c, r⟩) := by
  have hclientFd : ({.fd clientFd} : Multiset Resource) ≤
      F + descriptor clientFd + descriptor fd := by
    rw [descriptor_of_nonneg hclient]
    exact (Multiset.le_add_left ..).trans (Multiset.le_add_right ..)
  have hremoteFd : 0 ≤ fd →
      ({.fd fd} : Multiset Resource) ≤ F + descriptor clientFd + descriptor fd := by
    intro hfd
    rw [descriptor_of_nonneg hfd]
    exact Multiset.le_add_left ..
  cases c with
  | recv peer size =>
      cases peer with
      | client => exact owns_carry hclientFd (fun _ => rfl) fun _ => rfl
      | remote => exact owns_carry (hremoteFd hc) (fun _ => rfl) fun _ => rfl
  | send peer bytes =>
      cases peer with
      | client => exact owns_carry hclientFd (fun _ => rfl) fun _ => rfl
      | remote => exact owns_carry (hremoteFd hc) (fun _ => rfl) fun _ => rfl
  | select seconds =>
      refine owns_carry ?_ (fun _ => rfl) fun _ => rfl
      change ({.fd fd} : Multiset Resource) + {.fd clientFd} ≤ _
      rw [descriptor_of_nonneg hclient, descriptor_of_nonneg hc, add_comm]
      exact add_le_add_left (Multiset.le_add_left ..) _
  | connectToHost host port =>
      rw [descriptor_of_neg hc]
      exact owns_frame (owns_connectToHost host port) _
  | getsockname => exact owns_carry (hremoteFd hc) (fun _ => rfl) fun _ => rfl
  | _ => exact owns_carry zero_le (fun _ => rfl) fun _ => rfl

/-- A connection keeps its own descriptors, and those of its new state. -/
lemma owns_connectionHandle (config : HandlerConfig) (fuel : ℕ) (locals : Locals)
    {record : ConnectionRecord} (hclient : 0 ≤ record.clientFd)
    (hremote : record.conn.remoteFd = -1) :
    Owns (ledgerOf queued) env (connectionHandle config fuel locals record) record.owns
      fun x => x.2.owns := by
  let S : ℤ → Multiset Resource := fun fd =>
    {.block record.ptr} + descriptor record.clientFd + descriptor fd
  have hcarry : ∀ h c, SocketGuard h c →
      Owns (ledgerOf queued) env (carryOut record.clientFd (remoteFd h) c)
        (S (remoteFd h)) fun r => S (remoteAfter (remoteFd h) ⟨c, r⟩) :=
    fun h c hc => owns_carryOut hclient _ hc
  have hlinked : Linked record.conn [] := hremote
  have hwp : wp Anything SocketGuard (ProxyMax.connectionHandle config fuel locals record.conn)
      (fun x h => S (remoteFd h) = ({ record with conn := x.2 } : ConnectionRecord).owns) [] := by
    refine wp_mono (wp_connectionHandle_linked config fuel locals hlinked (by omega)) ?_
    intro x h hl
    rw [← hl]
    rfl
  have hhandler : Owns (ledgerOf queued) env (Prog.expand (carryOut record.clientFd) remoteAfter
      (ProxyMax.connectionHandle config fuel locals record.conn) (-1))
      (S (-1)) fun x => ({ record with conn := x.2 } : ConnectionRecord).owns :=
    owns_expand (T := remoteFd) remoteFd_snoc hcarry hwp
  have hrecord : ∀ x : ℤ × Connection,
      Owns (ledgerOf queued) env
        (.ret (x.1, { record with conn := x.2 }) : System (ℤ × ConnectionRecord))
        ({ record with conn := x.2 } : ConnectionRecord).owns fun x => x.2.owns :=
    fun _ => owns_ret rfl
  rw [connectionHandle, ConnectionRecord.owns, hremote]
  exact owns_bind hhandler hrecord

/-- A descriptor that is open is closed, and there is nothing to do about another one. -/
lemma owns_closeOpen (P : Multiset Resource) (fd : ℤ) :
    Owns (ledgerOf queued) env (closeOpen fd) (P + descriptor fd) fun _ => P := by
  rw [closeOpen]
  split
  · exact owns_release (c := SysCall.close fd) (f := .ret) (fun _ => rfl) (fun _ => rfl)
      fun _ _ _ => owns_ret rfl
  · rename_i hneg
    rw [descriptor_of_neg (not_le.mp hneg), add_zero]
    exact owns_ret rfl

/-- All that a connection has is given back. -/
lemma owns_connectionDestroy (record : ConnectionRecord) :
    Owns (ledgerOf queued) env (connectionDestroy record) record.owns fun _ => 0 := by
  simp only [connectionDestroy, bind_eq]
  rw [ConnectionRecord.owns, add_right_comm]
  refine owns_bind (owns_closeOpen _ _) fun _ => ?_
  refine owns_bind (owns_closeOpen _ _) fun _ => ?_
  rw [← zero_add {Resource.block record.ptr}]
  exact owns_release (c := SysCall.free record.ptr) (f := .ret) (fun _ => rfl) (fun _ => rfl)
    fun _ _ _ => owns_ret rfl

/-- A worker gives back all that its connection has. -/
lemma owns_handleConnectionWorker (config : HandlerConfig) (enableLogging : ℤ) (fuel : ℕ)
    {record : ConnectionRecord} (hclient : 0 ≤ record.clientFd)
    (hremote : record.conn.remoteFd = -1) :
    Owns (ledgerOf queued) env (handleConnectionWorker config enableLogging fuel record) record.owns
      fun _ => 0 := by
  simp only [handleConnectionWorker, bind_eq]
  refine owns_use zero_le (fun _ => rfl) (fun _ => rfl) fun _ locals _ => ?_
  refine owns_bind (owns_connectionHandle config fuel locals hclient hremote) fun x => ?_
  have hlog : ∀ c : SysCall, needs c = 0 → (∀ r, gives c r = 0) → (∀ r, gains queued c r = 0) →
      Owns (ledgerOf queued) env ((call c).bind fun _ => connectionDestroy x.2) x.2.owns
        fun _ => 0 :=
    fun c hneeds hgives hgains => owns_use (hneeds.le.trans zero_le) hgives hgains
      fun _ _ _ => owns_connectionDestroy x.2
  split
  · split
    · exact hlog (.loggerLog 2 _ none) rfl (fun _ => rfl) fun _ => rfl
    · exact hlog (.loggerLog 1 _ (some _)) rfl (fun _ => rfl) fun _ => rfl
  · exact owns_connectionDestroy x.2

/-- A connection that is created has its own block and the client's descriptor. -/
lemma owns_connectionCreate {clientFd : ℤ} (hclient : 0 ≤ clientFd) :
    Owns (ledgerOf queued) env (connectionCreate clientFd) (descriptor clientFd)
      fun created => created.elim (descriptor clientFd) ConnectionRecord.owns := by
  simp only [connectionCreate, bind_eq, pure_eq]
  refine owns_acquire zero_le (fun _ => rfl) fun _ p _ => ?_
  cases p with
  | none => exact owns_ret (add_zero _)
  | some ptr =>
      have hneeds : ({.fd clientFd} : Multiset Resource) ≤ descriptor clientFd + {.block ptr} := by
        rw [descriptor_of_nonneg hclient]
        exact Multiset.le_add_right ..
      refine owns_use hneeds (fun _ => rfl) (fun _ => rfl) fun _ clientIp _ => ?_
      refine owns_use zero_le (fun _ => rfl) (fun _ => rfl) fun _ _ _ => owns_ret ?_
      change _ = {.block ptr} + descriptor clientFd + 0
      rw [add_zero, add_comm]
      rfl

/-- The record is that of a client, and not connected to a server. -/
lemma returns_connectionCreate (clientFd : ℤ) :
    Returns (fun created => ∀ record ∈ created,
      record.clientFd = clientFd ∧ record.conn.remoteFd = -1) (connectionCreate clientFd) := by
  intro p
  cases p with
  | none => exact fun _ h => by simp at h
  | some ptr =>
      intro clientIp u record hrecord
      obtain rfl := Option.mem_some_iff.mp hrecord
      exact ⟨rfl, rfl⟩

end Workers

/-- Any answers. -/
def anyAnswer (_ : List (Event Answer)) (c : SysCall) (_ : Answer c) : Prop := True

/-- What `connection_create` makes for a client. -/
def created (ptr : ℕ) (clientFd : ℤ) (clientIp : Bytes) : ConnectionRecord :=
  ⟨ptr, clientFd, ProxyMax.connectionCreate clientIp⟩

/-- **The descriptors of a connection.** In every run of a worker on a connection, in all modes
and whatever the system calls answer, each call on a descriptor, and the one that frees the record,
needs only what is in hand: what the connection came with, or what was opened for it and not closed.
When the worker returns, its record and all these descriptors were given back, once. -/
theorem connection_resources (config : HandlerConfig) (enableLogging : ℤ) (fuel ptr : ℕ)
    (clientFd : ℤ) (hclient : 0 ≤ clientFd) (clientIp : Bytes)
    (tr : List (Event Answer)) (out : Outcome Fault Unit)
    (hrun : Runs anyAnswer [] (handleConnectionWorker config enableLogging fuel
      (created ptr clientFd clientIp)) tr out) :
    (∀ pre c r post, tr = pre ++ ⟨c, r⟩ :: post →
      needs c ≤ ledger.held (created ptr clientFd clientIp).owns pre) ∧
      (out = .returned () → ledger.held (created ptr clientFd clientIp).owns tr = 0 ∧
        ledger.given tr = {.block ptr} + {.fd clientFd} + ledger.gained tr) := by
  have howner : Owns ledger anyAnswer (handleConnectionWorker config enableLogging fuel
      (created ptr clientFd clientIp)) (created ptr clientFd clientIp).owns fun _ => 0 :=
    owns_handleConnectionWorker config enableLogging fuel hclient rfl
  obtain ⟨hsound, hbalance, hres⟩ := owns_sound howner hrun
  refine ⟨hsound, fun hout => ?_⟩
  have hheld := hres () hout
  refine ⟨hheld, ?_⟩
  have howns : (created ptr clientFd clientIp).owns = {.block ptr} + {.fd clientFd} := by
    change {.block ptr} + descriptor clientFd + 0 = _
    rw [add_zero, descriptor_of_nonneg hclient]
  calc ledger.given tr = ledger.given tr + 0 := (add_zero _).symm
    _ = ledger.given tr + ledger.held (created ptr clientFd clientIp).owns tr := by rw [hheld]
    _ = (created ptr clientFd clientIp).owns + ledger.gained tr := hbalance.symm
    _ = {.block ptr} + {.fd clientFd} + ledger.gained tr := by rw [howns]

/-- A server that accepts a connection and says nothing. -/
def quietAnswer (_ : List (Event Answer)) : (c : SysCall) → Answer c
  | .socket => (5 : ℤ)
  | .setsockopt fd => if fd < 0 then (-1 : ℤ) else 0
  | .inetPton _ => none
  | .bind _ _ _ => (0 : ℤ)
  | .listen _ _ => (0 : ℤ)
  | .gethostbyname _ => some [127, 0, 0, 1]
  | .connect _ _ _ => (0 : ℤ)
  | .accept _ => (-1 : ℤ)
  | .getpeername _ => []
  | .getsockname _ => ⟨List.replicate 6 0, length_noAddress⟩
  | .recv _ _ => .closed
  | .send _ _ => .failed
  | .select _ _ _ => .idle
  | .malloc _ => none
  | .component c => silence [] c
  | .epollCreate1 => (-1 : ℤ)
  | .epollAdd _ _ => (-1 : ℤ)
  | .epollWait _ => .failed
  | .fcntlGetfl _ => (0 : ℤ)
  | .running => false
  | .pthreadCreate => none
  | .pthreadCreateDetached _ => false
  | .remaining => []
  | .locals => ⟨[], [], []⟩
  | .statsPrint => ()
  | .close _ => ()
  | .free _ => ()
  | .statsIncrementConnections => ()
  | .loggerLog _ _ _ => ()
  | .fcntlSetfl _ _ => (0 : ℤ)
  | .pthreadJoin _ => ()
  | .enqueue _ _ => ()
  | .shutdown => ()

/-- A connection that is relayed to the backend, which is opened for it. -/
def quietRun : List (Event Answer) × Outcome Fault Unit :=
  play quietAnswer [] (handleConnectionWorker relayingConfig 1 2 (created 9 4 []))

theorem connection_resources_quietRun :
    ledger.gained quietRun.1 = {.fd 5} ∧
      ledger.given quietRun.1 = {.block 9} + {.fd 4} + ledger.gained quietRun.1 :=
  ⟨rfl, ((connection_resources relayingConfig 1 2 9 4 (by decide) [] quietRun.1
    quietRun.2 (play_runs (fun _ _ => trivial) _ _)).2 rfl).2⟩

end ProxyMax.Resources
