import Mathlib.Data.Int.Bitwise
import ProxyMax.Http.Ports
import ProxyMax.Lib.Ownership
import ProxyMax.Server.Connection

/-!
The descriptors, the memory and the threads of the server, and the system calls on them.

* `SysCall`, `Answer`: the system calls, and the calls of the shared components.
* `kernelAnswers`: what is relied on of the answers.
* `ledger`: what a call gains, gives back and needs, of the descriptors, of the threads, and of
  the blocks of the connections and the pool. The blocks of the handlers are not in it.
* `taken`, `dropped`: the ledger without the connections that are left in the queue, and these.
* `createServerSocket`, `connectToHost`, `setNonblocking`: `src/utils/network.c`.
-/

namespace ProxyMax.Resources

open CString Interaction Ownership

/-- What has to be given back. Pointers and threads are numbers. -/
inductive Resource where
  | fd (fd : ℤ)
  | block (p : ℕ)
  | thread (t : ℕ)
deriving DecidableEq

/-- What memory is allocated for. -/
inductive Block where
  | connection
  | workItem
  | threadPool
  | threads (n : ℤ)

/-- A `connection_t` in memory. -/
structure ConnectionRecord where
  ptr : ℕ
  clientFd : ℤ
  conn : Connection

/-- A system call, or a call of a shared component. -/
inductive SysCall where
  | socket
  | setsockopt (fd : ℤ)
  | inetPton (addr : Bytes)
  | bind (fd : ℤ) (address : Bytes) (port : ℤ)
  | listen (fd : ℤ) (backlog : ℕ)
  | gethostbyname (host : Bytes)
  | connect (fd : ℤ) (address : Bytes) (port : ℤ)
  | accept (fd : ℤ)
  | getpeername (fd : ℤ)
  | getsockname (fd : ℤ)
  | recv (fd : ℤ) (size : ℕ)
  | send (fd : ℤ) (bytes : Bytes)
  | select (client remote : ℤ) (seconds : ℕ)
  | close (fd : ℤ)
  | malloc (block : Block)
  | free (p : ℕ)
  | component (c : Command)
  | statsIncrementConnections
  /-- The counters are in the message of a connection that completed. -/
  | loggerLog (level : ℤ) (clientIp : Bytes) (counters : Option (ℕ × ℕ))
  | epollCreate1
  | epollAdd (epollFd fd : ℤ)
  | epollWait (epollFd : ℤ)
  | fcntlGetfl (fd : ℤ)
  | fcntlSetfl (fd flags : ℤ)
  | running
  | pthreadCreate
  | pthreadCreateDetached (conn : ConnectionRecord)
  | pthreadJoin (t : ℕ)
  /-- The item is added to the queue, under its mutex, where a worker may take it. -/
  | enqueue (item : ℕ) (conn : ConnectionRecord)
  /-- The pool is told to shut down, under the mutex of its queue. -/
  | shutdown
  /-- The items in the queue after the workers are gone, with their connections. -/
  | remaining
  /-- What the arrays of the handlers hold at first. -/
  | locals
  | statsPrint

/-- What `epoll_wait` gives: the descriptors of its events, or an error, which is either `EINTR`
or another one. -/
inductive Waited where
  | events (fds : List ℤ)
  | interrupted
  | failed

/-- What a call returns: a null pointer is `none`. -/
abbrev Answer : SysCall → Type
  | .socket => ℤ
  | .setsockopt _ => ℤ
  | .inetPton _ => Option Bytes
  | .bind _ _ _ => ℤ
  | .listen _ _ => ℤ
  | .gethostbyname _ => Option Bytes
  | .connect _ _ _ => ℤ
  | .accept _ => ℤ
  | .getpeername _ => Bytes
  | .getsockname _ => { address : Bytes // address.length = 6 }
  | .recv _ size => Received size
  | .send _ bytes => Sent bytes
  | .select _ _ _ => Selected
  | .malloc _ => Option ℕ
  | .component c => Reply c
  | .epollCreate1 => ℤ
  | .epollAdd _ _ => ℤ
  | .epollWait _ => Waited
  | .fcntlGetfl _ => ℤ
  | .fcntlSetfl _ _ => ℤ
  | .running => Bool
  | .pthreadCreate => Option ℕ
  | .pthreadCreateDetached _ => Bool
  | .remaining => List (ℕ × ConnectionRecord)
  | .locals => Locals
  | _ => Unit

/-- A program at the level of system calls. -/
abbrev System := Prog SysCall Answer Fault

/-- The call `c` alone. -/
abbrev call (c : SysCall) : System (Answer c) := ask c

/-- What is relied on: standard input is open, and there are no options on descriptors that
are none. -/
def kernelAnswers (_ : List (Event Answer)) : (c : SysCall) → Answer c → Prop
  | .socket, fd => fd ≠ 0
  | .setsockopt fd, ret => fd < 0 → ret ≠ 0
  | _, _ => True

/-! ### The ledger -/

/-- A descriptor, where it is one. -/
def descriptor (fd : ℤ) : Multiset Resource := if 0 ≤ fd then {.fd fd} else 0

/-- A block, where the pointer is not null. -/
def pointer (p : Option ℕ) : Multiset Resource := p.elim 0 fun p => {.block p}

/-- What a connection keeps: its record and its descriptors. -/
def ConnectionRecord.owns (r : ConnectionRecord) : Multiset Resource :=
  {.block r.ptr} + descriptor r.clientFd + descriptor r.conn.remoteFd

/-- What a call gains. An item that is left in the queue comes back, and what is `queued` of its
connection. -/
def gains (queued : ConnectionRecord → Multiset Resource) :
    (c : SysCall) → Answer c → Multiset Resource
  | .socket, fd => descriptor fd
  | .accept _, fd => descriptor fd
  | .epollCreate1, fd => descriptor fd
  | .malloc _, p => pointer p
  | .pthreadCreate, t => t.elim 0 fun t => {.thread t}
  | .remaining, items =>
      ((items.map Prod.fst).map Resource.block : List Resource) +
        (items.map fun item => queued item.2).sum
  | _, _ => 0

/-- What a call needs. The calls on descriptors that may be none are those of `close` and
`setsockopt`. -/
def needs : SysCall → Multiset Resource
  | .setsockopt fd => descriptor fd
  | .bind fd _ _ => {.fd fd}
  | .listen fd _ => {.fd fd}
  | .connect fd _ _ => {.fd fd}
  | .accept fd => {.fd fd}
  | .getpeername fd => {.fd fd}
  | .getsockname fd => {.fd fd}
  | .recv fd _ => {.fd fd}
  | .send fd _ => {.fd fd}
  | .select client remote _ => {.fd remote} + {.fd client}
  | .close fd => descriptor fd
  | .free p => {.block p}
  | .epollAdd epollFd fd => {.fd epollFd} + {.fd fd}
  | .epollWait epollFd => {.fd epollFd}
  | .fcntlGetfl fd => {.fd fd}
  | .fcntlSetfl fd _ => {.fd fd}
  | .pthreadCreateDetached conn => conn.owns
  | .pthreadJoin t => {.thread t}
  | .enqueue item conn => {.block item} + conn.owns
  | _ => 0

/-- What a call gives back, or hands to another thread or to the queue. -/
def gives : (c : SysCall) → Answer c → Multiset Resource
  | .close fd, _ => descriptor fd
  | .free p, _ => {.block p}
  | .pthreadJoin t, _ => {.thread t}
  | .pthreadCreateDetached conn, created => if created then conn.owns else 0
  | .enqueue item conn, _ => {.block item} + conn.owns
  | _, _ => 0

lemma gives_le (c : SysCall) (r : Answer c) : gives c r ≤ needs c := by
  cases c with
  | close fd => exact le_rfl
  | free p => exact le_rfl
  | pthreadJoin t => exact le_rfl
  | enqueue item conn => exact le_rfl
  | pthreadCreateDetached conn =>
      simp only [gives]
      split
      · exact le_rfl
      · exact zero_le
  | _ => exact zero_le

/-- The ledger, for what is `queued` of a connection that is left in the queue. -/
def ledgerOf (queued : ConnectionRecord → Multiset Resource) : Discipline Answer Resource :=
  ⟨gains queued, gives, needs, gives_le⟩

/-- The ledger of descriptors, memory and threads: all that a connection has that is left in the
queue comes back with it. -/
def ledger : Discipline Answer Resource := ledgerOf ConnectionRecord.owns

/-- The part of it that the main thread takes up: `thread_pool_destroy` looks at the items of the
queue, not at the connections in them. -/
def taken : Discipline Answer Resource := ledgerOf fun _ => 0

/-- What the connections have that a call finds in the queue. -/
def droppedBy : (c : SysCall) → Answer c → Multiset Resource
  | .remaining, items => (items.map fun item => item.2.owns).sum
  | _, _ => 0

/-- What the connections have that were left in the queue. -/
def dropped (tr : List (Event Answer)) : Multiset Resource := besides droppedBy tr

lemma taken_remaining (items : List (ℕ × ConnectionRecord)) :
    taken.gains .remaining items = ((items.map Prod.fst).map Resource.block : List Resource) := by
  change _ + (items.map fun _ => (0 : Multiset Resource)).sum = _
  simp

/-- The ledger is what the main thread takes up, and the connections that it drops. -/
lemma ledger_extends : ledger.Extends taken droppedBy where
  gains c r := by
    cases c with
    | remaining =>
        rw [taken_remaining]
        rfl
    | _ => exact (add_zero _).symm
  gives _ _ := rfl
  needs _ := rfl

lemma descriptor_of_nonneg {fd : ℤ} (h : 0 ≤ fd) : descriptor fd = {.fd fd} := if_pos h

lemma descriptor_of_neg {fd : ℤ} (h : fd < 0) : descriptor fd = 0 := if_neg (not_le.mpr h)

/-! ### `src/utils/network.c` -/

/-- `BACKLOG`. -/
def backlog : ℕ := 128

/-- The descriptor is closed, and -1 is returned. -/
def closeFailed (fd : ℤ) : System ℤ := do
  let _ ← call (.close fd)
  pure (-1)

/-- The address to listen on: `INADDR_ANY` is four zeros. -/
def listenAddress (addr : Bytes) : System (Option Bytes) :=
  if addr = ascii "0.0.0.0" then pure (some [0, 0, 0, 0]) else call (.inetPton addr)

/-- `create_server_socket`. -/
def createServerSocket (addr : Bytes) (port : ℤ) : System ℤ := do
  let serverFd ← call .socket
  if serverFd = 0 then pure (-1)
  else do
    let failed ← call (.setsockopt serverFd)
    if failed ≠ 0 then closeFailed serverFd
    else do
      match ← listenAddress addr with
      | none => closeFailed serverFd
      | some address => do
          let bound ← call (.bind serverFd address (htons port))
          if bound < 0 then closeFailed serverFd
          else do
            let listening ← call (.listen serverFd backlog)
            if listening < 0 then closeFailed serverFd else pure serverFd

/-- `connect_to_host`. -/
def connectToHost (host : Bytes) (port : ℤ) : System ℤ := do
  let sockfd ← call .socket
  if sockfd < 0 then pure (-1)
  else do
    match ← call (.gethostbyname host) with
    | none => closeFailed sockfd
    | some address => do
        let connected ← call (.connect sockfd address (htons port))
        if connected < 0 then closeFailed sockfd else pure sockfd

/-- `set_nonblocking`; 2048 is `O_NONBLOCK`. -/
def setNonblocking (fd : ℤ) : System ℤ := do
  let flags ← call (.fcntlGetfl fd)
  if flags = -1 then pure (-1) else call (.fcntlSetfl fd (Int.lor flags 2048))

section Network

variable {env : List (Event Answer) → (c : SysCall) → Answer c → Prop}
  {queued : ConnectionRecord → Multiset Resource}

lemma owns_closeFailed (fd : ℤ) :
    Owns (ledgerOf queued) env (closeFailed fd) (descriptor fd) descriptor := by
  simp only [closeFailed, bind_eq, pure_eq]
  rw [← zero_add (descriptor fd)]
  exact owns_release (c := SysCall.close fd) (fun _ => rfl) (fun _ => rfl) fun _ _ _ => owns_ret rfl

lemma owns_listenAddress (addr : Bytes) (P : Multiset Resource) :
    Owns (ledgerOf queued) env (listenAddress addr) P fun _ => P := by
  rw [listenAddress]
  split
  · exact owns_ret rfl
  · exact owns_use (f := .ret) zero_le (fun _ => rfl) (fun _ => rfl) fun _ _ _ => owns_ret rfl

/-- The socket that is returned is open, and no other. -/
lemma owns_createServerSocket (henv : ∀ h c r, env h c r → kernelAnswers h c r) (addr : Bytes)
    (port : ℤ) : Owns (ledgerOf queued) env (createServerSocket addr port) 0 descriptor := by
  simp only [createServerSocket, bind_eq, pure_eq]
  refine owns_acquire zero_le (fun _ => rfl) fun h fd hfd => ?_
  have hzero : fd ≠ 0 := henv _ _ _ hfd
  rw [if_neg hzero]
  change Owns (ledgerOf queued) env _ (0 + descriptor fd) _
  rw [zero_add]
  refine owns_use le_rfl (fun _ => rfl) (fun _ => rfl) fun h' failed hfailed => ?_
  split
  · exact owns_closeFailed fd
  · rename_i hok
    have hpos : 0 ≤ fd := not_lt.mp fun hneg => hok (henv _ _ _ hfailed hneg)
    have hfd' : ({.fd fd} : Multiset Resource) ≤ descriptor fd := (descriptor_of_nonneg hpos).ge
    refine owns_bind (owns_listenAddress addr _) fun address => ?_
    cases address with
    | none => exact owns_closeFailed fd
    | some address =>
        refine owns_use hfd' (fun _ => rfl) (fun _ => rfl) fun _ bound _ => ?_
        split
        · exact owns_closeFailed fd
        · refine owns_use hfd' (fun _ => rfl) (fun _ => rfl) fun _ listening _ => ?_
          split
          · exact owns_closeFailed fd
          · exact owns_ret rfl

/-- The socket that is returned is open, and no other. -/
lemma owns_connectToHost (host : Bytes) (port : ℤ) :
    Owns (ledgerOf queued) env (connectToHost host port) 0 descriptor := by
  simp only [connectToHost, bind_eq, pure_eq]
  refine owns_acquire zero_le (fun _ => rfl) fun h fd _ => ?_
  change Owns (ledgerOf queued) env _ (0 + descriptor fd) _
  rw [zero_add]
  split
  · rename_i hneg
    rw [descriptor_of_neg hneg]
    exact owns_ret rfl
  · rename_i hpos
    have hfd : ({.fd fd} : Multiset Resource) ≤ descriptor fd :=
      (descriptor_of_nonneg (not_lt.mp hpos)).ge
    refine owns_use zero_le (fun _ => rfl) (fun _ => rfl) fun _ server _ => ?_
    cases server with
    | none => exact owns_closeFailed fd
    | some address =>
        refine owns_use hfd (fun _ => rfl) (fun _ => rfl) fun _ connected _ => ?_
        split
        · exact owns_closeFailed fd
        · exact owns_ret rfl

lemma owns_setNonblocking {fd : ℤ} {P : Multiset Resource} (hfd : {.fd fd} ≤ P) :
    Owns (ledgerOf queued) env (setNonblocking fd) P fun _ => P := by
  simp only [setNonblocking, bind_eq, pure_eq]
  refine owns_use hfd (fun _ => rfl) (fun _ => rfl) fun _ flags _ => ?_
  split
  · exact owns_ret rfl
  · exact owns_use (f := .ret) hfd (fun _ => rfl) (fun _ => rfl) fun _ _ _ => owns_ret rfl

end Network

end ProxyMax.Resources
