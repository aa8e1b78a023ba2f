import ProxyMax.Lib.Rounds
import ProxyMax.Server.Io

/-!
The streams of bytes that a trace moves.

* `receivedFrom`, `acceptedBy`: the bytes a trace receives from a peer, and the
  bytes of its `send`s that a peer accepts.
* `SentTo dst bytes h h'`: between `h` and `h'` there are `send`s to `dst` only, and
  `bytes` is what they bring it.
* `wp_sendAll`, `ends_sendAll`: what `send_all` brings to the peer, with any
  outcomes of its `send`s and with good ones.
* `relayHalf`: the two halves of a round of the relay loop, as one.
* `fails_sendAll`, `fails_tunnel`: the loops fail only by going on for too long.
-/

namespace ProxyMax

open CString Interaction

/-- The other end of the connection. -/
def Peer.other : Peer → Peer
  | .client => .remote
  | .remote => .client

@[simp] lemma Peer.other_other (p : Peer) : p.other.other = p := by cases p <;> rfl

lemma Peer.other_ne (p : Peer) : p.other ≠ p := by cases p <;> simp [Peer.other]

/-- The bytes that an event receives from a peer. -/
def received (peer : Peer) : Event Reply → Bytes
  | ⟨.recv p _, .data bytes _ _⟩ => if p = peer then bytes else []
  | _ => []

/-- The bytes of an event that a peer accepts. -/
def accepted (peer : Peer) : Event Reply → Bytes
  | ⟨.send p bytes, .sent n _ _⟩ => if p = peer then bytes.take n else []
  | _ => []

/-- The bytes received from a peer. -/
def receivedFrom (peer : Peer) (h : Trace) : Bytes := h.flatMap (received peer)

/-- The bytes accepted by a peer. -/
def acceptedBy (peer : Peer) (h : Trace) : Bytes := h.flatMap (accepted peer)

@[simp] lemma receivedFrom_nil (peer : Peer) : receivedFrom peer [] = [] := rfl

@[simp] lemma acceptedBy_nil (peer : Peer) : acceptedBy peer [] = [] := rfl

lemma acceptedBy_append (peer : Peer) (h h' : Trace) :
    acceptedBy peer (h ++ h') = acceptedBy peer h ++ acceptedBy peer h' :=
  List.flatMap_append

lemma receivedFrom_snoc (peer : Peer) (h : Trace) (e : Event Reply) :
    receivedFrom peer (h ++ [e]) = receivedFrom peer h ++ received peer e := by
  simp [receivedFrom]

lemma acceptedBy_snoc (peer : Peer) (h : Trace) (e : Event Reply) :
    acceptedBy peer (h ++ [e]) = acceptedBy peer h ++ accepted peer e := by
  simp [acceptedBy]

lemma received_of_sendsTo {dst : Peer} {e : Event Reply} (he : e.1.SendsTo dst) (peer : Peer) :
    received peer e = [] := by
  obtain ⟨c, r⟩ := e
  obtain ⟨bytes, rfl⟩ := he
  rfl

lemma accepted_of_sendsTo {dst : Peer} {e : Event Reply} (he : e.1.SendsTo dst) {peer : Peer}
    (hne : peer ≠ dst) : accepted peer e = [] := by
  obtain ⟨c, r⟩ := e
  obtain ⟨bytes, rfl⟩ := he
  cases r <;> simp [accepted, hne.symm]

/-! ### Sending -/

/-- The number of bytes that a `send` accepts. -/
def Sent.count {bytes : Bytes} : Sent bytes → ℕ
  | .sent n _ _ => n
  | _ => 0

lemma Sent.count_le {bytes : Bytes} (r : Sent bytes) : r.count ≤ bytes.length := by
  cases r with
  | sent n pos le => exact le
  | again => exact Nat.zero_le _
  | failed => exact Nat.zero_le _

lemma accepted_send (dst : Peer) (bytes : Bytes) (r : Sent bytes) :
    accepted dst ⟨.send dst bytes, r⟩ = bytes.take r.count := by
  cases r with
  | sent n pos le => exact if_pos rfl
  | again => rfl
  | failed => rfl

/-- From `h` to `h'` there are only `send`s to `dst`, of which it accepts `bytes`. -/
def SentTo (dst : Peer) (bytes : Bytes) (h h' : Trace) : Prop :=
  ∃ tr, h' = h ++ tr ∧ (∀ e ∈ tr, e.1.SendsTo dst) ∧ acceptedBy dst tr = bytes

namespace SentTo

variable {dst : Peer} {bytes : Bytes} {h h' : Trace}

lemma refl (dst : Peer) (h : Trace) : SentTo dst [] h h :=
  ⟨[], (List.append_nil h).symm, by simp, rfl⟩

/-- What does not see a `send` sees nothing of it. -/
lemma flatMap_eq (hs : SentTo dst bytes h h') {α : Type} (f : Event Reply → List α)
    (hf : ∀ e : Event Reply, e.1.SendsTo dst → f e = []) : h'.flatMap f = h.flatMap f := by
  obtain ⟨tr, rfl, honly, -⟩ := hs
  rw [List.flatMap_append, List.flatMap_eq_nil_iff.mpr fun e he => hf e (honly e he),
    List.append_nil]

lemma receivedFrom_eq (hs : SentTo dst bytes h h') (peer : Peer) :
    receivedFrom peer h' = receivedFrom peer h :=
  hs.flatMap_eq _ fun _ he => received_of_sendsTo he peer

lemma acceptedBy_other (hs : SentTo dst bytes h h') {peer : Peer} (hne : peer ≠ dst) :
    acceptedBy peer h' = acceptedBy peer h :=
  hs.flatMap_eq _ fun _ he => accepted_of_sendsTo he hne

lemma acceptedBy_eq (hs : SentTo dst bytes h h') :
    acceptedBy dst h' = acceptedBy dst h ++ bytes := by
  obtain ⟨tr, rfl, -, rfl⟩ := hs
  exact acceptedBy_append dst h tr

/-- One more `send`. -/
lemma snoc (hs : SentTo dst bytes h h') (buffer : Bytes) (r : Reply (.send dst buffer)) :
    SentTo dst (bytes ++ accepted dst ⟨.send dst buffer, r⟩) h (h' ++ [⟨.send dst buffer, r⟩]) := by
  obtain ⟨tr, rfl, honly, rfl⟩ := hs
  refine ⟨tr ++ [⟨.send dst buffer, r⟩], List.append_assoc .., fun e he => ?_,
    acceptedBy_snoc ..⟩
  rcases List.mem_append.mp he with he | he
  · exact honly e he
  · rw [List.mem_singleton.mp he]
    exact ⟨buffer, rfl⟩

/-- A `send` of what is left of a buffer. -/
lemma more {buffer : Bytes} {k : ℕ} (hs : SentTo dst (buffer.take k) h h')
    (r : Sent (buffer.drop k)) :
    SentTo dst (buffer.take (k + r.count)) h (h' ++ [⟨.send dst (buffer.drop k), r⟩]) := by
  have hmore := hs.snoc (buffer.drop k) r
  rwa [accepted_send, ← List.take_add] at hmore

end SentTo

/-- **What `send_all` brings.** A part of the buffer from its start, and all of it just
when it reports no error. -/
lemma wp_sendAll {env : Trace → (c : Command) → Reply c → Prop} {G : Trace → Command → Prop}
    {dst : Peer} {buffer : Bytes} {h : Trace}
    (hG : ∀ k h', k ≤ buffer.length → SentTo dst (buffer.take k) h h' →
      G h' (.send dst (buffer.drop k))) (fuel : ℕ) :
    wp env G (sendAll fuel dst buffer) (fun ret h' => ∃ k, k ≤ buffer.length ∧
      (0 ≤ ret ↔ k = buffer.length) ∧ SentTo dst (buffer.take k) h h') h := by
  refine wp_loop (I := fun total h' => total ≤ buffer.length ∧
    SentTo dst (buffer.take total) h h') ?_ fuel ⟨Nat.zero_le _, SentTo.refl dst h⟩
  rintro total h' ⟨hle, hsent⟩
  split
  · simp only [send, bind_eq, pure_eq, wp_bind, wp_ask]
    refine ⟨hG total h' hle hsent, ?_⟩
    intro r _
    have hmore := hsent.more r
    have hcount := r.count_le
    rw [List.length_drop] at hcount
    cases r with
    | sent n pos le => exact ⟨by rw [Sent.count] at hcount; omega, hmore⟩
    | again => exact ⟨hle, hmore⟩
    | failed => exact ⟨total, hle, by omega, hmore⟩
  · exact ⟨total, hle, by omega, hsent⟩

/-- The environment's `send`s succeed. -/
def SendsSucceed (env : Trace → (c : Command) → Reply c → Prop) : Prop :=
  ∀ h peer bytes r, 0 < bytes.length → env h (.send peer bytes) r → ∃ n pos le, r = .sent n pos le

/-- Where its `send`s succeed, `send_all` brings the buffer to the peer. -/
lemma ends_sendAll {env : Trace → (c : Command) → Reply c → Prop} (henv : SendsSucceed env)
    {F : Fault → Prop} {dst : Peer} {buffer : Bytes} {fuel : ℕ} (hfuel : buffer.length < fuel)
    {h : Trace} :
    Ends env F (sendAll fuel dst buffer)
      (fun ret h' => ret = buffer.length ∧ SentTo dst buffer h h') h := by
  refine ends_loop (I := fun n total h' => n + total = buffer.length ∧
    SentTo dst (buffer.take total) h h') ?_ hfuel ⟨Nat.add_zero _, SentTo.refl dst h⟩
  rintro n total h' ⟨hle, hsent⟩
  split
  · simp only [send, bind_eq, pure_eq, ends_bind, ends_ask]
    intro r hr
    have hsome : 0 < (buffer.drop total).length := by rw [List.length_drop]; omega
    obtain ⟨k, pos, le, rfl⟩ := henv _ _ _ _ hsome hr
    rw [List.length_drop] at le
    exact ⟨n - k, by omega, by omega, hsent.more _⟩
  · have htotal : total = buffer.length := by omega
    rw [htotal, List.take_length] at hsent
    exact ⟨by rw [htotal], hsent⟩

/-! ### The halves of a round -/

/-- A half of a round: after `n` bytes were relayed from `src`, the connection is
`count n`. -/
def relayHalf (fuel size : ℕ) (src : Peer) (ready : Bool) (count : ℕ → Connection)
    (conn : Connection) : Handler (Option Connection) :=
  if ready then do
    match ← relay fuel size src src.other with
    | some n => pure (some (count n))
    | none => pure none
  else pure (some conn)

lemma relayFromClient_eq (fuel size : ℕ) (ready : Bool) (conn : Connection) :
    relayFromClient fuel size ready conn = relayHalf fuel size .client ready
      (fun n => { conn with bytesSent := addSize conn.bytesSent n }) conn := rfl

lemma relayFromRemote_eq (fuel size : ℕ) (ready : Bool) (conn : Connection) :
    relayFromRemote fuel size ready conn = relayHalf fuel size .remote ready
      (fun n => { conn with bytesReceived := addSize conn.bytesReceived n }) conn := rfl

/-! ### The failures of the loops -/

section Failing

variable {F : Fault → Trace → Prop}

lemma fails_sendAll (hF : ∀ h, F .outOfFuel h) (fuel : ℕ) (peer : Peer) (buffer : Bytes)
    (h : Trace) : Fails F (sendAll fuel peer buffer) h := by
  refine fails_loop hF (fun total h => ?_) fuel 0 h
  split
  · intro r
    cases r <;> trivial
  · trivial

lemma fails_relayHalf (hF : ∀ h, F .outOfFuel h) (fuel size : ℕ) (src : Peer) (ready : Bool)
    (count : ℕ → Connection) (conn : Connection) (h : Trace) :
    Fails F (relayHalf fuel size src ready count conn) h := by
  rw [relayHalf]
  split
  · refine fails_bind ?_ fun n tr => ?_
    · intro r
      cases r with
      | closed => trivial
      | error => trivial
      | data bytes pos le =>
          dsimp only [Prog.bind]
          refine fails_bind (fails_sendAll hF fuel src.other bytes _) fun ret tr => ?_
          split
          · trivial
          · exact fun _ => trivial
    · cases n <;> trivial
  · trivial

lemma fails_tunnel (hF : ∀ h, F .outOfFuel h) (fuel size seconds : ℕ) (conn : Connection)
    (h : Trace) : Fails F (tunnel fuel size seconds conn) h := by
  refine fails_loop hF (fun conn h => ?_) fuel conn h
  intro r
  cases r with
  | idle => trivial
  | ready client remote some_ready =>
      dsimp only [Prog.bind]
      refine fails_bind (fails_relayHalf hF fuel size .client client _ conn _) fun c tr => ?_
      cases c with
      | none => trivial
      | some conn =>
          refine fails_bind (fails_relayHalf hF fuel size .remote remote _ conn _) fun c tr => ?_
          cases c <;> trivial

end Failing

end ProxyMax
