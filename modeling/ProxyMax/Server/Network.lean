import ProxyMax.Server.Streams

/-!
A client whose messages arrive in pieces.

* `IsCut message pieces`: the pieces of a message.
* `nextPiece`, `arrival`: what has arrived and is not received yet, and what a
  `recv` gives of it.
* `destinations`: where a trace connects to.
* `Network`, `Network.answers`: the pieces the client sends, and how everything
  else answers.
* `answered_recv`: a `recv` gives the next piece.
* `ends_tunnel`, `ends_tunnel_quiet`: the relay loop, after the messages.
-/

namespace ProxyMax

open CString Interaction

/-! ### Pieces -/

/-- The pieces of a message, in order, none of them empty. -/
structure IsCut (message : Bytes) (pieces : List Bytes) : Prop where
  nonempty : ∀ piece ∈ pieces, piece ≠ []
  flatten : pieces.flatten = message

lemma isCut_singleton {message : Bytes} (h : message ≠ []) : IsCut message [message] :=
  ⟨by simpa using h, by simp⟩

/-- The first piece is a part of the message, and all of it if there is no other. -/
lemma IsCut.exists_first {message : Bytes} {pieces : List Bytes} (h : IsCut message pieces)
    (hm : message ≠ []) :
    ∃ first rest, pieces = first :: rest ∧ first ≠ [] ∧ first <+: message ∧
      (first = message ↔ pieces = [message]) := by
  obtain ⟨hne, rfl⟩ := h
  cases pieces with
  | nil => exact absurd rfl hm
  | cons first rest =>
      refine ⟨first, rest, rfl, hne first (by simp), by simp, ?_⟩
      rw [List.flatten_cons, List.cons.injEq]
      refine ⟨fun hall => ⟨hall, ?_⟩, fun hall => hall.1⟩
      have hnil : rest.flatten = [] := List.self_eq_append_right.mp hall
      refine List.eq_nil_iff_forall_not_mem.mpr fun piece hp => ?_
      exact hne piece (by simp [hp]) (List.flatten_eq_nil_iff.mp hnil piece hp)

/-- The piece that has arrived, where `n` bytes are received already. -/
def nextPiece : List Bytes → ℕ → Bytes
  | [], _ => []
  | piece :: pieces, n =>
      if n < piece.length then piece.drop n else nextPiece pieces (n - piece.length)

lemma nextPiece_cons {piece : Bytes} (h : piece ≠ []) (pieces : List Bytes) :
    nextPiece (piece :: pieces) 0 = piece := by
  rw [nextPiece, if_pos (List.length_pos_iff.mpr h), List.drop_zero]

/-- What comes after the first piece of a message does not matter to it. -/
lemma IsCut.nextPiece_eq {message : Bytes} {pieces : List Bytes} (h : IsCut message pieces)
    (hm : message ≠ []) (others : List Bytes) :
    nextPiece (pieces ++ others) 0 = nextPiece pieces 0 := by
  obtain ⟨first, rest, rfl, hne, -⟩ := h.exists_first hm
  rw [List.cons_append, nextPiece_cons hne, nextPiece_cons hne]

/-- The first piece of a message is a part of it. -/
lemma IsCut.nextPiece_isPrefix {message : Bytes} {pieces : List Bytes} (h : IsCut message pieces)
    (hm : message ≠ []) :
    nextPiece pieces 0 ≠ [] ∧ nextPiece pieces 0 <+: message ∧
      (nextPiece pieces 0 = message ↔ pieces = [message]) := by
  obtain ⟨first, rest, rfl, hne, hfirst⟩ := h.exists_first hm
  rw [nextPiece_cons hne]
  exact ⟨hne, hfirst⟩

/-- After the first pieces come the others. -/
lemma nextPiece_append (pieces others : List Bytes) (n : ℕ) :
    nextPiece (pieces ++ others) (pieces.flatten.length + n) = nextPiece others n := by
  induction pieces with
  | nil => rw [List.nil_append, List.flatten_nil, List.length_nil, Nat.zero_add]
  | cons piece pieces ih =>
      rw [List.cons_append, nextPiece, List.flatten_cons, List.length_append, if_neg (by omega),
        Nat.add_assoc, Nat.add_sub_cancel_left]
      exact ih

/-- After a message come the other ones. -/
lemma IsCut.nextPiece_after {message : Bytes} {pieces : List Bytes} (h : IsCut message pieces)
    (others : List Bytes) (n : ℕ) :
    nextPiece (pieces ++ others) (message.length + n) = nextPiece others n := by
  rw [← h.flatten]
  exact nextPiece_append pieces others n

/-- What a `recv` of `size` bytes gives of a piece. -/
def arrival (piece : Bytes) (size : ℕ) : Received size :=
  if hb : 0 < (piece.take size).length then .data (piece.take size) hb (List.length_take_le _ _)
  else .closed

/-! ### Destinations -/

/-- The destination that an event connects to. -/
def connectedTo : Event Reply → List (Bytes × ℤ)
  | ⟨.connectToHost host port, _⟩ => [(host, port)]
  | _ => []

/-- The destinations that a trace connects to. -/
def destinations (h : Trace) : List (Bytes × ℤ) := h.flatMap connectedTo

lemma destinations_snoc (h : Trace) (e : Event Reply) :
    destinations (h ++ [e]) = destinations h ++ connectedTo e := by
  simp [destinations]

lemma SentTo.destinations_eq {dst : Peer} {bytes : Bytes} {h h' : Trace}
    (hs : SentTo dst bytes h h') : destinations h' = destinations h := by
  refine hs.flatMap_eq _ fun e he => ?_
  obtain ⟨c, r⟩ := e
  obtain ⟨bytes, rfl⟩ := he
  rfl

/-! ### The network -/

/-- The pieces that the client sends, a bound on what the remote server sends, and the
answers of the other components. A quiet network has nothing for the relay loop. -/
structure Network where
  pieces : List Bytes
  limit : ℕ
  connect : Bytes → ℤ → ℤ
  localAddr : { address : Bytes // address.length = 6 }
  verify : Bytes → Bytes → ℤ
  filterUrl : Bytes → ℤ
  quiet : Bool

namespace Network

/-- The next piece of the client. -/
def next (net : Network) (h : Trace) : Bytes :=
  nextPiece net.pieces (receivedFrom .client h).length

/-- The client's messages arrive piece by piece, all `send`s succeed, and everything else
is as the network has it. -/
def answers (net : Network) (h : Trace) : (c : Command) → Reply c → Prop
  | .recv .client size, r => net.next h ≠ [] → r = arrival (net.next h) size
  | .recv .remote _, .data bytes _ _ => (receivedFrom .remote h).length + bytes.length ≤ net.limit
  | .send _ bytes, r => 0 < bytes.length → ∃ n pos le, r = .sent n pos le
  | .select _, r => net.quiet = true → r = .idle
  | .connectToHost host port, fd => fd = net.connect host port
  | .getsockname, address => address = net.localAddr
  | .authVerify username password, ret => ret = net.verify username password
  | .filterCheckUrl url, ret => ret = net.filterUrl url
  | _, _ => True

lemma sendsSucceed (net : Network) : SendsSucceed net.answers :=
  fun _ _ _ _ hlen hr => hr hlen

/-- Every call is answered. -/
lemma exists_answer (net : Network) (h : Trace) (c : Command) : ∃ r, net.answers h c r := by
  cases c with
  | recv peer size =>
      cases peer with
      | client => exact ⟨arrival (net.next h) size, fun _ => rfl⟩
      | remote => exact ⟨.closed, trivial⟩
  | send peer bytes =>
      by_cases hb : 0 < bytes.length
      · exact ⟨.sent bytes.length hb le_rfl, fun _ => ⟨_, hb, le_rfl, rfl⟩⟩
      · exact ⟨.failed, fun hpos => absurd hpos hb⟩
  | select seconds => exact ⟨.idle, fun _ => rfl⟩
  | connectToHost host port => exact ⟨_, rfl⟩
  | getsockname => exact ⟨_, rfl⟩
  | authVerify username password => exact ⟨_, rfl⟩
  | malloc size => exact ⟨true, trivial⟩
  | realloc size => exact ⟨true, trivial⟩
  | filterCheckUrl url => exact ⟨_, rfl⟩
  | filterCheckIp ip => exact ⟨(0 : ℤ), trivial⟩
  | cacheGet key => exact ⟨none, trivial⟩
  | cachePut key data ttl => exact ⟨(0 : ℤ), trivial⟩
  | statsIncrementRequests => exact ⟨(), trivial⟩
  | statsAddBytesTransferred bytes => exact ⟨(), trivial⟩

/-- The network that lets everyone in and connects to everything, where the remote server is
silent. -/
def plain (pieces : List Bytes) : Network where
  pieces
  limit := 0
  connect _ _ := 4
  localAddr := ⟨[10, 0, 0, 2, 4, 56], rfl⟩
  verify _ _ := 0
  filterUrl _ := 0
  quiet := true

/-- The network without what the relay loop would find. -/
def hushed (net : Network) : Network := { net with quiet := true }

/-- The runs of a quiet network are among those of the network. -/
lemma runs_of_hushed {net : Network} {α : Type} {h : Trace} {p : Handler α} {tr : Trace}
    {out : Outcome Fault α} (hrun : Runs net.hushed.answers h p tr out) :
    Runs (net.answers) h p tr out := by
  refine hrun.mono fun h c r hr => ?_
  cases c with
  | select seconds => exact fun _ => hr rfl
  | recv peer size =>
      cases peer with
      | client => exact hr
      | remote => cases r <;> exact hr
  | _ => exact hr

/-- **A `recv` of the client's message** gives the next piece, as far as it fits. -/
lemma answered_recv {net : Network} {h : Trace} {size : ℕ} (hsize : 0 < size)
    (hnext : net.next h ≠ []) {r : Reply (.recv .client size)}
    (hr : net.answers h (.recv .client size) r) :
    ∃ pos le, r = .data ((net.next h).take size) pos le := by
  have hpos : 0 < ((net.next h).take size).length := by
    rw [List.length_take]
    exact lt_min hsize (List.length_pos_iff.mpr hnext)
  exact ⟨hpos, List.length_take_le _ _, (hr hnext).trans (dif_pos hpos)⟩

end Network

/-! ### The relay loop after the messages -/

/-- The events after `h` begin with a `select`. -/
def Selecting (h h' : Trace) : Prop := ∃ seconds r post, h' = h ++ ⟨.select seconds, r⟩ :: post

lemma Selecting.snoc {h h' : Trace} (hs : Selecting h h') (e : Event Reply) :
    Selecting h (h' ++ [e]) := by
  obtain ⟨seconds, r, post, rfl⟩ := hs
  exact ⟨seconds, r, post ++ [e], by simp⟩

/-- What every event keeps holds after a half of a round, which does not change who is
authenticated. -/
lemma ends_relayHalf_of_stable {env : Trace → (c : Command) → Reply c → Prop}
    {I : Trace → Prop} (hstep : ∀ h c r, I h → I (h ++ [⟨c, r⟩])) (fuel size : ℕ) (src : Peer)
    (ready : Bool) {count : ℕ → Connection} {conn : Connection}
    (hcount : ∀ n, (count n).authenticated = conn.authenticated) {h : Trace} (hI : I h) :
    Ends env (fun _ => True) (relayHalf fuel size src ready count conn)
      (fun c h' => (∀ conn', c = some conn' → conn'.authenticated = conn.authenticated) ∧ I h')
      h := by
  rw [relayHalf]
  split
  · refine (ends_bind ..).mpr (ends_mono (ends_of_stable hstep _ hI) ?_)
    intro n h' hI'
    cases n with
    | none => exact ⟨fun conn' hc => by simp at hc, hI'⟩
    | some n => exact ⟨fun conn' hc => Option.some.inj hc ▸ hcount n, hI'⟩
  · exact ⟨fun conn' hc => by rw [← Option.some.inj hc], hI⟩

/-- The loop begins with a `select`, and does not change who is authenticated. -/
lemma ends_tunnel {env : Trace → (c : Command) → Reply c → Prop} (fuel size seconds : ℕ)
    (conn : Connection) (h : Trace) :
    Ends env (fun _ => True) (tunnel fuel size seconds conn)
      (fun c h' => c.authenticated = conn.authenticated ∧ Selecting h h') h := by
  have hstep : ∀ h' c r, Selecting h h' → Selecting h (h' ++ [⟨c, r⟩]) := fun _ c r hs =>
    hs.snoc ⟨c, r⟩
  refine ends_loop_of_fails (I := fun c h' => c.authenticated = conn.authenticated ∧
    (h' = h ∨ Selecting h h')) trivial ?_ fuel ⟨rfl, .inl rfl⟩
  rintro c h' ⟨hauth, hh⟩
  simp only [tunnelRound, select, bind_eq, pure_eq, ends_bind, ends_ask]
  intro r _
  have hs : Selecting h (h' ++ [⟨.select seconds, r⟩]) := by
    rcases hh with rfl | hs
    · exact ⟨seconds, r, [], rfl⟩
    · exact hs.snoc _
  cases r with
  | idle => exact ⟨hauth, hs⟩
  | ready client remote some_ready =>
      dsimp only
      rw [relayFromClient_eq]
      refine (ends_bind ..).mpr
        (ends_mono
          (ends_relayHalf_of_stable hstep fuel size .client client (fun _ => by rfl) hs) ?_)
      rintro c' h₁ ⟨hclient, hs₁⟩
      cases c' with
      | none => exact ⟨hauth, hs₁⟩
      | some conn₁ =>
          dsimp only
          rw [relayFromRemote_eq]
          refine (ends_bind ..).mpr (ends_mono
            (ends_relayHalf_of_stable hstep fuel size .remote remote (fun _ => by rfl) hs₁) ?_)
          rintro c' h₂ ⟨hremote, hs₂⟩
          have hauth₁ := (hclient conn₁ rfl).trans hauth
          cases c' with
          | none => exact ⟨hauth₁, hs₂⟩
          | some conn₂ => exact ⟨(hremote conn₂ rfl).trans hauth₁, .inr hs₂⟩

/-- In a quiet network the loop finds nothing. -/
lemma ends_tunnel_quiet {net : Network} (hquiet : net.quiet = true) {F : Fault → Prop} {fuel : ℕ}
    (hfuel : 0 < fuel) (size seconds : ℕ) (conn : Connection) (h : Trace) :
    Ends net.answers F (tunnel fuel size seconds conn)
      (fun c h' => c = conn ∧ h' = h ++ [⟨.select seconds, .idle⟩]) h := by
  refine ends_loop (I := fun n c h' => n = 0 ∧ c = conn ∧ h' = h) ?_ hfuel ⟨rfl, rfl, rfl⟩
  rintro n c h' ⟨rfl, rfl, rfl⟩
  simp only [tunnelRound, select, bind_eq, pure_eq, ends_bind, ends_ask]
  intro r hr
  obtain rfl : r = .idle := hr hquiet
  exact ⟨rfl, rfl⟩

end ProxyMax
