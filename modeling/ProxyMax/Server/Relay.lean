import ProxyMax.Http.Handler
import ProxyMax.Server.Streams

/-!
The relay loop as a pair of streams.

* `Ordered`, `Balanced`: what each peer accepted is a prefix of what was received
  from the other one, or all of it.
* `wp_relay`, `wp_tunnelRound`: a chunk and a round.
* `tunnel_streams`: the streams are ordered at every point of the loop, and
  balanced and counted at the beginning of each round.
* `streaming`: an environment in which the peers send finite streams.
* `tunnel_closes`: the loop ends at the first `recv` that returns 0.
-/

namespace ProxyMax

open CString Interaction

/-- Any answer. -/
def Anything (_ : Trace) (c : Command) (_ : Reply c) : Prop := True

/-- Every call is allowed. -/
def Allowed (_ : Trace) (_ : Command) : Prop := True

/-- Each peer accepted a prefix of what the other one sent. -/
def Ordered (h : Trace) : Prop := ∀ p : Peer, acceptedBy p.other h <+: receivedFrom p h

/-- Each peer accepted all of what the other one sent. -/
def Balanced (h : Trace) : Prop := ∀ p : Peer, acceptedBy p.other h = receivedFrom p h

lemma Balanced.ordered {h : Trace} (hb : Balanced h) : Ordered h := fun p =>
  hb p ▸ List.prefix_refl _

/-- Each peer accepted all of what the other one sent, except the last bytes from
`src`, which are on their way. -/
def Pending (src : Peer) (bytes : Bytes) (h : Trace) : Prop :=
  ∀ p : Peer, acceptedBy p.other h ++ (if p = src then bytes else []) = receivedFrom p h

/-- Whatever the call gives, the streams are ordered after it. -/
def OrderedAfter (h : Trace) (c : Command) : Prop := ∀ r, Ordered (h ++ [⟨c, r⟩])

/-! ### A chunk -/

section Chunk

variable {src : Peer} {bytes : Bytes} {h h' : Trace}

lemma Pending.ordered (hp : Pending src bytes h) : Ordered h := fun p =>
  hp p ▸ List.prefix_append _ _

lemma Pending.balanced (hp : Pending src [] h) : Balanced h := by
  intro p
  have h := hp p
  rwa [ite_self, List.append_nil] at h

/-- A part of the bytes on their way is accepted. -/
lemma Pending.sent (hp : Pending src bytes h) {k : ℕ}
    (hs : SentTo src.other (bytes.take k) h h') : Pending src (bytes.drop k) h' := by
  intro p
  rw [hs.receivedFrom_eq, ← hp p]
  by_cases he : p = src
  · subst he
    rw [hs.acceptedBy_eq, if_pos rfl, if_pos rfl, List.append_assoc, List.take_append_drop]
  · have hne : p.other ≠ src.other := fun ho =>
      he (by rw [← Peer.other_other p, ho, Peer.other_other])
    rw [hs.acceptedBy_other hne, if_neg he, if_neg he]

/-- A chunk is received. -/
lemma Balanced.recv (hb : Balanced h) {size : ℕ} (pos : 0 < bytes.length)
    (le : bytes.length ≤ size) :
    Pending src bytes (h ++ [⟨.recv src size, .data bytes pos le⟩]) := by
  intro p
  rw [acceptedBy_snoc, receivedFrom_snoc, hb p]
  by_cases he : p = src
  · simp [accepted, received, he]
  · simp [accepted, received, he, Ne.symm he]

/-- Other events do not touch the streams. -/
lemma Balanced.snoc (hb : Balanced h) {e : Event Reply} (hr : ∀ p, received p e = [])
    (ha : ∀ p, accepted p e = []) : Balanced (h ++ [e]) := by
  intro p
  rw [acceptedBy_snoc, receivedFrom_snoc, hr, ha, List.append_nil, List.append_nil, hb p]

end Chunk

/-- A chunk is relayed whole, or the loop is left. -/
lemma wp_relay (fuel size : ℕ) (src : Peer) {h : Trace} (hb : Balanced h) :
    wp Anything OrderedAfter (relay fuel size src src.other)
      (fun n h' => ∀ m, n = some m → Balanced h' ∧
        (receivedFrom src h').length = (receivedFrom src h).length + m ∧
        receivedFrom src.other h' = receivedFrom src.other h) h := by
  simp only [relay, recv, statsAddBytesTransferred, bind_eq, pure_eq, wp_bind, wp_ask]
  refine ⟨fun r => ?_, ?_⟩
  · cases r with
    | data bytes pos le => exact (hb.recv pos le).ordered
    | closed => exact (hb.snoc (fun _ => rfl) fun _ => rfl).ordered
    | error => exact (hb.snoc (fun _ => rfl) fun _ => rfl).ordered
  intro r _
  cases r with
  | closed => exact fun m hm => by simp at hm
  | error => exact fun m hm => by simp at hm
  | data bytes pos le =>
      have hpending : Pending src bytes (h ++ [⟨.recv src size, .data bytes pos le⟩]) :=
        hb.recv pos le
      refine (wp_bind _ _ _ _ _ _).mpr (wp_mono (wp_sendAll (fun k h' _ hs r => ?_) fuel) ?_)
      · exact (hpending.sent (hs.more r)).ordered
      rintro ret h' ⟨k, hk, hret, hs⟩
      split
      · exact fun m hm => by simp at hm
      · rename_i hneg
        have hall : k = bytes.length := hret.mp (by omega)
        rw [hall] at hs
        have hbal : Balanced h' := by
          have hdone := hpending.sent hs
          rw [List.drop_length] at hdone
          exact hdone.balanced
        simp only [wp_bind, wp_ask, wp_ret]
        refine ⟨fun r => (hbal.snoc (fun _ => rfl) fun _ => rfl).ordered, ?_⟩
        intro r _ m hm
        obtain rfl := Option.some.inj hm
        refine ⟨hbal.snoc (fun _ => rfl) fun _ => rfl, ?_, ?_⟩
        · rw [receivedFrom_snoc, hs.receivedFrom_eq, receivedFrom_snoc]
          simp [received]
        · rw [receivedFrom_snoc, hs.receivedFrom_eq, receivedFrom_snoc]
          simp [received, (Peer.other_ne src).symm]

/-! ### Finite streams -/

/-- The peers send their streams, in chunks of any length, and then close; nothing else
goes wrong, and there is always a peer that can be read. -/
def streaming (stream : Peer → Bytes) (h : Trace) : (c : Command) → Reply c → Prop
  | .recv p _, .data bytes _ _ => receivedFrom p h ++ bytes <+: stream p
  | .recv p _, .closed => receivedFrom p h = stream p
  | .recv _ _, .error => False
  | .send _ _, .sent _ _ _ => True
  | .send _ _, _ => False
  | .select _, r => r ≠ .idle
  | _, _ => True

/-- A connection that has not moved any bytes. -/
def idleConnection : Connection where
  clientIp := []
  remoteFd := 4
  bytesSent := 0
  bytesReceived := 0
  authenticated := 0

/-- The remote server sends one byte; the client sends nothing. -/
def oneByte : Peer → Bytes
  | .client => []
  | .remote => [72]

/-- The byte of the remote server is relayed, and the remote server closes. -/
def oneByteRun : Trace :=
  [⟨.select 30, .ready false true rfl⟩,
    ⟨.recv .remote bufferSize, .data [72] (Nat.succ_pos _) (by decide)⟩,
    ⟨.send .client [72], .sent 1 (Nat.succ_pos _) (Nat.le_refl _)⟩,
    ⟨.statsAddBytesTransferred 1, ()⟩,
    ⟨.select 30, .ready false true rfl⟩,
    ⟨.recv .remote bufferSize, .closed⟩]

lemma oneByteRun_runs : Runs (streaming oneByte) [] (tunnel 2 bufferSize 30 idleConnection)
    oneByteRun (.returned { idleConnection with bytesReceived := 1 }) := by
  refine .call (fun h => by cases h) (.call ?_ (.call trivial (.call trivial ?_)))
  · exact List.prefix_refl [72]
  · exact .call (fun h => by cases h) (.call rfl (.ret _ _))

/-! ### The rounds -/

lemma addSize_addSize (a m n : ℕ) : addSize (addSize a m) n = addSize a (m + n) := by
  rw [addSize, addSize, addSize, Nat.mod_add_mod, Nat.add_assoc]

/-- **The invariant of the rounds.** The streams are balanced, and the counters have
grown by their lengths. -/
structure Relayed (conn₀ conn : Connection) (h : Trace) : Prop where
  balanced : Balanced h
  bytesSent : conn.bytesSent = addSize conn₀.bytesSent (receivedFrom .client h).length
  bytesReceived : conn.bytesReceived = addSize conn₀.bytesReceived (receivedFrom .remote h).length

/-- A half of a round keeps the invariant, where it counts what it relays. -/
lemma wp_relayHalf (fuel size : ℕ) (src : Peer) (ready : Bool) {count : ℕ → Connection}
    {conn₀ conn : Connection} {h : Trace} (hr : Relayed conn₀ conn h)
    (hcount : ∀ n h', Balanced h' →
      (receivedFrom src h').length = (receivedFrom src h).length + n →
      receivedFrom src.other h' = receivedFrom src.other h → Relayed conn₀ (count n) h') :
    wp Anything OrderedAfter (relayHalf fuel size src ready count conn)
      (fun c h' => ∀ conn', c = some conn' → Relayed conn₀ conn' h') h := by
  rw [relayHalf]
  split
  · refine (wp_bind _ _ _ _ _ _).mpr (wp_mono (wp_relay fuel size src hr.balanced) ?_)
    intro n h' hn
    cases n with
    | none => exact fun conn' hc => by simp at hc
    | some n =>
        obtain ⟨hbal, hlen, hother⟩ := hn n rfl
        exact fun conn' hc => Option.some.inj hc ▸ hcount n h' hbal hlen hother
  · exact fun conn' hc => Option.some.inj hc ▸ hr

/-- The half of a round that the client begins. -/
lemma wp_relayFromClient (fuel size : ℕ) (ready : Bool) {conn₀ conn : Connection} {h : Trace}
    (hr : Relayed conn₀ conn h) :
    wp Anything OrderedAfter (relayFromClient fuel size ready conn)
      (fun c h' => ∀ conn', c = some conn' → Relayed conn₀ conn' h') h := by
  rw [relayFromClient_eq]
  refine wp_relayHalf fuel size .client ready hr fun n h' hbal hlen hother => ⟨hbal, ?_, ?_⟩
  · calc addSize conn.bytesSent n
        = addSize conn₀.bytesSent ((receivedFrom .client h).length + n) := by
          rw [hr.bytesSent, addSize_addSize]
      _ = addSize conn₀.bytesSent (receivedFrom .client h').length := by rw [hlen]
  · calc conn.bytesReceived
        = addSize conn₀.bytesReceived (receivedFrom .remote h).length := hr.bytesReceived
      _ = addSize conn₀.bytesReceived (receivedFrom .remote h').length :=
          congrArg (fun bytes : Bytes => addSize _ bytes.length) hother.symm

/-- The half of a round that the remote server begins. -/
lemma wp_relayFromRemote (fuel size : ℕ) (ready : Bool) {conn₀ conn : Connection} {h : Trace}
    (hr : Relayed conn₀ conn h) :
    wp Anything OrderedAfter (relayFromRemote fuel size ready conn)
      (fun c h' => ∀ conn', c = some conn' → Relayed conn₀ conn' h') h := by
  rw [relayFromRemote_eq]
  refine wp_relayHalf fuel size .remote ready hr fun n h' hbal hlen hother => ⟨hbal, ?_, ?_⟩
  · calc conn.bytesSent
        = addSize conn₀.bytesSent (receivedFrom .client h).length := hr.bytesSent
      _ = addSize conn₀.bytesSent (receivedFrom .client h').length :=
          congrArg (fun bytes : Bytes => addSize _ bytes.length) hother.symm
  · calc addSize conn.bytesReceived n
        = addSize conn₀.bytesReceived ((receivedFrom .remote h).length + n) := by
          rw [hr.bytesReceived, addSize_addSize]
      _ = addSize conn₀.bytesReceived (receivedFrom .remote h').length := by rw [hlen]

/-- **The round lemma.** -/
lemma wp_tunnelRound (fuel size seconds : ℕ) {conn₀ conn : Connection} {h : Trace}
    (hr : Relayed conn₀ conn h) :
    wp Anything OrderedAfter (tunnelRound fuel size seconds conn)
      (fun x h' => x.elim (Relayed conn₀ · h') fun _ => True) h := by
  simp only [tunnelRound, select, bind_eq, pure_eq, wp_bind, wp_ask]
  have hselect : ∀ r : Selected, Balanced (h ++ [⟨.select seconds, r⟩]) := fun r =>
    hr.balanced.snoc (fun _ => rfl) fun _ => rfl
  refine ⟨fun r => (hselect r).ordered, ?_⟩
  intro r _
  cases r with
  | idle => trivial
  | ready client remote some_ready =>
      have hr' : Relayed conn₀ conn (h ++ [⟨.select seconds, .ready client remote some_ready⟩]) :=
        ⟨hselect _, by rw [receivedFrom_snoc, hr.bytesSent]; simp [received],
          by rw [receivedFrom_snoc, hr.bytesReceived]; simp [received]⟩
      refine (wp_bind _ _ _ _ _ _).mpr (wp_mono (wp_relayFromClient fuel size client hr') ?_)
      intro c h' hc
      cases c with
      | none => trivial
      | some conn' =>
          refine (wp_bind _ _ _ _ _ _).mpr
            (wp_mono (wp_relayFromRemote fuel size remote (hc conn' rfl)) ?_)
          intro c h'' hc'
          cases c with
          | none => trivial
          | some conn'' => exact hc' conn'' rfl

lemma relayed_start (conn : Connection) (hs : conn.bytesSent < sizeMod)
    (hr : conn.bytesReceived < sizeMod) : Relayed conn conn [] := by
  refine ⟨fun p => rfl, ?_, ?_⟩
  · exact (Nat.mod_eq_of_lt hs).symm
  · exact (Nat.mod_eq_of_lt hr).symm

/-- **Relay stream integrity.** At every point of a run of the relay loop, what each peer
accepted is a prefix of what was received from the other one; and at the beginning of
each round it is all of that, and the counters have grown by its length. -/
theorem tunnel_streams (fuel size seconds : ℕ) (conn : Connection)
    (hsent : conn.bytesSent < sizeMod) (hreceived : conn.bytesReceived < sizeMod) (tr : Trace)
    (out : Outcome Fault Connection)
    (hrun : Runs Anything [] (tunnel fuel size seconds conn) tr out) :
    (∀ pre, pre <+: tr → ∀ p : Peer, acceptedBy p.other pre <+: receivedFrom p pre) ∧
      ∀ conn' pre, pre <+: tr → Heads Anything (tunnelRound fuel size seconds) conn [] conn' pre →
        (∀ p : Peer, acceptedBy p.other pre = receivedFrom p pre) ∧
        conn'.bytesSent = addSize conn.bytesSent (acceptedBy .remote pre).length ∧
        conn'.bytesReceived = addSize conn.bytesReceived (acceptedBy .client pre).length := by
  have hstart := relayed_start conn hsent hreceived
  have hround : ∀ c h, Relayed conn c h → wp Anything OrderedAfter
      (tunnelRound fuel size seconds c)
      (fun x h' => x.elim (Relayed conn · h') fun _ => True) h :=
    fun c h hr => wp_tunnelRound fuel size seconds hr
  refine ⟨fun pre hpre => ?_, fun conn' pre _ hheads => ?_⟩
  · have hcalls := (wp_sound (Q := fun _ _ => True) (wp_loop hround fuel hstart) hrun).1
    obtain ⟨post, rfl⟩ := hpre
    rcases List.eq_nil_or_concat' pre with rfl | ⟨pre, ⟨c, r⟩, rfl⟩
    · exact hstart.balanced.ordered
    · exact hcalls pre c r post (List.append_assoc ..) r
  · have hr := heads_invariant hround hstart hheads
    refine ⟨hr.balanced, ?_, ?_⟩
    · rw [hr.bytesSent, ← hr.balanced .client]
      rfl
    · rw [hr.bytesReceived, ← hr.balanced .remote]
      rfl

theorem tunnel_streams_run :
    (∀ pre, pre <+: oneByteRun → ∀ p : Peer, acceptedBy p.other pre <+: receivedFrom p pre) ∧
      ∀ conn' pre, pre <+: oneByteRun →
        Heads Anything (tunnelRound 2 bufferSize 30) idleConnection [] conn' pre →
        (∀ p : Peer, acceptedBy p.other pre = receivedFrom p pre) ∧
        conn'.bytesSent = addSize 0 (acceptedBy .remote pre).length ∧
        conn'.bytesReceived = addSize 0 (acceptedBy .client pre).length :=
  tunnel_streams 2 bufferSize 30 idleConnection (by decide) (by decide) oneByteRun _
    (oneByteRun_runs.mono fun _ _ _ _ => trivial)

/-! ### The end of the loop -/

lemma streaming_sends (stream : Peer → Bytes) : SendsSucceed (streaming stream) := by
  intro h peer bytes r _ hr
  cases r with
  | sent n pos le => exact ⟨n, pos, le, rfl⟩
  | again => exact absurd hr id
  | failed => exact absurd hr id

/-- The bytes of a stream that are not received yet. -/
def unread (stream : Peer → Bytes) (p : Peer) (h : Trace) : ℕ :=
  (stream p).length - (receivedFrom p h).length

/-- Between the rounds: the streams are balanced, and so many bytes are to come. -/
structure Arriving (stream : Peer → Bytes) (n : ℕ) (h : Trace) : Prop where
  balanced : Balanced h
  received : ∀ p, receivedFrom p h <+: stream p
  rest : unread stream .client h + unread stream .remote h ≤ n

/-- At the end: the peer `p` has closed, and its stream is delivered. -/
def Closed (stream : Peer → Bytes) (h : Trace) : Prop :=
  ∃ p pre size, h = pre ++ [⟨.recv p size, .closed⟩] ∧ Balanced h ∧ receivedFrom p h = stream p ∧
    receivedFrom p.other h <+: stream p.other

/-- The bytes of a chunk that was relayed no longer are to come. -/
lemma Arriving.relayed {stream : Peer → Bytes} {n : ℕ} {h h' : Trace} (ha : Arriving stream n h)
    {src : Peer} {bytes : Bytes} (hpre : receivedFrom src h ++ bytes <+: stream src)
    (hb : Balanced h')
    (hfrom : ∀ p, receivedFrom p h' = receivedFrom p h ++ if src = p then bytes else []) :
    Arriving stream (n - bytes.length) h' := by
  refine ⟨hb, fun p => ?_, ?_⟩
  · rw [hfrom]
    by_cases hp : src = p
    · rw [if_pos hp, ← hp]
      exact hpre
    · rw [if_neg hp, List.append_nil]
      exact ha.received p
  · have hlen := hpre.length_le
    have hrest := ha.rest
    simp only [unread, hfrom, List.length_append] at hlen hrest ⊢
    cases src <;> simp only [reduceCtorEq, if_true, if_false, List.length_nil] <;> omega

/-- A chunk is relayed, and less is to come; or the peer has closed. -/
lemma ends_relay {F : Fault → Prop} {stream : Peer → Bytes} {n fuel : ℕ} (size : ℕ) (src : Peer)
    {h : Trace} (ha : Arriving stream n h) (hfuel : n < fuel) :
    Ends (streaming stream) F (relay fuel size src src.other)
      (fun x h' => (x = none → Closed stream h') ∧
        ∀ m, x = some m → ∃ n', n' < n ∧ Arriving stream n' h') h := by
  simp only [relay, recv, statsAddBytesTransferred, bind_eq, pure_eq, ends_bind, ends_ask]
  intro r hr
  cases r with
  | error => exact absurd hr id
  | closed =>
      have hsame : ∀ p, receivedFrom p (h ++ [⟨.recv src size, .closed⟩]) = receivedFrom p h :=
        fun p => (receivedFrom_snoc p h _).trans (List.append_nil _)
      have hclosed : Closed stream (h ++ [⟨.recv src size, .closed⟩]) :=
        ⟨src, h, size, rfl, ha.balanced.snoc (fun _ => rfl) fun _ => rfl, (hsame src).trans hr,
          hsame src.other ▸ ha.received src.other⟩
      exact ⟨fun _ => hclosed, fun m hm => by simp at hm⟩
  -- what was received is sent whole, and so much less is unread
  | data bytes pos le =>
      have hpre : receivedFrom src h ++ bytes <+: stream src := hr
      have hlen := hpre.length_le
      rw [List.length_append] at hlen
      have hunread : ∀ p, unread stream p h ≤ n := fun p => by
        have hrest := ha.rest
        cases p <;> omega
      have hsrc := hunread src
      rw [unread] at hsrc
      have hpending : Pending src bytes (h ++ [⟨.recv src size, .data bytes pos le⟩]) :=
        ha.balanced.recv pos le
      refine (ends_bind ..).mpr
        (ends_mono (ends_sendAll (streaming_sends stream) (by omega)) ?_)
      rintro ret h' ⟨rfl, hs⟩
      rw [if_neg (by omega)]
      simp only [ends_bind, ends_ask, ends_ret]
      intro r _
      have hfrom : ∀ p, receivedFrom p (h' ++ [⟨.statsAddBytesTransferred bytes.length, r⟩]) =
          receivedFrom p h ++ if src = p then bytes else [] := by
        intro p
        rw [receivedFrom_snoc, hs.receivedFrom_eq, receivedFrom_snoc]
        exact List.append_nil _
      have hdone : Pending src [] h' := by
        have hdrop := hpending.sent (k := bytes.length) (by rwa [List.take_length])
        rwa [List.drop_length] at hdrop
      have hbalanced := hdone.balanced.snoc (e := ⟨.statsAddBytesTransferred bytes.length, r⟩)
        (fun _ => rfl) fun _ => rfl
      exact ⟨fun hnone => by simp at hnone, fun m _ =>
        ⟨n - bytes.length, by omega, ha.relayed hpre hbalanced hfrom⟩⟩

/-- A half of a round: the peer has closed, or less is to come if it was ready. -/
def HalfDone (stream : Peer → Bytes) (n : ℕ) (ready : Bool) (c : Option Connection)
    (h : Trace) : Prop :=
  (c = none → Closed stream h) ∧
    ∀ conn, c = some conn → ∃ n', n' ≤ n ∧ (ready = true → n' < n) ∧ Arriving stream n' h

lemma ends_relayHalf {F : Fault → Prop} {stream : Peer → Bytes} {n fuel : ℕ} (size : ℕ)
    (src : Peer) (ready : Bool) (count : ℕ → Connection) (conn : Connection) {h : Trace}
    (ha : Arriving stream n h) (hfuel : n < fuel) :
    Ends (streaming stream) F (relayHalf fuel size src ready count conn)
      (HalfDone stream n ready) h := by
  rw [relayHalf]
  split
  · refine (ends_bind ..).mpr (ends_mono (ends_relay size src ha hfuel) ?_)
    rintro x h' ⟨hnone, hsome⟩
    cases x with
    | none => exact ⟨fun _ => hnone rfl, fun conn' hc => by simp at hc⟩
    | some m =>
        obtain ⟨n', hlt, ha'⟩ := hsome m rfl
        exact ⟨fun hc => by simp at hc, fun _ _ => ⟨n', hlt.le, fun _ => hlt, ha'⟩⟩
  · rename_i hready
    exact ⟨fun hc => by simp at hc, fun _ _ => ⟨n, le_rfl, fun h => absurd h hready, ha⟩⟩

/-- A round relays some more bytes, or a peer has closed. -/
lemma ends_tunnelRound {F : Fault → Prop} {stream : Peer → Bytes} {n fuel : ℕ} (size seconds : ℕ)
    (conn : Connection) {h : Trace} (ha : Arriving stream n h) (hfuel : n < fuel) :
    Ends (streaming stream) F (tunnelRound fuel size seconds conn)
      (fun x h' => x.elim (fun _ => ∃ n', n' < n ∧ Arriving stream n' h')
        fun _ => Closed stream h') h := by
  simp only [tunnelRound, select, bind_eq, pure_eq, ends_bind, ends_ask]
  intro r hr
  cases r with
  | idle => exact absurd rfl hr
  | ready client remote some_ready =>
      have hsame : ∀ p, receivedFrom p
          (h ++ [⟨.select seconds, .ready client remote some_ready⟩]) = receivedFrom p h :=
        fun p => (receivedFrom_snoc p h _).trans (List.append_nil _)
      have ha' : Arriving stream n (h ++ [⟨.select seconds, .ready client remote some_ready⟩]) := by
        refine ⟨ha.balanced.snoc (fun _ => rfl) fun _ => rfl, fun p => ?_, ?_⟩
        · rw [hsame]
          exact ha.received p
        · simp only [unread, hsame]
          exact ha.rest
      dsimp only
      rw [relayFromClient_eq]
      -- the client's half, and then the server's
      refine (ends_bind ..).mpr
        (ends_mono (ends_relayHalf size .client client _ conn ha' hfuel) ?_)
      rintro c h' ⟨hnone, hsome⟩
      cases c with
      | none => exact hnone rfl
      | some conn' =>
          obtain ⟨n₁, hle, hlt, ha₁⟩ := hsome conn' rfl
          dsimp only
          rw [relayFromRemote_eq]
          refine (ends_bind ..).mpr
            (ends_mono (ends_relayHalf size .remote remote _ conn' ha₁ (by omega)) ?_)
          rintro c h'' ⟨hnone', hsome'⟩
          cases c with
          | none => exact hnone' rfl
          | some conn'' =>
              obtain ⟨n₂, hle', hlt', ha₂⟩ := hsome' conn'' rfl
              refine ⟨n₂, ?_, ha₂⟩
              rcases Bool.or_eq_true .. |>.mp some_ready with hready | hready
              · have := hlt hready
                omega
              · have := hlt' hready
                omega

/-! ### The first `recv` that returns 0 -/

/-- No `recv` returned 0 so far. -/
def NoneClosed (h : Trace) : Prop := ∀ p size, (⟨.recv p size, .closed⟩ : Event Reply) ∉ h

/-- Calls are allowed as long as no `recv` returned 0. -/
def BeforeClosed (h : Trace) (_ : Command) : Prop := NoneClosed h

lemma noneClosed_nil : NoneClosed [] := fun _ _ h => by cases h

lemma NoneClosed.snoc {h : Trace} (hn : NoneClosed h) {e : Event Reply}
    (he : ∀ p size, e ≠ ⟨.recv p size, .closed⟩) : NoneClosed (h ++ [e]) := by
  intro p size hmem
  rcases List.mem_append.mp hmem with hmem | hmem
  · exact hn p size hmem
  · exact he p size (List.mem_singleton.mp hmem).symm

/-- A chunk after which the loop goes on is not the end of a stream. -/
lemma wp_relay_noneClosed {env : Trace → (c : Command) → Reply c → Prop} (fuel size : ℕ)
    (src dst : Peer) {h : Trace} (hn : NoneClosed h) :
    wp env BeforeClosed (relay fuel size src dst) (fun n h' => n ≠ none → NoneClosed h') h := by
  simp only [relay, recv, statsAddBytesTransferred, bind_eq, pure_eq, wp_bind, wp_ask]
  refine ⟨hn, fun r _ => ?_⟩
  cases r with
  | closed => exact fun hne => absurd rfl hne
  | error => exact fun hne => absurd rfl hne
  | data bytes pos le =>
      have hdata : NoneClosed (h ++ [⟨.recv src size, .data bytes pos le⟩]) :=
        hn.snoc fun p size' he => by cases he
      refine (wp_bind _ _ _ _ _ _).mpr (wp_mono (wp_of_only (I := NoneClosed)
        (fun _ _ _ hn => hn) ?_ (only_sendAll fuel dst bytes) hdata) ?_)
      · rintro h' c r ⟨bytes', rfl⟩ hn'
        exact hn'.snoc fun p size' he => by cases he
      intro ret h' hn'
      split
      · exact fun hne => absurd rfl hne
      · simp only [wp_bind, wp_ask, wp_ret]
        exact ⟨hn', fun r _ _ => hn'.snoc fun p size' he => by cases he⟩

lemma wp_relayHalf_noneClosed {env : Trace → (c : Command) → Reply c → Prop} (fuel size : ℕ)
    (src : Peer) (ready : Bool) (count : ℕ → Connection) (conn : Connection) {h : Trace}
    (hn : NoneClosed h) :
    wp env BeforeClosed (relayHalf fuel size src ready count conn)
      (fun c h' => c ≠ none → NoneClosed h') h := by
  rw [relayHalf]
  split
  · refine (wp_bind _ _ _ _ _ _).mpr
      (wp_mono (wp_relay_noneClosed fuel size src src.other hn) ?_)
    intro n h' hn'
    cases n with
    | none => exact fun hne => absurd rfl hne
    | some n => exact fun _ => hn' (Option.some_ne_none n)
  · exact fun _ => hn

/-- A round that is not the last one has seen no end of a stream. -/
lemma wp_tunnelRound_noneClosed {env : Trace → (c : Command) → Reply c → Prop}
    (fuel size seconds : ℕ) (conn : Connection) {h : Trace} (hn : NoneClosed h) :
    wp env BeforeClosed (tunnelRound fuel size seconds conn)
      (fun x h' => x.elim (fun _ => NoneClosed h') fun _ => True) h := by
  simp only [tunnelRound, select, bind_eq, pure_eq, wp_bind, wp_ask]
  refine ⟨hn, fun r _ => ?_⟩
  cases r with
  | idle => trivial
  | ready client remote some_ready =>
      have hselect : NoneClosed (h ++ [⟨.select seconds, .ready client remote some_ready⟩]) :=
        hn.snoc fun p size' he => by cases he
      dsimp only
      rw [relayFromClient_eq]
      refine (wp_bind _ _ _ _ _ _).mpr
        (wp_mono (wp_relayHalf_noneClosed fuel size .client client _ conn hselect) ?_)
      intro c h' hc
      cases c with
      | none => trivial
      | some conn' =>
          dsimp only
          rw [relayFromRemote_eq]
          refine (wp_bind _ _ _ _ _ _).mpr (wp_mono (wp_relayHalf_noneClosed fuel size .remote
            remote _ conn' (hc (Option.some_ne_none _))) ?_)
          intro c h'' hc'
          cases c with
          | none => trivial
          | some conn'' => exact hc' (Option.some_ne_none _)

lemma wp_tunnel_noneClosed {env : Trace → (c : Command) → Reply c → Prop}
    (fuel size seconds : ℕ) (conn : Connection) :
    wp env BeforeClosed (tunnel fuel size seconds conn) (fun _ _ => True) [] :=
  wp_loop (I := fun _ h => NoneClosed h)
    (fun c _ hn => wp_tunnelRound_noneClosed fuel size seconds c hn) fuel noneClosed_nil

/-- **The loop ends with the first peer that has finished.** Whatever the peers do, a
`recv` that returns 0 is the last call of the loop. When the peers send finite streams,
within the timeout, and all `send`s succeed, the loop comes to its end at the first such
`recv`: then the stream of that peer is delivered whole, and what was received from the
other one so far is delivered too. -/
theorem tunnel_closes (fuel size seconds : ℕ) (conn : Connection) :
    (∀ tr out, Runs Anything [] (tunnel fuel size seconds conn) tr out →
      ∀ pre p size' post, tr = pre ++ ⟨.recv p size', .closed⟩ :: post →
        post = [] ∧ out ≠ .waiting) ∧
    ∀ stream : Peer → Bytes, (stream .client).length + (stream .remote).length < fuel →
      ∀ tr out, Runs (streaming stream) [] (tunnel fuel size seconds conn) tr out →
        (∀ e, out ≠ .raised e) ∧ ∀ conn', out = .returned conn' →
          ∃ p pre size', tr = pre ++ [⟨.recv p size', .closed⟩] ∧ NoneClosed pre ∧
            acceptedBy p.other tr = stream p ∧ acceptedBy p tr = receivedFrom p.other tr ∧
            receivedFrom p.other tr <+: stream p.other := by
  refine ⟨fun tr out hrun pre p size' post htr => ?_, fun stream hfuel tr out hrun => ?_⟩
  · have hcalls := (wp_sound (wp_tunnel_noneClosed fuel size seconds conn) hrun).1
    constructor
    · cases post with
      | nil => rfl
      | cons e post =>
          -- the call of `e` comes after the end of a stream
          obtain ⟨c, r⟩ := e
          have hn : NoneClosed (pre ++ [⟨.recv p size', .closed⟩]) :=
            hcalls (pre ++ _) c r post (htr.trans (List.append_cons ..))
          exact absurd (List.mem_append_right pre List.mem_cons_self) (hn p size')
    · rintro rfl
      obtain ⟨c, hn⟩ := wp_waits (wp_tunnel_noneClosed fuel size seconds conn) hrun
      exact hn p size' (htr ▸ List.mem_append_right pre List.mem_cons_self)
  have hstart : Arriving stream ((stream .client).length + (stream .remote).length) [] :=
    ⟨fun p => rfl, fun p => List.nil_prefix, le_rfl⟩
  have hends : Ends (streaming stream) (fun _ => False) (tunnel fuel size seconds conn)
      (fun _ h => Closed stream h) [] :=
    ends_loop (I := fun n _ h => n < fuel ∧ Arriving stream n h)
      (fun n c h ⟨hn, ha⟩ => ends_mono (ends_tunnelRound size seconds c ha hn) (by
        intro x h' hx
        cases x with
        | inl c' =>
            obtain ⟨n', hlt, ha'⟩ := hx
            exact ⟨n', hlt, by omega, ha'⟩
        | inr c' => exact hx))
      hfuel ⟨hfuel, hstart⟩
  obtain ⟨hraise, hres⟩ := ends_sound hends hrun
  refine ⟨fun e he => hraise e he, fun conn' hout => ?_⟩
  obtain ⟨p, pre, size', rfl, hbal, hall, hother⟩ := hres conn' hout
  have hfirst : NoneClosed pre :=
    (wp_sound (wp_tunnel_noneClosed fuel size seconds conn) hrun).1 pre _ _ [] rfl
  refine ⟨p, pre, size', rfl, hfirst, (hbal p).trans hall, ?_, hother⟩
  have hback := hbal p.other
  rwa [Peer.other_other] at hback

theorem tunnel_closes_run :
    (∀ pre p size' post, oneByteRun = pre ++ ⟨.recv p size', .closed⟩ :: post → post = []) ∧
    ∃ p pre size', oneByteRun = pre ++ [⟨.recv p size', .closed⟩] ∧ NoneClosed pre ∧
      acceptedBy p.other oneByteRun = oneByte p ∧
      acceptedBy p oneByteRun = receivedFrom p.other oneByteRun ∧
      receivedFrom p.other oneByteRun <+: oneByte p.other := by
  have hcloses := tunnel_closes 2 bufferSize 30 idleConnection
  refine ⟨fun pre p size' post htr => ?_, ?_⟩
  · exact (hcloses.1 oneByteRun _ (oneByteRun_runs.mono fun _ _ _ _ => trivial)
      pre p size' post htr).1
  · exact (hcloses.2 oneByte (by decide) oneByteRun _ oneByteRun_runs).2 _ rfl

/-- The client finishes sending while the byte of the remote server is on its way, and the
loop ends without it. -/
lemma exists_halfClosed (size seconds : ℕ) : ∃ tr conn',
    Runs (streaming oneByte) [] (tunnel 2 size seconds idleConnection) tr (.returned conn') ∧
      acceptedBy .client tr ≠ oneByte .remote := by
  refine ⟨[⟨.select seconds, .ready true false rfl⟩, ⟨.recv .client size, .closed⟩],
    idleConnection, .call (by simp [streaming]) (.call rfl (.ret _ _)), ?_⟩
  exact (List.cons_ne_nil _ _).symm

/-- **Half-close loses bytes**, in each of the three loops. -/
theorem halfClose_loses :
    (∃ tr conn',
      Runs (streaming oneByte) [] (tunnel 2 bufferSize 30 idleConnection) tr (.returned conn') ∧
        acceptedBy .client tr ≠ oneByte .remote) ∧
    (∃ tr conn',
      Runs (streaming oneByte) [] (tunnel 2 bufferSize 300 idleConnection) tr (.returned conn') ∧
        acceptedBy .client tr ≠ oneByte .remote) ∧
    ∃ tr conn',
      Runs (streaming oneByte) [] (tunnel 2 512 300 idleConnection) tr (.returned conn') ∧
        acceptedBy .client tr ≠ oneByte .remote :=
  ⟨exists_halfClosed _ _, exists_halfClosed _ _, exists_halfClosed _ _⟩

end ProxyMax
