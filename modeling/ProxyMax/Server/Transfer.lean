import ProxyMax.Server.Streams

/-!
`recv_all` of `src/utils/network.c`, and what it receives of what `send_all` sends.

* `ReceiverCall`, `Arrived`, `recvAll`: the code.
* `arrivedIn`: the bytes that a trace receives; `Ended` are the answers that end `recv_all` early.
* `wp_recvAll`: what `recv_all` does with its buffer, and when it returns.
* `sendMessages`, `recvMessages`: messages one after another.
* `transfer_framed`: whatever the pieces are, the messages come out as they were.
-/

namespace ProxyMax.Transfer

open CString Interaction

/-! ### The code -/

/-- The calls of `recv_all`. -/
inductive ReceiverCall where
  | setsockopt (seconds : ℤ)
  | recv (size : ℕ)

/-- What its `recv` gives: up to `size` bytes, the end of the stream, or an error, which is either
`EAGAIN` or another one. A timeout that passes is `EAGAIN`. -/
inductive Arrived (size : ℕ) where
  | data (bytes : Bytes) (pos : 0 < bytes.length) (le : bytes.length ≤ size)
  | closed
  | again
  | failed

/-- What a call returns. -/
abbrev Answer : ReceiverCall → Type
  | .setsockopt _ => ℤ
  | .recv size => Arrived size

/-- A program that receives. -/
abbrev Receiver := Prog ReceiverCall Answer Fault

/-- The loop of `recv_all`, for at most `fuel` calls of `recv`; the bytes are what is written to
the buffer. -/
def recvLoop (fuel length : ℕ) : Receiver (ℤ × Bytes) :=
  Prog.loop Fault.outOfFuel
    (fun (buffer : Bytes) =>
      if buffer.length < length then do
        match ← ask (ReceiverCall.recv (length - buffer.length)) with
        | .data bytes _ _ => pure (.inl (buffer ++ bytes))
        | .closed => pure (.inr ((buffer.length : ℤ), buffer))
        | .again => pure (.inl buffer)
        | .failed => pure (.inr (-1, buffer))
      else pure (.inr ((buffer.length : ℤ), buffer)))
    fuel []

/-- `recv_all`. -/
def recvAll (fuel length : ℕ) (timeout : ℤ) : Receiver (ℤ × Bytes) :=
  if 0 < timeout then do
    let _ ← ask (ReceiverCall.setsockopt timeout)
    recvLoop fuel length
  else recvLoop fuel length

/-! ### What is received -/

/-- The bytes that an event receives. -/
def arrivedBy : Event Answer → Bytes
  | ⟨.recv _, .data bytes _ _⟩ => bytes
  | _ => []

/-- The bytes that a trace receives. -/
def arrivedIn (h : List (Event Answer)) : Bytes := h.flatMap arrivedBy

lemma arrivedIn_snoc (h : List (Event Answer)) (e : Event Answer) :
    arrivedIn (h ++ [e]) = arrivedIn h ++ arrivedBy e := by
  simp [arrivedIn]

/-- The answers that end `recv_all` before the buffer is full. -/
def Ended : Event Answer → Prop
  | ⟨.recv _, .closed⟩ => True
  | ⟨.recv _, .failed⟩ => True
  | _ => False

/-- From `h` to `h'` a buffer of `length` bytes is filled with `bytes` so far, and nothing has ended
this. -/
def Filled (length : ℕ) (bytes : Bytes) (h h' : List (Event Answer)) : Prop :=
  bytes.length ≤ length ∧
    ∃ tr, h' = h ++ tr ∧ arrivedIn tr = bytes ∧ ∀ e ∈ tr, ¬ Ended e

lemma Filled.start (length : ℕ) (h : List (Event Answer)) : Filled length [] h h :=
  ⟨Nat.zero_le _, [], (List.append_nil h).symm, rfl, by simp⟩

lemma Filled.snoc {length : ℕ} {bytes : Bytes} {h h' : List (Event Answer)} {e : Event Answer}
    (hf : Filled length bytes h h') (hle : (bytes ++ arrivedBy e).length ≤ length)
    (he : ¬ Ended e) : Filled length (bytes ++ arrivedBy e) h (h' ++ [e]) := by
  obtain ⟨-, tr, rfl, rfl, hopen⟩ := hf
  refine ⟨hle, tr ++ [e], List.append_assoc .., arrivedIn_snoc tr e, fun x hx => ?_⟩
  rcases List.mem_append.mp hx with hx | hx
  · exact hopen x hx
  · exact List.mem_singleton.mp hx ▸ he

/-- An event that receives nothing. -/
lemma Filled.idle {length : ℕ} {bytes : Bytes} {h h' : List (Event Answer)} {e : Event Answer}
    (hf : Filled length bytes h h') (hidle : arrivedBy e = []) (he : ¬ Ended e) :
    Filled length bytes h (h' ++ [e]) := by
  have hle : (bytes ++ arrivedBy e).length ≤ length := by
    rw [hidle, List.append_nil]
    exact hf.1
  have hsnoc := hf.snoc hle he
  rwa [hidle, List.append_nil] at hsnoc

/-- A result of `recv_all`: the buffer is full, or the last event has ended it, with the end of the
stream or an error. -/
def Received (length : ℕ) (r : ℤ × Bytes) (h h' : List (Event Answer)) : Prop :=
  (r.1 = length ∧ r.2.length = length ∧ Filled length r.2 h h') ∨
    ∃ pre e, h' = pre ++ [e] ∧ Filled length r.2 h pre ∧ r.2.length < length ∧ Ended e ∧
      (r.1 = r.2.length ∨ r.1 = -1)

section Receiving

variable {env : List (Event Answer) → (c : ReceiverCall) → Answer c → Prop}
  {G : List (Event Answer) → ReceiverCall → Prop} {length : ℕ} {h : List (Event Answer)}

/-- The loop, begun after events that receive nothing. -/
lemma wp_recvLoop
    (hG : ∀ bytes h', Filled length bytes h h' → bytes.length < length →
      G h' (.recv (length - bytes.length)))
    (fuel : ℕ) {h₁ : List (Event Answer)} (hstart : Filled length [] h h₁) :
    wp env G (recvLoop fuel length) (fun r h' => Received length r h h') h₁ := by
  refine wp_loop (I := fun buffer h' => Filled length buffer h h') ?_ fuel hstart
  intro buffer h' hfilled
  split
  · rename_i hroom
    simp only [bind_eq, pure_eq, wp_bind, wp_ask]
    refine ⟨hG buffer h' hfilled hroom, fun r _ => ?_⟩
    cases r with
    | data bytes pos le =>
        have hle : (buffer ++ bytes).length ≤ length := by
          rw [List.length_append]
          omega
        exact hfilled.snoc (e := ⟨.recv _, .data bytes pos le⟩) hle not_false
    | closed => exact .inr ⟨h', _, rfl, hfilled, hroom, trivial, .inl rfl⟩
    | again => exact hfilled.idle rfl not_false
    | failed => exact .inr ⟨h', _, rfl, hfilled, hroom, trivial, .inr rfl⟩
  · rename_i hfull
    have hlen : buffer.length = length := le_antisymm hfilled.1 (not_lt.mp hfull)
    exact .inl ⟨congrArg Nat.cast hlen, hlen, hfilled⟩

/-- **What `recv_all` receives.** -/
lemma wp_recvAll
    (hG : ∀ bytes h', Filled length bytes h h' → bytes.length < length →
      G h' (.recv (length - bytes.length)))
    (hset : ∀ seconds, G h (.setsockopt seconds)) (fuel : ℕ) (timeout : ℤ) :
    wp env G (recvAll fuel length timeout) (fun r h' => Received length r h h') h := by
  rw [recvAll]
  split
  · simp only [bind_eq, wp_bind, wp_ask]
    refine ⟨hset timeout, fun r _ => wp_recvLoop hG fuel ?_⟩
    exact (Filled.start length h).idle rfl not_false
  · exact wp_recvLoop hG fuel (Filled.start length h)

end Receiving

/-! ### Messages -/

/-- The messages are sent one after another, until one fails. -/
def sendMessages (fuel : ℕ) : List Bytes → Handler Unit
  | [] => pure ()
  | message :: messages => do
      let ret ← sendAll fuel .remote message
      if ret < 0 then pure () else sendMessages fuel messages

/-- Messages of known lengths are received one after another. -/
def recvMessages (fuel : ℕ) (timeout : ℤ) : List ℕ → Receiver (List (ℤ × Bytes))
  | [] => pure []
  | length :: lengths => do
      let result ← recvAll fuel length timeout
      let results ← recvMessages fuel timeout lengths
      pure (result :: results)

/-- A call that sends what comes next in the stream. -/
def SendsNext (stream : Bytes) (h : Trace) (c : Command) : Prop :=
  ∃ bytes, c = .send .remote bytes ∧ acceptedBy .remote h ++ bytes <+: stream

/-- **The sender** keeps to the stream of its messages. -/
lemma wp_sendMessages {env : Trace → (c : Command) → Reply c → Prop} {stream : Bytes} (fuel : ℕ)
    (messages : List Bytes) {h : Trace}
    (hstream : acceptedBy .remote h ++ messages.flatten = stream) :
    wp env (SendsNext stream) (sendMessages fuel messages) (fun _ _ => True) h := by
  induction messages generalizing h with
  | nil => trivial
  | cons message messages ih =>
      rw [List.flatten_cons] at hstream
      simp only [sendMessages, bind_eq, pure_eq, wp_bind]
      refine wp_mono (wp_sendAll (fun k h' _ hsent => ?_) fuel) fun ret h' hret => ?_
      · refine ⟨_, rfl, messages.flatten, ?_⟩
        rw [hsent.acceptedBy_eq, List.append_assoc (acceptedBy .remote h), List.take_append_drop,
          List.append_assoc, hstream]
      · obtain ⟨k, -, hfull, hsent⟩ := hret
        split
        · trivial
        · rename_i hok
          obtain rfl := hfull.mp (not_lt.mp hok)
          rw [List.take_length] at hsent
          refine ih ?_
          rw [hsent.acceptedBy_eq, List.append_assoc, hstream]

/-- What is accepted is a part of the stream, at every point. -/
lemma acceptedBy_isPrefix {env : Trace → (c : Command) → Reply c → Prop} {fuel : ℕ}
    {messages : List Bytes} {tr : Trace} {out : Outcome Fault Unit}
    (hrun : Runs env [] (sendMessages fuel messages) tr out) :
    acceptedBy .remote tr <+: messages.flatten := by
  have hguard := (wp_sound (wp_sendMessages fuel messages rfl) hrun).1
  induction tr using List.reverseRecOn with
  | nil => exact List.nil_prefix
  | append_singleton tr e _ =>
      obtain ⟨c, r⟩ := e
      obtain ⟨bytes, rfl, hnext⟩ := hguard tr c r [] rfl
      rw [List.nil_append] at hnext
      rw [acceptedBy_snoc, accepted_send]
      exact ((List.prefix_append_right_inj _).mpr (List.take_prefix ..)).trans hnext

lemma arrivedBy_of_ended {e : Event Answer} (he : Ended e) : arrivedBy e = [] := by
  obtain ⟨c, r⟩ := e
  cases c with
  | setsockopt seconds => exact absurd he not_false
  | recv size => cases r <;> first | rfl | exact absurd he not_false

/-- What a result of `recv_all` has received, and that it is all that was asked for where nothing
has ended it. -/
lemma Received.events {length : ℕ} {r : ℤ × Bytes} {h h' : List (Event Answer)}
    (hr : Received length r h h') :
    ∃ tr, h' = h ++ tr ∧ arrivedIn tr = r.2 ∧ r.2.length ≤ length ∧
      ((∀ e ∈ tr, ¬ Ended e) → r.1 = length ∧ r.2.length = length) := by
  rcases hr with ⟨hret, hlen, -, tr, rfl, harrived, -⟩ | ⟨pre, e, rfl, hfilled, -, he, -⟩
  · exact ⟨tr, rfl, harrived, hlen.le, fun _ => ⟨hret, hlen⟩⟩
  · obtain ⟨hle, tr, rfl, harrived, -⟩ := hfilled
    refine ⟨tr ++ [e], List.append_assoc .., ?_, hle, fun hopen => absurd he (hopen e (by simp))⟩
    rw [arrivedIn_snoc, arrivedBy_of_ended he, List.append_nil, harrived]

/-- A `recv` for a part of what is left of the messages. -/
def AsksWithin (total : ℕ) (h : List (Event Answer)) (c : ReceiverCall) : Prop :=
  ∀ size, c = .recv size → 0 < size ∧ (arrivedIn h).length + size ≤ total

/-- **The receiver** collects what arrives, and asks for no more than its messages. -/
lemma wp_recvMessages {env : List (Event Answer) → (c : ReceiverCall) → Answer c → Prop}
    {total : ℕ} (fuel : ℕ) (timeout : ℤ) (lengths : List ℕ) {h : List (Event Answer)}
    (htotal : (arrivedIn h).length + lengths.sum ≤ total) :
    wp env (AsksWithin total) (recvMessages fuel timeout lengths) (fun results h' =>
      ∃ tr, h' = h ++ tr ∧ arrivedIn tr = (results.map Prod.snd).flatten ∧
        ((∀ e ∈ tr, ¬ Ended e) → results.map Prod.fst = lengths.map Nat.cast ∧
          results.map (fun r => r.2.length) = lengths)) h := by
  induction lengths generalizing h with
  | nil => exact ⟨[], (List.append_nil h).symm, rfl, fun _ => ⟨rfl, rfl⟩⟩
  | cons length lengths ih =>
      rw [List.sum_cons] at htotal
      simp only [recvMessages, bind_eq, pure_eq, wp_bind]
      refine wp_mono (wp_recvAll ?_ (fun seconds size hsize => by cases hsize) fuel timeout) ?_
      · rintro bytes h' ⟨-, tr, rfl, rfl, -⟩ hroom size hsize
        obtain rfl := ReceiverCall.recv.inj hsize
        refine ⟨by omega, ?_⟩
        rw [arrivedIn, List.flatMap_append, List.length_append]
        change (arrivedIn h).length + (arrivedIn tr).length + _ ≤ total
        omega
      intro r h' hr
      obtain ⟨tr, rfl, harrived, hle, hfull⟩ := hr.events
      have hmore : (arrivedIn (h ++ tr)).length + lengths.sum ≤ total := by
        rw [arrivedIn, List.flatMap_append, List.length_append]
        change (arrivedIn h).length + (arrivedIn tr).length + _ ≤ total
        rw [harrived]
        omega
      rw [wp_bind]
      refine wp_mono (ih hmore) ?_
      rintro results h' ⟨tr', rfl, harrived', hfull'⟩
      refine ⟨tr ++ tr', List.append_assoc .., ?_, fun hopen => ?_⟩
      · rw [List.map_cons, List.flatten_cons, ← harrived', ← harrived, arrivedIn,
          List.flatMap_append]
        rfl
      · obtain ⟨hret, hlen⟩ := hfull fun e he => hopen e (List.mem_append_left _ he)
        obtain ⟨hrets, hlens⟩ := hfull' fun e he => hopen e (List.mem_append_right _ he)
        exact ⟨by rw [List.map_cons, List.map_cons, hret, hrets],
          by rw [List.map_cons, hlen, hlens]⟩

/-- **Messages come out as they were.** One side sends messages with `send_all`, the other receives
as many with `recv_all`, each with the length of its message, and the stream between them gives the
bytes that were accepted, in order and no others. Whatever pieces it comes in, and however often
either side finds it not ready or its timeout has passed, the receiver has a part of the messages
from their start; and where no error and no end of the stream comes, it has each message, neither
cut nor joined with the next. No `recv` asks for more than is left of the messages. -/
theorem transfer_framed (messages : List Bytes) (fuel fuel' : ℕ) (timeout : ℤ)
    (env : Trace → (c : Command) → Reply c → Prop)
    (env' : List (Event Answer) → (c : ReceiverCall) → Answer c → Prop) (tr : Trace)
    (out : Outcome Fault Unit) (tr' : List (Event Answer)) (results : List (ℤ × Bytes))
    (hsend : Runs env [] (sendMessages fuel messages) tr out)
    (hrecv : Runs env' [] (recvMessages fuel' timeout (messages.map List.length)) tr'
      (.returned results))
    (hstream : arrivedIn tr' <+: acceptedBy .remote tr) :
    (results.map Prod.snd).flatten <+: messages.flatten ∧
      ((∀ e ∈ tr', ¬ Ended e) → results = messages.map fun m => ((m.length : ℤ), m)) ∧
      ∀ pre size r post, tr' = pre ++ ⟨.recv size, r⟩ :: post →
        0 < size ∧ (arrivedIn pre).length + size ≤ messages.flatten.length := by
  have htotal : (arrivedIn []).length + (messages.map List.length).sum ≤
      messages.flatten.length := by simp [arrivedIn, List.length_flatten]
  obtain ⟨hguard, hres⟩ := wp_sound (wp_recvMessages fuel' timeout _ htotal) hrecv
  obtain ⟨tr'', htr, harrived, hfull⟩ := hres results rfl
  rw [List.nil_append, List.nil_append] at htr
  subst htr
  have hpart := hstream.trans (acceptedBy_isPrefix hsend)
  rw [harrived] at hpart
  refine ⟨hpart, fun hopen => ?_, fun pre size r post htr => hguard pre _ r post htr size rfl⟩
  obtain ⟨hrets, hlens⟩ := hfull hopen
  have hlengths : (results.map Prod.snd).map List.length = messages.map List.length := by
    rw [List.map_map]
    exact hlens
  have hmessages : results.map Prod.snd = messages := by
    refine List.eq_iff_flatten_eq.mpr ⟨hpart.eq_of_length ?_, hlengths⟩
    rw [List.length_flatten, List.length_flatten, hlengths]
  refine List.ext_getElem? fun i => ?_
  have hfst := congrArg (·[i]?) hrets
  have hsnd := congrArg (·[i]?) hmessages
  simp only [List.getElem?_map] at hfst hsnd ⊢
  rw [← hsnd] at hfst ⊢
  cases hi : results[i]? with
  | none => rfl
  | some r =>
      rw [hi] at hfst
      exact congrArg some (Prod.ext (Option.some.inj hfst) rfl)

/-- Two messages are accepted as they are. -/
lemma twoSent : Runs (fun _ _ _ => True) [] (sendMessages 8 [[1, 2], [3]])
    [⟨.send .remote [1, 2], .sent 2 (by decide) (by decide)⟩,
      ⟨.send .remote [3], .sent 1 (by decide) (by decide)⟩] (.returned ()) :=
  .call trivial (.call trivial (.ret _ _))

/-- They come in three pieces, after a timeout. -/
def threePieces : List (Event Answer) :=
  [⟨.setsockopt 5, (0 : ℤ)⟩, ⟨.recv 2, .again⟩, ⟨.recv 2, .data [1] (by decide) (by decide)⟩,
    ⟨.recv 1, .data [2] (by decide) (by decide)⟩, ⟨.setsockopt 5, (0 : ℤ)⟩,
    ⟨.recv 1, .data [3] (by decide) (by decide)⟩]

/-- They are received as the two messages. -/
theorem transfer_framed_pieces :
    ∃ results, Runs (fun _ _ _ => True) [] (recvMessages 8 5 [2, 1]) threePieces
        (.returned results) ∧ results = [(2, [1, 2]), (1, [3])] := by
  have hrecv : Runs (fun _ _ _ => True) [] (recvMessages 8 5 [2, 1]) threePieces
      (.returned [(2, [1, 2]), (1, [3])]) :=
    .call trivial (.call trivial (.call trivial (.call trivial (.call trivial (.call trivial
      (.ret _ _))))))
  have hopen : ∀ e ∈ threePieces, ¬ Ended e := by simp [threePieces, Ended]
  exact ⟨_, hrecv, (transfer_framed [[1, 2], [3]] 8 8 5 _ _ _ _ threePieces _ twoSent hrecv
    (by decide)).2.1 hopen⟩

end ProxyMax.Transfer
