import ProxyMax.Server.CrossOrigin
import ProxyMax.Server.Relay

/-!
The responses that `http_handle_request` stores in the cache.

* `StoresComplete`: what is stored is all that was received, and the stream of the
  server had ended.
* `Interrupted`, `Buffered`: the relaying is broken off; there is a buffer, and a
  chunk in it.
* `Relaying`, `Ended`: the invariant of the loop that relays a response, and what
  holds after it.
* `storesComplete_iff`: a run stores complete responses only, just when its relaying is
  not broken off with a chunk in the buffer; `reset_stored`: one that stores a part.
-/

namespace ProxyMax

open CString Interaction

/-! ### Observations -/

/-- Every `cache_put` comes right after a `recv` from the server that returned 0, and
stores all the bytes received from it. -/
def StoresComplete (h : Trace) : Prop :=
  ∀ pre key data ttl r post, h = pre ++ ⟨.cachePut key data ttl, r⟩ :: post →
    (∃ size, pre.getLast? = some ⟨.recv .remote size, .closed⟩) ∧ data = receivedFrom .remote pre

/-- A `recv` from the server fails, or a `send` to the client. -/
def breaksOff : Event Reply → Bool
  | ⟨.recv .remote _, .error⟩ => true
  | ⟨.send .client _, .failed⟩ => true
  | _ => false

/-- The buffer for the response is allocated. -/
def givesBuffer : Event Reply → Bool
  | ⟨.malloc _, ok⟩ => ok
  | _ => false

/-- The buffer is not enlarged, and given up. -/
def losesBuffer : Event Reply → Bool
  | ⟨.realloc _, ok⟩ => !ok
  | _ => false

/-- A chunk was relayed, and is counted. -/
def countsChunk : Event Reply → Bool
  | ⟨.statsAddBytesTransferred _, _⟩ => true
  | _ => false

lemma any_snoc {f : Event Reply → Bool} (h : Trace) {e : Event Reply} (he : f e = false) :
    (h ++ [e]).any f = h.any f := by
  simp [he]

lemma any_append_of_false {f : Event Reply → Bool} (h : Trace) {tr : Trace}
    (htr : tr.any f = false) : (h ++ tr).any f = h.any f := by
  rw [List.any_append, htr, Bool.or_false]

/-- The relaying is broken off. -/
def Interrupted (h : Trace) : Prop := h.any breaksOff = true

/-- There is a buffer for the response to the end, and a chunk was put into it. -/
def Buffered (h : Trace) : Prop :=
  h.any givesBuffer = true ∧ h.any losesBuffer = false ∧ h.any countsChunk = true

/-- The cache is not asked to store anything. -/
def Unstored (h : Trace) : Prop := ∀ e ∈ h, ∀ key data ttl, e.1 ≠ .cachePut key data ttl

lemma Unstored.storesComplete {h : Trace} (hu : Unstored h) : StoresComplete h := by
  rintro pre key data ttl r post rfl
  exact absurd rfl (hu ⟨.cachePut key data ttl, r⟩ (by simp) key data ttl)

lemma Unstored.snoc {h : Trace} (hu : Unstored h) {e : Event Reply}
    (he : ∀ key data ttl, e.1 ≠ .cachePut key data ttl) : Unstored (h ++ [e]) := by
  intro e' hmem
  rcases List.mem_append.mp hmem with hmem | hmem
  · exact hu e' hmem
  · rwa [List.mem_singleton.mp hmem]

lemma Unstored.append {h tr : Trace} (hu : Unstored h) (ht : Unstored tr) : Unstored (h ++ tr) :=
  fun e hmem => (List.mem_append.mp hmem).elim (hu e) (ht e)

/-- The only store of a trace is its last event. -/
lemma storesComplete_snoc_iff {h : Trace} (hu : Unstored h) (key data : Bytes) (ttl : ℤ)
    (r : Reply (.cachePut key data ttl)) :
    StoresComplete (h ++ [⟨.cachePut key data ttl, r⟩]) ↔
      (∃ size, h.getLast? = some ⟨.recv .remote size, .closed⟩) ∧
        data = receivedFrom .remote h := by
  constructor
  · intro hs
    exact hs h key data ttl r [] rfl
  · intro hs pre key' data' ttl' r' post heq
    rcases List.eq_nil_or_concat' post with rfl | ⟨post, e, rfl⟩
    · obtain ⟨rfl, hlast⟩ := List.append_inj' heq rfl
      cases hlast
      exact hs
    · rw [← List.cons_append, ← List.append_assoc] at heq
      have hmem : (⟨.cachePut key' data' ttl', r'⟩ : Event Reply) ∈ h := by
        rw [(List.append_inj' heq rfl).1]
        simp
      exact absurd rfl (hu _ hmem key' data' ttl')

/-- What is to be shown of a trace. -/
def Sound (h : Trace) : Prop := StoresComplete h ↔ ¬(Interrupted h ∧ Buffered h)

/-- The call neither allocates the buffer nor stores anything. -/
def Command.Bufferless : Command → Prop
  | .malloc _ => False
  | .cachePut _ _ _ => False
  | _ => True

/-- Without a buffer nothing is stored. -/
lemma sound_of_bufferless {h : Trace} (hh : ∀ e ∈ h, e.1.Bufferless) : Sound h := by
  have hunstored : Unstored h := by
    intro e he key data ttl hc
    have hb := hh e he
    rw [hc] at hb
    exact hb
  have hnone : h.any givesBuffer = false := by
    rw [List.any_eq_false]
    intro e he
    obtain ⟨c, r⟩ := e
    cases c with
    | malloc size => exact absurd (hh _ he) id
    | _ => simp [givesBuffer]
  refine iff_of_true hunstored.storesComplete fun hall => ?_
  rw [hall.2.1] at hnone
  cases hnone

lemma bufferless_snoc {h : Trace} (hh : ∀ e ∈ h, e.1.Bufferless) {c : Command} (hc : c.Bufferless)
    (r : Reply c) : ∀ e ∈ h ++ [(⟨c, r⟩ : Event Reply)], e.1.Bufferless := by
  intro e hmem
  rcases List.mem_append.mp hmem with hmem | hmem
  · exact hh e hmem
  · rwa [List.mem_singleton.mp hmem]

/-! ### Before the response -/

/-- A call that the handler makes before the response is relayed. -/
def Command.Precedes : Command → Prop
  | .recv .client _ => True
  | .send .remote _ => True
  | .connectToHost _ _ => True
  | .authVerify _ _ => True
  | .filterCheckUrl _ => True
  | .cacheGet _ => True
  | .statsIncrementRequests => True
  | _ => False

/-- No response was relayed so far. -/
def Early (h : Trace) : Prop := ∀ e ∈ h, e.1.Precedes

lemma Command.Precedes.bufferless {c : Command} (hc : c.Precedes) : c.Bufferless := by
  cases c with
  | malloc size => exact hc
  | cachePut key data ttl => exact hc
  | _ => trivial

lemma Early.snoc {h : Trace} (he : Early h) {c : Command} (hc : c.Precedes) (r : Reply c) :
    Early (h ++ [⟨c, r⟩]) := by
  intro e hmem
  rcases List.mem_append.mp hmem with hmem | hmem
  · exact he e hmem
  · rwa [List.mem_singleton.mp hmem]

lemma Early.bufferless {h : Trace} (he : Early h) : ∀ e ∈ h, e.1.Bufferless := fun e hmem =>
  (he e hmem).bufferless

/-- Nothing of a response has been seen. -/
lemma Early.any_eq_false {h : Trace} (he : Early h) {f : Event Reply → Bool}
    (hf : ∀ e : Event Reply, e.1.Precedes → f e = false) : h.any f = false :=
  List.any_eq_false.mpr fun e hmem => by simp [hf e (he e hmem)]

lemma not_breaksOff_of_precedes {e : Event Reply} (he : e.1.Precedes) : breaksOff e = false := by
  obtain ⟨c, r⟩ := e
  cases c with
  | recv peer size => cases peer with
    | client => rfl
    | remote => exact absurd he id
  | send peer bytes => cases peer with
    | client => exact absurd he id
    | remote => rfl
  | _ => rfl

lemma not_losesBuffer_of_precedes {e : Event Reply} (he : e.1.Precedes) :
    losesBuffer e = false := by
  obtain ⟨c, r⟩ := e
  cases c with
  | realloc size => exact absurd he id
  | _ => rfl

lemma not_countsChunk_of_precedes {e : Event Reply} (he : e.1.Precedes) :
    countsChunk e = false := by
  obtain ⟨c, r⟩ := e
  cases c with
  | statsAddBytesTransferred bytes => exact absurd he id
  | _ => rfl

lemma receivedFrom_of_early {h : Trace} (he : Early h) : receivedFrom .remote h = [] := by
  refine List.flatMap_eq_nil_iff.mpr fun e hmem => ?_
  have hp := he e hmem
  obtain ⟨c, r⟩ := e
  cases c with
  | recv peer size => cases peer with
    | client => cases r <;> rfl
    | remote => exact absurd hp id
  | _ => rfl

/-! ### The loop -/

/-- Everything received so far is in the buffer; or there is none, and there will be none. -/
def Keeping (response : ResponseBuffer) (h : Trace) : Prop :=
  match response with
  | none => h.any givesBuffer = false ∨ h.any losesBuffer = true
  | some (kept, _) => kept = receivedFrom .remote h ∧ h.any givesBuffer = true ∧
      h.any losesBuffer = false ∧ (h.any countsChunk = true ↔ kept ≠ [])

/-- **The invariant of the loop.** -/
structure Relaying (response : ResponseBuffer) (h : Trace) : Prop where
  unstored : Unstored h
  unbroken : h.any breaksOff = false
  keeping : Keeping response h

/-- **After the loop**: the stream of the server has ended and everything is in the buffer, or
the relaying was broken off. -/
structure Ended (response : ResponseBuffer) (h : Trace) : Prop where
  unstored : Unstored h
  buffered : ∀ kept capacity, response = some (kept, capacity) → (Buffered h ↔ kept ≠ [])
  unbuffered : response = none → ¬Buffered h
  complete : ¬Interrupted h → (∃ size, h.getLast? = some ⟨.recv .remote size, .closed⟩) ∧
    ∀ kept capacity, response = some (kept, capacity) → kept = receivedFrom .remote h
  broken : Interrupted h → ∀ size, h.getLast? ≠ some ⟨.recv .remote size, .closed⟩

lemma keeping_none_not_buffered {h : Trace}
    (hk : h.any givesBuffer = false ∨ h.any losesBuffer = true) : ¬Buffered h := by
  rintro ⟨hgives, hloses, -⟩
  rcases hk with hk | hk
  · rw [hgives] at hk
    cases hk
  · rw [hloses] at hk
    cases hk

/-- The buffer after events that are none of its own. -/
lemma Keeping.buffered {response : ResponseBuffer} {h : Trace} (hk : Keeping response h) :
    (∀ kept capacity, response = some (kept, capacity) → (Buffered h ↔ kept ≠ [])) ∧
      (response = none → ¬Buffered h) := by
  cases response with
  | none => exact ⟨fun _ _ he => by simp at he, fun _ => keeping_none_not_buffered hk⟩
  | some kept =>
      obtain ⟨-, hgives, hloses, hcounts⟩ := hk
      refine ⟨fun kept' capacity he => ?_, fun he => by simp at he⟩
      obtain rfl := Option.some.inj he
      exact ⟨fun hb => hcounts.mp hb.2.2, fun hne => ⟨hgives, hloses, hcounts.mpr hne⟩⟩

/-- **The store after the loop.** -/
lemma Ended.wp_storeResponse {response : ResponseBuffer} {h : Trace} (he : Ended response h)
    (config : HandlerConfig) (request : Request) :
    wp Anything Allowed (storeResponse config request response) (fun _ => Sound) h := by
  cases response with
  | none =>
      exact iff_of_true he.unstored.storesComplete fun hall => he.unbuffered rfl hall.2
  | some kept =>
      obtain ⟨kept, capacity⟩ := kept
      have hiff := he.buffered kept capacity rfl
      rw [storeResponse]
      split
      · rename_i hpos
        have hne : kept ≠ [] := List.length_pos_iff.mp hpos
        simp only [callCachePut, bind_eq, pure_eq, wp_bind, wp_ask, wp_ret]
        refine ⟨trivial, fun r _ => ?_⟩
        rw [Sound, storesComplete_snoc_iff he.unstored, Interrupted, any_snoc h rfl, Buffered,
          any_snoc h rfl, any_snoc h rfl, any_snoc h rfl]
        change _ ↔ ¬(Interrupted h ∧ Buffered h)
        by_cases hbroken : Interrupted h
        · refine iff_of_false ?_ (not_not.mpr ⟨hbroken, hiff.mpr hne⟩)
          rintro ⟨⟨size, hlast⟩, -⟩
          exact he.broken hbroken size hlast
        · obtain ⟨hlast, hall⟩ := he.complete hbroken
          exact iff_of_true ⟨hlast, hall kept capacity rfl⟩ fun hboth => hbroken hboth.1
      · rename_i hpos
        have hnil : kept = [] := List.length_eq_zero_iff.mp (by omega)
        exact iff_of_true he.unstored.storesComplete fun hall => hiff.mp hall.2 hnil

/-- What `send_all` to the client adds to the trace: `send`s, of which one fails just when the
result is negative. -/
structure SentOrFailed (h : Trace) (ret : ℤ) (h' : Trace) : Prop where
  sends : ∃ tr, h' = h ++ tr ∧ (∀ e ∈ tr, e.1.SendsTo .client) ∧
    (tr.any breaksOff = true ↔ ret < 0)

lemma wp_sendClient_outcome (fuel : ℕ) (buffer : Bytes) (h : Trace) :
    wp Anything Allowed (sendAll fuel .client buffer) (SentOrFailed h) h := by
  refine wp_loop (I := fun _ h' => ∃ tr, h' = h ++ tr ∧ (∀ e ∈ tr, e.1.SendsTo .client) ∧
    tr.any breaksOff = false) ?_ fuel ⟨[], (List.append_nil h).symm, by simp, rfl⟩
  rintro total h' ⟨tr, rfl, honly, hunbroken⟩
  split
  · simp only [send, bind_eq, pure_eq, wp_bind, wp_ask]
    refine ⟨trivial, fun r _ => ?_⟩
    have hmore : ∀ e ∈ tr ++ [(⟨.send .client (buffer.drop total), r⟩ : Event Reply)],
        e.1.SendsTo .client := by
      intro e hmem
      rcases List.mem_append.mp hmem with hmem | hmem
      · exact honly e hmem
      · rw [List.mem_singleton.mp hmem]
        exact ⟨_, rfl⟩
    cases r with
    | sent n pos le =>
        exact ⟨_, List.append_assoc .., hmore, by rw [any_snoc tr rfl, hunbroken]⟩
    | again => exact ⟨_, List.append_assoc .., hmore, by rw [any_snoc tr rfl, hunbroken]⟩
    | failed =>
        exact ⟨⟨_, List.append_assoc .., hmore, by simp [breaksOff]⟩⟩
  · exact ⟨⟨tr, rfl, honly, by simp [hunbroken]⟩⟩

/-- The `send`s are none of the buffer. -/
lemma quiet_of_sends {tr : Trace} (honly : ∀ e ∈ tr, e.1.SendsTo .client) :
    tr.any givesBuffer = false ∧ tr.any losesBuffer = false ∧ tr.any countsChunk = false ∧
      receivedFrom .remote tr = [] ∧ Unstored tr := by
  have hquiet : ∀ f : Event Reply → Bool, (∀ bytes r, f ⟨.send .client bytes, r⟩ = false) →
      tr.any f = false := by
    intro f hf
    refine List.any_eq_false.mpr fun e hmem => ?_
    obtain ⟨c, r⟩ := e
    obtain ⟨bytes, rfl⟩ := honly _ hmem
    simp [hf]
  refine ⟨hquiet _ fun _ _ => rfl, hquiet _ fun _ _ => rfl, hquiet _ fun _ _ => rfl, ?_, ?_⟩
  · exact List.flatMap_eq_nil_iff.mpr fun e hmem => received_of_sendsTo (honly e hmem) _
  · intro e hmem key data ttl
    obtain ⟨bytes, hsend⟩ := honly e hmem
    simp [hsend]

/-- A chunk was relayed, and is to be put into the buffer. -/
structure Chunking (response : ResponseBuffer) (chunk : Bytes) (h : Trace) : Prop where
  unstored : Unstored h
  unbroken : h.any breaksOff = false
  counted : h.any countsChunk = true
  keeping : match response with
    | none => h.any givesBuffer = false ∨ h.any losesBuffer = true
    | some (kept, _) => kept ++ chunk = receivedFrom .remote h ∧ h.any givesBuffer = true ∧
        h.any losesBuffer = false

lemma Chunking.wp_keepChunk {response : ResponseBuffer} {chunk : Bytes} {h : Trace}
    (hc : Chunking response chunk h) (hne : chunk ≠ []) :
    wp Anything Allowed (keepChunk response chunk) Relaying h := by
  cases response with
  | none => exact ⟨hc.unstored, hc.unbroken, hc.keeping⟩
  | some kept =>
      obtain ⟨kept, capacity⟩ := kept
      obtain ⟨hunstored, hunbroken, hcounted, hkept, hgives, hloses⟩ := hc
      have hfull : kept ++ chunk ≠ [] := by simp [hne]
      rw [keepChunk]
      split
      · simp only [realloc, bind_eq, pure_eq, wp_bind, wp_ask]
        refine ⟨trivial, fun ok _ => ?_⟩
        have hunstored' := hunstored.snoc (e := ⟨.realloc (addSize capacity capacity), ok⟩)
          fun _ _ _ => by simp
        have hunbroken' : List.any (h ++ [⟨.realloc (addSize capacity capacity), ok⟩]) breaksOff =
            false := (any_snoc h rfl).trans hunbroken
        split
        · rename_i hok
          split
          · trivial
          · refine ⟨hunstored', hunbroken', ?_, ?_, ?_, ?_⟩
            · rw [receivedFrom_snoc, hkept]
              exact (List.append_nil _).symm
            · exact (any_snoc h rfl).trans hgives
            · rw [any_snoc h (by simp [losesBuffer, hok])]
              exact hloses
            · rw [any_snoc h rfl]
              exact iff_of_true hcounted hfull
        · rename_i hok
          refine ⟨hunstored', hunbroken', .inr ?_⟩
          rw [List.any_append, List.any_cons, losesBuffer]
          simp [hok]
      · split
        · trivial
        · exact ⟨hunstored, hunbroken, hkept, hgives, hloses, iff_of_true hcounted hfull⟩

section Round

variable {response : ResponseBuffer} {h tr : Trace}

/-- A receipt, and `send`s after it, do not store, and leave the buffer as it is. -/
lemma Relaying.quiet (hr : Relaying response h) (r : Received bufferSize)
    (honly : ∀ e ∈ tr, e.1.SendsTo .client) :
    Unstored (h ++ [⟨.recv .remote bufferSize, r⟩] ++ tr) ∧
      List.any (h ++ [⟨.recv .remote bufferSize, r⟩] ++ tr) givesBuffer = h.any givesBuffer ∧
      List.any (h ++ [⟨.recv .remote bufferSize, r⟩] ++ tr) losesBuffer = h.any losesBuffer ∧
      List.any (h ++ [⟨.recv .remote bufferSize, r⟩] ++ tr) countsChunk = h.any countsChunk := by
  obtain ⟨hgives, hloses, hcounts, -, hunstored⟩ := quiet_of_sends honly
  have hreceipt : Unstored (h ++ [⟨.recv .remote bufferSize, r⟩]) :=
    hr.unstored.snoc fun _ _ _ => by simp
  exact ⟨hreceipt.append hunstored, (any_append_of_false _ hgives).trans (any_snoc h rfl),
    (any_append_of_false _ hloses).trans (any_snoc h rfl),
    (any_append_of_false _ hcounts).trans (any_snoc h rfl)⟩

/-- They leave what is known of the buffer as it is. -/
lemma Relaying.buffered (hr : Relaying response h) (r : Received bufferSize)
    (honly : ∀ e ∈ tr, e.1.SendsTo .client) :
    (∀ kept capacity, response = some (kept, capacity) →
      (Buffered (h ++ [⟨.recv .remote bufferSize, r⟩] ++ tr) ↔ kept ≠ [])) ∧
      (response = none → ¬Buffered (h ++ [⟨.recv .remote bufferSize, r⟩] ++ tr)) := by
  obtain ⟨-, hgives, hloses, hcounts⟩ := hr.quiet r honly
  have hsame : Buffered (h ++ [⟨.recv .remote bufferSize, r⟩] ++ tr) ↔ Buffered h := by
    rw [Buffered, Buffered, hgives, hloses, hcounts]
  rw [hsame]
  exact hr.keeping.buffered

/-- The server has closed its end. -/
lemma Relaying.ended_closed (hr : Relaying response h) :
    Ended response (h ++ [⟨.recv .remote bufferSize, .closed⟩]) := by
  have hunbroken : ¬Interrupted (h ++ [⟨.recv .remote bufferSize, .closed⟩]) := by
    rw [Interrupted, any_snoc h rfl, hr.unbroken]
    exact Bool.false_ne_true
  have hnone : ∀ e ∈ ([] : Trace), e.1.SendsTo .client := fun _ hmem => nomatch hmem
  obtain ⟨hunstored, -⟩ := hr.quiet .closed hnone
  obtain ⟨hbuffered, hunbuffered⟩ := hr.buffered .closed hnone
  rw [List.append_nil] at hunstored hbuffered hunbuffered
  refine ⟨hunstored, hbuffered, hunbuffered, fun _ => ⟨⟨bufferSize, by simp⟩, ?_⟩,
    fun hbad => absurd hbad hunbroken⟩
  rintro kept capacity rfl
  rw [receivedFrom_snoc, hr.keeping.1]
  exact (List.append_nil _).symm

/-- The receipt has failed. -/
lemma Relaying.ended_error (hr : Relaying response h) :
    Ended response (h ++ [⟨.recv .remote bufferSize, .error⟩]) := by
  have hbroken : Interrupted (h ++ [⟨.recv .remote bufferSize, .error⟩]) := by
    simp [Interrupted, breaksOff]
  have hnone : ∀ e ∈ ([] : Trace), e.1.SendsTo .client := fun _ hmem => nomatch hmem
  obtain ⟨hunstored, -⟩ := hr.quiet .error hnone
  obtain ⟨hbuffered, hunbuffered⟩ := hr.buffered .error hnone
  rw [List.append_nil] at hunstored hbuffered hunbuffered
  refine ⟨hunstored, hbuffered, hunbuffered, fun hgood => absurd hbroken hgood,
    fun _ size hlast => ?_⟩
  rw [List.getLast?_concat] at hlast
  cases hlast

/-- A `send` to the client has failed. -/
lemma Relaying.ended_unsent (hr : Relaying response h) (r : Received bufferSize)
    (honly : ∀ e ∈ tr, e.1.SendsTo .client) (hfailed : tr.any breaksOff = true) :
    Ended response (h ++ [⟨.recv .remote bufferSize, r⟩] ++ tr) := by
  have hbroken : Interrupted (h ++ [⟨.recv .remote bufferSize, r⟩] ++ tr) := by
    rw [Interrupted, List.any_append, hfailed, Bool.or_true]
  obtain ⟨hunstored, -⟩ := hr.quiet r honly
  obtain ⟨hbuffered, hunbuffered⟩ := hr.buffered r honly
  refine ⟨hunstored, hbuffered, hunbuffered, fun hgood => absurd hbroken hgood, fun _ size => ?_⟩
  rcases List.eq_nil_or_concat' tr with rfl | ⟨tr, e, rfl⟩
  · cases hfailed
  · obtain ⟨bytes, hsend⟩ := honly e (by simp)
    rw [← List.append_assoc, List.getLast?_concat, Ne, Option.some.injEq]
    rintro rfl
    simp at hsend

/-- The chunk was sent to the client and counted. -/
lemma Relaying.chunking (hr : Relaying response h) {chunk : Bytes} (pos : 0 < chunk.length)
    (le : chunk.length ≤ bufferSize) (honly : ∀ e ∈ tr, e.1.SendsTo .client)
    (hsent : tr.any breaksOff = false) (r : Reply (.statsAddBytesTransferred chunk.length)) :
    Chunking response chunk (h ++ [⟨.recv .remote bufferSize, .data chunk pos le⟩] ++ tr ++
      [⟨.statsAddBytesTransferred chunk.length, r⟩]) := by
  obtain ⟨hunstored, hgives, hloses, -⟩ := hr.quiet (.data chunk pos le) honly
  obtain ⟨-, -, -, hnothing, -⟩ := quiet_of_sends honly
  have hreceived : receivedFrom .remote
      (h ++ [⟨.recv .remote bufferSize, .data chunk pos le⟩] ++ tr) =
        receivedFrom .remote h ++ chunk := by
    rw [receivedFrom, List.flatMap_append, List.flatMap_eq_nil_iff.mpr
      (List.flatMap_eq_nil_iff.mp hnothing), List.append_nil]
    exact receivedFrom_snoc .remote h _
  have hunbroken : List.any
      (h ++ [⟨.recv .remote bufferSize, .data chunk pos le⟩] ++ tr) breaksOff = false := by
    rw [any_append_of_false _ hsent, any_snoc h rfl, hr.unbroken]
  refine ⟨hunstored.snoc fun _ _ _ => by simp, (any_snoc _ rfl).trans hunbroken,
    by simp [countsChunk], ?_⟩
  have hgives' :=
    (any_snoc _ (e := ⟨.statsAddBytesTransferred chunk.length, r⟩) rfl).trans hgives
  have hloses' :=
    (any_snoc _ (e := ⟨.statsAddBytesTransferred chunk.length, r⟩) rfl).trans hloses
  have hkeeping := hr.keeping
  cases response with
  | none => rwa [hgives', hloses']
  | some kept =>
      obtain ⟨hkept, hgave, hlost, -⟩ := hkeeping
      refine ⟨?_, hgives'.trans hgave, hloses'.trans hlost⟩
      rw [receivedFrom_snoc, hreceived, ← hkept]
      exact (List.append_nil _).symm

/-- **One round of the loop.** -/
lemma Relaying.wp_relayResponseRound (hr : Relaying response h) (fuel : ℕ) (conn : Connection) :
    wp Anything Allowed (relayResponseRound fuel (response, conn))
      (fun x h' => x.elim (fun s => Relaying s.1 h') fun s => Ended s.1 h') h := by
  simp only [relayResponseRound, recv, statsAddBytesTransferred, bind_eq, pure_eq, wp_bind, wp_ask]
  refine ⟨trivial, fun r _ => ?_⟩
  cases r with
  | closed => exact hr.ended_closed
  | error => exact hr.ended_error
  | data chunk pos le =>
      refine (wp_bind _ _ _ _ _ _).mpr (wp_mono (wp_sendClient_outcome fuel chunk _) ?_)
      rintro ret h' ⟨tr, rfl, honly, hfailed⟩
      split
      · rename_i hneg
        exact hr.ended_unsent _ honly (hfailed.mpr hneg)
      · rename_i hpos
        have hsent : tr.any breaksOff = false := Bool.eq_false_iff.mpr fun hbad =>
          hpos (hfailed.mp hbad)
        simp only [wp_bind, wp_ask]
        refine ⟨trivial, fun r _ => ?_⟩
        have hchunk := hr.chunking pos le honly hsent r
        exact wp_mono (hchunk.wp_keepChunk (List.length_pos_iff.mp pos)) fun _ _ hrelay => hrelay

end Round

/-- **The loop.** -/
lemma Relaying.wp_relayResponse {response : ResponseBuffer} {h : Trace}
    (hr : Relaying response h) (fuel : ℕ) (conn : Connection) :
    wp Anything Allowed (relayResponse fuel response conn) (fun s h' => Ended s.1 h') h :=
  wp_loop (I := fun s h' => Relaying s.1 h')
    (fun s _ hr => hr.wp_relayResponseRound fuel s.2) fuel hr

/-! ### The handler -/

section Stages

variable {config : HandlerConfig} {fuel : ℕ} {message : Bytes} {request : Request}
  {conn : Connection} {h : Trace}

lemma sound_bufferless {K : Command → Prop} (hK : ∀ c, K c → c.Bufferless) {α : Type}
    {p : Handler α} (hp : Only K p) (hh : ∀ e ∈ h, e.1.Bufferless) :
    wp Anything Allowed p (fun _ => Sound) h := by
  have hkeep : wp Anything Allowed p (fun _ h' => ∀ e ∈ h', e.1.Bufferless) h :=
    wp_of_only (fun _ _ _ _ => trivial) (fun h' c r hc hh' => bufferless_snoc hh' (hK c hc) r) hp hh
  exact wp_mono hkeep fun _ _ => sound_of_bufferless

lemma Command.SendsTo.bufferless {peer : Peer} {c : Command} (hc : c.SendsTo peer) :
    c.Bufferless := by
  obtain ⟨bytes, rfl⟩ := hc
  trivial

lemma Command.Relays.bufferless {c : Command} (hc : c.Relays) : c.Bufferless := by
  rcases hc with ⟨seconds, rfl⟩ | ⟨peer, size, rfl⟩ | ⟨peer, hsend⟩ | ⟨n, rfl⟩
  · trivial
  · trivial
  · exact hsend.bufferless
  · trivial

lemma Early.wp_refuse (he : Early h) (response : Bytes) (conn : Connection) :
    wp Anything Allowed (refuse fuel response conn) (fun _ => Sound) h :=
  sound_bufferless (fun _ hc => hc.bufferless) (only_refuse fuel response conn) he.bufferless

/-- What a `send_all` before the response adds. -/
lemma Early.wp_sendRemote (he : Early h) (buffer : Bytes) :
    wp Anything Allowed (sendAll fuel .remote buffer) (fun _ => Early) h := by
  refine wp_of_only (fun _ _ _ _ => trivial) (fun h' c r hc he' => he'.snoc ?_ r)
    (only_sendAll fuel .remote buffer) he
  obtain ⟨bytes, rfl⟩ := hc
  trivial

/-- The response, with or without a buffer. -/
lemma Relaying.wp_respond {response : ResponseBuffer} (hr : Relaying response h) :
    wp Anything Allowed
      ((relayResponse fuel response conn).bind fun x =>
        (storeResponse config request x.1).bind fun _ =>
          (Prog.ret ((0 : ℤ), x.2) : Handler (ℤ × Connection))) (fun _ => Sound) h := by
  refine (wp_bind _ _ _ _ _ _).mpr (wp_mono (hr.wp_relayResponse fuel conn) ?_)
  intro x h' he
  exact (wp_bind _ _ _ _ _ _).mpr (he.wp_storeResponse config request)

lemma Early.relaying_none (he : Early h) : Relaying none h := by
  refine ⟨fun e hmem key data ttl hc => ?_,
    he.any_eq_false fun _ => not_breaksOff_of_precedes, .inl ?_⟩
  · have hp := he e hmem
    rw [hc] at hp
    exact hp
  · refine he.any_eq_false fun e hp => ?_
    obtain ⟨c, r⟩ := e
    cases c with
    | malloc size => exact absurd hp id
    | _ => rfl

/-- The buffer for the response is allocated, or it is not. -/
lemma Early.relaying_malloc (he : Early h) (size capacity : ℕ) (ok : Bool) :
    Relaying (if ok then some ([], capacity) else none) (h ++ [⟨.malloc size, ok⟩]) := by
  have hnone := he.relaying_none
  refine ⟨hnone.unstored.snoc fun _ _ _ => by simp, (any_snoc h rfl).trans hnone.unbroken, ?_⟩
  cases ok with
  | false => exact .inl ((any_snoc h rfl).trans (hnone.keeping.resolve_right fun hl => by
      rw [he.any_eq_false fun _ => not_losesBuffer_of_precedes] at hl
      cases hl))
  | true =>
      refine ⟨?_, by simp [givesBuffer], ?_, ?_⟩
      · rw [receivedFrom_snoc, receivedFrom_of_early he]
        rfl
      · exact (any_snoc h rfl).trans (he.any_eq_false fun _ => not_losesBuffer_of_precedes)
      · rw [any_snoc h rfl, he.any_eq_false fun _ => not_countsChunk_of_precedes]
        simp

lemma Early.wp_httpForward (he : Early h) :
    wp Anything Allowed (httpForward config fuel message request conn) (fun _ => Sound) h := by
  simp only [httpForward, connectToHost, bind_eq, pure_eq, wp_bind, wp_ask]
  refine ⟨trivial, fun remoteFd _ => ?_⟩
  have he₁ := he.snoc (c := .connectToHost request.host request.port) trivial remoteFd
  split
  · exact he₁.wp_refuse badGateway _
  · refine (wp_bind _ _ _ _ _ _).mpr (wp_mono (he₁.wp_sendRemote message) ?_)
    intro ret h₂ he₂
    split
    · exact sound_of_bufferless he₂.bufferless
    · split
      · simp only [malloc, wp_bind, wp_ask]
        refine ⟨trivial, fun ok _ => (wp_bind _ _ _ _ _ _).mp ?_⟩
        exact (he₂.relaying_malloc bufferSize bufferSize ok).wp_respond
      · exact he₂.relaying_none.wp_respond

lemma Early.wp_httpFetch (he : Early h) :
    wp Anything Allowed (httpFetch config fuel message request conn) (fun _ => Sound) h := by
  have hanswer : ∀ cached h', Early h' →
      wp Anything Allowed (httpAnswer config fuel message request conn cached)
        (fun _ => Sound) h' := by
    intro cached h' he'
    cases cached with
    | none => exact he'.wp_httpForward
    | some data =>
        exact sound_bufferless (fun _ hc => hc.bufferless)
          (only_bind (only_sendAll fuel .client data) fun _ => trivial) he'.bufferless
  simp only [httpFetch, bind_eq]
  split
  · exact ⟨trivial, fun r _ => hanswer r _ (he.snoc (c := .cacheGet request.url) trivial r)⟩
  · exact hanswer none h he

/-- The branch for `CONNECT` has no buffer. -/
lemma Early.wp_httpConnect (he : Early h) :
    wp Anything Allowed (httpConnect fuel request conn) (fun _ => Sound) h := by
  rw [httpConnect]
  split
  · trivial
  · simp only [connectToHost, bind_eq, pure_eq, wp_bind, wp_ask]
    refine ⟨trivial, fun remoteFd _ => ?_⟩
    have he₁ := he.snoc (c := .connectToHost _ _) trivial remoteFd
    split
    · exact he₁.wp_refuse badGateway _
    · have honly : Only Command.Bufferless
          ((sendAll fuel .client connectionEstablished).bind fun _ =>
            (tunnel fuel bufferSize 300 { conn with remoteFd }).bind fun conn =>
              (Prog.ret ((0 : ℤ), conn) : Handler (ℤ × Connection))) :=
        only_bind (only_mono (only_sendAll fuel .client _) fun _ hc => hc.bufferless) fun _ =>
          only_bind (only_mono (only_tunnel fuel bufferSize 300 _) fun _ hc => hc.bufferless)
            fun _ => trivial
      exact sound_bufferless (fun _ hc => hc) honly he₁.bufferless

lemma Early.wp_httpRoute (he : Early h) :
    wp Anything Allowed (httpRoute config fuel message request conn) (fun _ => Sound) h := by
  have hroute : ∀ (blocked : ℤ) h', Early h' →
      wp Anything Allowed
        (if blocked ≠ 0 then refuse fuel forbidden conn
          else if request.method = ascii "CONNECT" then httpConnect fuel request conn
          else httpFetch config fuel message request conn) (fun _ => Sound) h' := by
    intro blocked h' he'
    split
    · exact he'.wp_refuse forbidden conn
    · split
      · exact he'.wp_httpConnect
      · exact he'.wp_httpFetch
  simp only [httpRoute, bind_eq]
  split
  · exact ⟨trivial, fun r _ => hroute r _ (he.snoc (c := .filterCheckUrl request.url) trivial r)⟩
  · exact hroute 0 h he

lemma Early.wp_httpServe (he : Early h) :
    wp Anything Allowed (httpServe config fuel message request conn) (fun _ => Sound) h := by
  simp only [httpServe, statsIncrementRequests, bind_eq, wp_bind, wp_ask]
  refine ⟨trivial, fun _ _ => ?_⟩
  have he₁ := he.snoc (c := .statsIncrementRequests) trivial ()
  split
  · rw [httpAuthenticate]
    split
    · exact he₁.wp_refuse authRequired conn
    · rename_i username password _
      split
      · trivial
      · simp only [callAuthVerify, bind_eq, pure_eq, wp_bind, wp_ask, wp_ret]
        refine ⟨trivial, fun ret _ => ?_⟩
        have he₂ := he₁.snoc (c := .authVerify username password) trivial ret
        split
        · exact he₂.wp_httpRoute
        · exact he₂.wp_refuse authRequired conn
  · exact he₁.wp_httpRoute

lemma wp_httpHandleRequest_sound (host : Bytes) :
    wp Anything Allowed (httpHandleRequest config fuel host conn) (fun _ => Sound) [] := by
  have he : Early [] := fun e hmem => absurd hmem List.not_mem_nil
  simp only [httpHandleRequest, recv, bind_eq, pure_eq, wp_bind, wp_ask]
  refine ⟨trivial, fun r _ => ?_⟩
  have he₁ := he.snoc (c := .recv .client (bufferSize - 1)) trivial r
  cases r with
  | closed => exact sound_of_bufferless he₁.bufferless
  | error => exact sound_of_bufferless he₁.bufferless
  | data received pos le =>
      dsimp only
      split
      · trivial
      · exact he₁.wp_refuse badRequest conn
      · exact he₁.wp_httpServe

end Stages

/-- **Complete responses.** In every run of the handler that returns, all it stores are complete
responses if and only if the relaying is not broken off, by a `recv` from the server or a `send`
to the client that fails, after a chunk was put into the buffer. -/
theorem storesComplete_iff (config : HandlerConfig) (fuel : ℕ) (host : Bytes) (conn : Connection)
    (tr : Trace) (x : ℤ × Connection)
    (hrun : Runs Anything [] (httpHandleRequest config fuel host conn) tr (.returned x)) :
    StoresComplete tr ↔ ¬(Interrupted tr ∧ Buffered tr) :=
  (wp_sound (wp_httpHandleRequest_sound host) hrun).2 x rfl

/-- The response is one byte, and the stream of the server ends after it. -/
def completeRun : Trace × Outcome Fault (ℤ × Connection) :=
  cachingRun (getRequest "/x" "a") [[65]] none

theorem storesComplete_iff_complete : StoresComplete completeRun.1 := by
  have hret : completeRun.2 = .returned (0, ⟨[], 4, 28, 1, 0⟩) := by decide +kernel
  have hrun : Runs Anything [] (httpHandleRequest cachingConfig 2 [] ⟨[], -1, 0, 0, 0⟩)
      completeRun.1 completeRun.2 := play_runs (fun _ _ => trivial) _ _
  rw [hret] at hrun
  refine (storesComplete_iff cachingConfig 2 [] _ _ _ hrun).mpr fun hboth => ?_
  have hunbroken : completeRun.1.any breaksOff = false := by decide +kernel
  exact Bool.false_ne_true (hunbroken.symm.trans hboth.1)

/-- The answers of a script, of a server that resets its connection where it would close it. -/
def resettingReply (script : Script) (h : Trace) : (c : Command) → Reply c
  | .recv .remote size =>
      match script.reply ⟨[], ⟨[], [], [], []⟩⟩ h (.recv .remote size) with
      | .data bytes pos le => .data bytes pos le
      | _ => .error
  | c => script.reply ⟨[], ⟨[], [], [], []⟩⟩ h c

/-- The connection to the server is reset after the first byte of the response. -/
def resetRun : Trace × Outcome Fault (ℤ × Connection) :=
  play (resettingReply ⟨[getRequest "/x" "a"], [[65]], fun _ => none⟩) []
    (httpHandleRequest cachingConfig 2 [] ⟨[], -1, 0, 0, 0⟩)

/-- **A truncated response is stored.** -/
theorem reset_stored : ∃ tr x,
    Runs Anything [] (httpHandleRequest cachingConfig 2 [] ⟨[], -1, 0, 0, 0⟩) tr (.returned x) ∧
      (⟨.cachePut (ascii "/x") [65] 60, (0 : ℤ)⟩ : Event Reply) ∈ tr ∧
      (⟨.recv .remote bufferSize, .error⟩ : Event Reply) ∈ tr ∧ ¬StoresComplete tr := by
  have hret : resetRun.2 = .returned (0, ⟨[], 4, 28, 1, 0⟩) := by decide +kernel
  have hrun : Runs Anything [] (httpHandleRequest cachingConfig 2 [] ⟨[], -1, 0, 0, 0⟩)
      resetRun.1 resetRun.2 := play_runs (fun _ _ => trivial) _ _
  rw [hret] at hrun
  refine ⟨resetRun.1, _, hrun, by decide +kernel, by decide +kernel, fun hcomplete => ?_⟩
  have hput : resetRun.1 = resetRun.1.dropLast ++
      ⟨.cachePut (ascii "/x") [65] 60, (0 : ℤ)⟩ :: [] := by
    decide +kernel
  have hlast : resetRun.1.dropLast.getLast? = some ⟨.recv .remote bufferSize, .error⟩ := by
    decide +kernel
  obtain ⟨⟨size, hclosed⟩, -⟩ := hcomplete _ _ _ _ _ _ hput
  rw [hlast, Option.some.injEq, Sigma.mk.injEq] at hclosed
  obtain ⟨hcommand, hreply⟩ := hclosed
  cases hcommand
  cases hreply

end ProxyMax
