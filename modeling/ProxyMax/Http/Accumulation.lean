import ProxyMax.Http.Handler
import ProxyMax.Server.Streams

/-!
The buffer in which `http_handle_request` keeps a response.

* `chunks`, `fullySent`: the chunks that the server sent, and those of them that the client
  took in full.
* `MemoryBelow`: the allocator gives no block of as many bytes.
* `Accumulates`: the buffer holds the chunks that were fully sent, they fit, and a single
  doubling makes room for one more.
* `relayResponse_accumulates`: this holds whenever a round of the loop begins and when the loop
  ends, and nothing is copied beyond the capacity.
-/

namespace ProxyMax

open CString Interaction

/-! ### The chunks -/

/-- The chunk that an event receives from the server. -/
def chunkOf : Event Reply → List Bytes
  | ⟨.recv .remote _, .data bytes _ _⟩ => [bytes]
  | _ => []

/-- The chunks received from the server. -/
def chunks (h : Trace) : List Bytes := h.flatMap chunkOf

/-- Those of the chunks, from the first on, that the bytes hold in full. -/
def wholeChunks : List Bytes → Bytes → List Bytes
  | [], _ => []
  | chunk :: rest, bytes =>
      if chunk.isPrefixOf bytes then chunk :: wholeChunks rest (bytes.drop chunk.length) else []

/-- The chunks that were fully sent to the client. -/
def fullySent (h : Trace) : List Bytes := wholeChunks (chunks h) (acceptedBy .client h)

lemma wholeChunks_append (cs ds : List Bytes) (bytes : Bytes) :
    wholeChunks (cs ++ ds) (cs.flatten ++ bytes) = cs ++ wholeChunks ds bytes := by
  induction cs with
  | nil => rfl
  | cons chunk cs ih =>
      have hprefix : chunk.isPrefixOf ((chunk :: cs).flatten ++ bytes) := by
        rw [List.isPrefixOf_iff_prefix, List.flatten_cons, List.append_assoc]
        exact List.prefix_append _ _
      rw [List.cons_append, wholeChunks, if_pos hprefix, List.flatten_cons, List.append_assoc,
        List.drop_left, ih, List.cons_append]

lemma wholeChunks_flatten (cs : List Bytes) : wholeChunks cs cs.flatten = cs := by
  have h := wholeChunks_append cs [] []
  rwa [List.append_nil, List.append_nil, wholeChunks, List.append_nil] at h

/-- A chunk of which a part is missing is not whole. -/
lemma wholeChunks_partial (cs : List Bytes) {chunk : Bytes} {k : ℕ} (hk : k < chunk.length) :
    wholeChunks (cs ++ [chunk]) (cs.flatten ++ chunk.take k) = cs := by
  have hno : ¬chunk.isPrefixOf (chunk.take k) := by
    rw [List.isPrefixOf_iff_prefix]
    intro hprefix
    have hle := hprefix.length_le
    rw [List.length_take] at hle
    omega
  rw [wholeChunks_append, wholeChunks, if_neg hno, List.append_nil]

lemma chunks_snoc (h : Trace) (e : Event Reply) : chunks (h ++ [e]) = chunks h ++ chunkOf e := by
  simp [chunks]

lemma SentTo.chunks_eq {dst : Peer} {bytes : Bytes} {h h' : Trace} (hs : SentTo dst bytes h h') :
    chunks h' = chunks h := by
  refine hs.flatMap_eq _ fun e he => ?_
  obtain ⟨c, r⟩ := e
  obtain ⟨bytes, rfl⟩ := he
  rfl

/-! ### The buffer -/

/-- The environment, with an allocator that never gives `limit` bytes or more. Everything else
can happen, and the allocator can refuse at any time. -/
def MemoryBelow (limit : ℕ) (_ : Trace) : (c : Command) → Reply c → Prop
  | .realloc size, ok => ok = true → size < limit
  | _, _ => True

/-- The buffer at the beginning of the loop. -/
def initialBuffer (allocated : Bool) : ResponseBuffer :=
  if allocated then some ([], bufferSize) else none

/-- **The buffer and what was sent**: its bytes are those of the chunks, in order, and they fit;
it is never smaller than a chunk can be, and its size can be doubled as a `size_t`. -/
structure Accumulates (response : ResponseBuffer) (sent : List Bytes) : Prop where
  kept_eq : ∀ kept capacity, response = some (kept, capacity) → kept = sent.flatten
  fits : ∀ kept capacity, response = some (kept, capacity) → kept.length ≤ capacity
  least : ∀ kept capacity, response = some (kept, capacity) → bufferSize ≤ capacity
  below : ∀ kept capacity, response = some (kept, capacity) → capacity < 2 ^ 63

/-- A single doubling of the capacity makes room for any chunk. -/
def DoublingSuffices (response : ResponseBuffer) : Prop :=
  ∀ kept capacity, response = some (kept, capacity) →
    ∀ n ≤ bufferSize, kept.length + n ≤ addSize capacity capacity

lemma accumulates_none (sent : List Bytes) : Accumulates none sent where
  kept_eq _ _ h := by simp at h
  fits _ _ h := by simp at h
  least _ _ h := by simp at h
  below _ _ h := by simp at h

lemma accumulates_some {kept : Bytes} {capacity : ℕ} {sent : List Bytes}
    (hkept : kept = sent.flatten) (hfits : kept.length ≤ capacity) (hleast : bufferSize ≤ capacity)
    (hbelow : capacity < 2 ^ 63) : Accumulates (some (kept, capacity)) sent := by
  constructor <;> rintro kept' capacity' h <;> obtain ⟨rfl, rfl⟩ := Prod.mk.inj (Option.some.inj h)
  · exact hkept
  · exact hfits
  · exact hleast
  · exact hbelow

lemma accumulates_initial (allocated : Bool) : Accumulates (initialBuffer allocated) [] := by
  cases allocated with
  | false => exact accumulates_none []
  | true => exact accumulates_some rfl (Nat.zero_le _) le_rfl (by decide)

/-- The doubled capacity. -/
lemma addSize_self {capacity : ℕ} (h : capacity < 2 ^ 63) :
    addSize capacity capacity = 2 * capacity := by
  rw [addSize, sizeMod, Nat.mod_eq_of_lt (by omega)]
  omega

lemma Accumulates.doublingSuffices {response : ResponseBuffer} {sent : List Bytes}
    (ha : Accumulates response sent) : DoublingSuffices response := by
  intro kept capacity h n hn
  have hfits := ha.fits kept capacity h
  have hleast := ha.least kept capacity h
  rw [addSize_self (ha.below kept capacity h)]
  omega

/-- The trace so far has received and sent what `h` has. -/
structure SameChunks (h h' : Trace) : Prop where
  chunks_eq : chunks h' = chunks h
  accepted_eq : acceptedBy .client h' = acceptedBy .client h

lemma SameChunks.snoc (h : Trace) {e : Event Reply} (hchunk : chunkOf e = [])
    (haccepted : accepted .client e = []) : SameChunks h (h ++ [e]) where
  chunks_eq := by rw [chunks_snoc, hchunk, List.append_nil]
  accepted_eq := by rw [acceptedBy_snoc, haccepted, List.append_nil]

/-- **A chunk is kept**, within the capacity, or the buffer is given up. -/
lemma Accumulates.ends_keepChunk {response : ResponseBuffer} {sent : List Bytes} {chunk : Bytes}
    (ha : Accumulates response sent) (hle : chunk.length ≤ bufferSize) (h : Trace) :
    Ends (MemoryBelow (2 ^ 63)) (· ≠ Fault.overrun) (keepChunk response chunk)
      (fun r h' => Accumulates r (sent ++ [chunk]) ∧ SameChunks h h') h := by
  cases response with
  | none => exact ⟨accumulates_none _, rfl, rfl⟩
  | some buffer =>
      obtain ⟨kept, capacity⟩ := buffer
      have hfits := ha.fits kept capacity rfl
      have hleast := ha.least kept capacity rfl
      have hbelow := ha.below kept capacity rfl
      have hkept : kept ++ chunk = (sent ++ [chunk]).flatten := by
        rw [ha.kept_eq kept capacity rfl, List.flatten_append, List.flatten_singleton]
      have hroom : addSize kept.length chunk.length = kept.length + chunk.length := by
        rw [addSize, Nat.mod_eq_of_lt]
        simp only [bufferSize, sizeMod] at *
        omega
      have hdouble := ha.doublingSuffices kept capacity rfl chunk.length hle
      rw [addSize_self hbelow] at hdouble
      rw [keepChunk, hroom, addSize_self hbelow]
      split
      · simp only [realloc, bind_eq, pure_eq, ends_bind, ends_ask]
        intro ok hok
        have hsame : SameChunks h (h ++ [⟨.realloc (2 * capacity), ok⟩]) := .snoc h rfl rfl
        split
        · rename_i hgiven
          rw [if_neg (by omega)]
          refine ⟨accumulates_some hkept ?_ (by omega) (hok hgiven), hsame⟩
          rw [List.length_append]
          omega
        · exact ⟨accumulates_none _, hsame⟩
      · rename_i hless
        refine ⟨accumulates_some hkept ?_ hleast hbelow, rfl, rfl⟩
        rw [List.length_append]
        omega

/-! ### The loop -/

/-- **The invariant of the loop**: every chunk so far was fully sent, and is in the buffer if
there is one. -/
structure AllSent (response : ResponseBuffer) (h : Trace) : Prop where
  accepted_eq : acceptedBy .client h = (chunks h).flatten
  accumulates : Accumulates response (chunks h)

lemma AllSent.fullySent_eq {response : ResponseBuffer} {h : Trace} (ha : AllSent response h) :
    fullySent h = chunks h := by
  rw [fullySent, ha.accepted_eq, wholeChunks_flatten]

lemma ends_sendChunk {env : Trace → (c : Command) → Reply c → Prop} (fuel : ℕ) (chunk : Bytes)
    (h : Trace) :
    Ends env (· ≠ Fault.overrun) (sendAll fuel .client chunk)
      (fun ret h' => ∃ k, k ≤ chunk.length ∧ (0 ≤ ret ↔ k = chunk.length) ∧
        SentTo .client (chunk.take k) h h') h :=
  ends_of_wp (G := fun _ _ => True) (wp_sendAll (fun _ _ _ _ => trivial) fuel)
    (fails_sendAll (fun _ => by decide) fuel .client chunk h)

/-- **One round.** The loop goes on after a chunk that was fully sent; it ends with a chunk that
was not, or with none. -/
lemma AllSent.ends_round {response : ResponseBuffer} {h : Trace} (ha : AllSent response h)
    (fuel : ℕ) (conn : Connection) :
    Ends (MemoryBelow (2 ^ 63)) (· ≠ Fault.overrun) (relayResponseRound fuel (response, conn))
      (fun x h' => x.elim (fun s => AllSent s.1 h') fun s => Accumulates s.1 (fullySent h')) h := by
  simp only [relayResponseRound, recv, statsAddBytesTransferred, bind_eq, pure_eq, ends_bind,
    ends_ask]
  intro r _
  have hend : ∀ r : Received bufferSize, chunkOf ⟨.recv .remote bufferSize, r⟩ = [] →
      Accumulates response (fullySent (h ++ [⟨.recv .remote bufferSize, r⟩])) := by
    intro r hr
    have hsame : SameChunks h (h ++ [⟨.recv .remote bufferSize, r⟩]) := .snoc h hr rfl
    rw [fullySent, hsame.chunks_eq, hsame.accepted_eq, ha.accepted_eq, wholeChunks_flatten]
    exact ha.accumulates
  cases r with
  | closed => exact hend .closed rfl
  | error => exact hend .error rfl
  | data chunk pos le =>
      refine (ends_bind _ _ _ _ _ _).mpr (ends_mono (ends_sendChunk fuel chunk _) ?_)
      rintro ret h' ⟨k, hk, hret, hsent⟩
      have hchunks : chunks h' = chunks h ++ [chunk] := by rw [hsent.chunks_eq, chunks_snoc]; rfl
      have haccepted : acceptedBy .client h' = (chunks h).flatten ++ chunk.take k := by
        rw [hsent.acceptedBy_eq, acceptedBy_snoc, ha.accepted_eq]
        rw [show accepted .client ⟨.recv .remote bufferSize, .data chunk pos le⟩ = [] from rfl,
          List.append_nil]
      -- a piece that was not sent whole is not kept
      split
      · rename_i hneg
        have hlt : k < chunk.length := lt_of_le_of_ne hk fun heq =>
          absurd (hret.mpr heq) (by omega)
        change Accumulates response (fullySent h')
        rw [fullySent, hchunks, haccepted, wholeChunks_partial (chunks h) hlt]
        exact ha.accumulates
      · rename_i hpos
        have hwhole : k = chunk.length := hret.mp (by omega)
        simp only [ends_bind, ends_ask]
        intro r _
        have hsame : SameChunks h' (h' ++ [⟨.statsAddBytesTransferred chunk.length, r⟩]) :=
          .snoc h' rfl rfl
        refine ends_mono (ha.accumulates.ends_keepChunk le _) ?_
        rintro response' h'' ⟨hacc, hsame'⟩
        rw [← hchunks, ← hsame.chunks_eq, ← hsame'.chunks_eq] at hacc
        refine ⟨?_, hacc⟩
        rw [hsame'.accepted_eq, hsame.accepted_eq, haccepted, hsame'.chunks_eq, hsame.chunks_eq,
          hchunks, hwhole, List.take_length, List.flatten_append, List.flatten_singleton]

/-- **The response is accumulated.** Whenever a round of the loop begins, a single doubling makes
room for any chunk, and the buffer, if there is one, holds the chunks that were fully sent to the
client. No run copies beyond the capacity, and this is what the buffer holds when it returns. -/
theorem relayResponse_accumulates (fuel : ℕ) (allocated : Bool) (conn : Connection) :
    (∀ s h, Heads (MemoryBelow (2 ^ 63)) (relayResponseRound fuel) (initialBuffer allocated, conn)
        [] s h → DoublingSuffices s.1 ∧ Accumulates s.1 (fullySent h)) ∧
      ∀ tr out, Runs (MemoryBelow (2 ^ 63)) [] (relayResponse fuel (initialBuffer allocated) conn)
        tr out → out ≠ .raised .overrun ∧
          ∀ s, out = .returned s → Accumulates s.1 (fullySent tr) := by
  have hstart : AllSent (initialBuffer allocated) [] := ⟨rfl, accumulates_initial allocated⟩
  constructor
  · intro s h hhead
    have hall : AllSent s.1 h := heads_invariant (I := fun s h => AllSent s.1 h)
      (Q := fun s h => Accumulates s.1 (fullySent h))
      (fun s h ha => wp_of_ends (ha.ends_round fuel s.2)) hstart hhead
    rw [hall.fullySent_eq]
    exact ⟨hall.accumulates.doublingSuffices, hall.accumulates⟩
  · intro tr out hrun
    have hends : Ends (MemoryBelow (2 ^ 63)) (· ≠ Fault.overrun)
        (relayResponse fuel (initialBuffer allocated) conn)
        (fun s h => Accumulates s.1 (fullySent h)) [] :=
      ends_loop_of_fails (by decide) (I := fun s h => AllSent s.1 h)
        (fun s h ha => ha.ends_round fuel s.2) fuel hstart
    obtain ⟨hraise, hres⟩ := ends_sound hends hrun
    exact ⟨fun hout => hraise _ hout rfl, fun s hs => hres s hs⟩

end ProxyMax
