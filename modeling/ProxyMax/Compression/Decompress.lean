import ProxyMax.Lib.CString

/-!
`compression_gzip_decompress` of `src/protocols/compression.c`, and when it returns.

* `Zlib`: the calls of zlib that the function makes; `GzipStream` and `Documented` say what
  zlib's documentation says of them.
* `Allocator`: `malloc` and `realloc`, which may free a block that is made smaller to nothing.
* `Inflation`, `firstCall`, `nextCall`, `growthLoop`, `compressionGzipDecompress`: the code.
* `growthLoop_returns_iff`: the loop returns when one of its passes leaves it, and no block was
  freed before.
* `outputLimit`: the room for output that all passes together give.
* `compressionGzipDecompress_returns_iff`: the function returns unless the input is truncated or
  has more output than that, and no size that the doubling comes to is refused, or a block is
  freed before.
-/

namespace ProxyMax

open CString

/-! ### zlib -/

/-- What `inflate` returns: `Z_STREAM_END`, `Z_BUF_ERROR` or another code. -/
inductive InflateStatus where
  | streamEnd
  | bufError
  | other (code : ℤ)
deriving DecidableEq, Repr

/-- The calls of zlib. `inflateInit2` succeeds or not for the input; `inflate` is called with
`Z_FINISH`, after other calls that had room for `outs` bytes of output, with room for
`availOut` bytes, and gives its status and all the output since the start. -/
structure Zlib where
  inflateInit2 : Bytes → Bool
  inflate : Bytes → List ℕ → ℕ → InflateStatus × Bytes

/-- How an input ends: as a complete stream, in corrupt data, or before the stream does. -/
inductive Ending where
  | complete
  | corrupt
  | truncated
deriving DecidableEq, Repr

/-- What an input is as a `gzip` stream: the output up to its end, and how it ends. -/
structure GzipStream where
  ending : Ending
  data : Bytes
deriving DecidableEq, Repr

namespace GzipStream

variable (stream : GzipStream)

/-- With room for `space` bytes the output comes to its end. -/
def EndsWithin (space : ℕ) : Prop := stream.ending ≠ .truncated ∧ stream.data.length ≤ space

instance (space : ℕ) : Decidable (stream.EndsWithin space) := instDecidableAnd

/-- What `inflate` returns with room for `space` bytes: the end of the stream or the error where
these come first, and `Z_BUF_ERROR` when it lacks room or input. -/
def Allows (space : ℕ) (r : InflateStatus × Bytes) : Prop :=
  if stream.EndsWithin space then
    if stream.ending = .complete then r = (.streamEnd, stream.data)
    else ∃ code, r.1 = .other code
  else r = (.bufError, stream.data.take space)

end GzipStream

/-- zlib does what its documentation says, where `content` is what the inputs are as streams: a
stream that did not end with the room of the earlier calls goes on with the new room. -/
def Documented (zlib : Zlib) (content : Bytes → GzipStream) : Prop :=
  ∀ input outs availOut, (outs = [] ∨ ¬(content input).EndsWithin outs.sum) →
    (content input).Allows (outs.sum + availOut) (zlib.inflate input outs availOut)

/-! ### The allocator -/

/-- What `realloc` does with a block: it gives another one for it; or it gives `NULL`, and the
block is still there, or is freed. -/
inductive Reallocation where
  | moved
  | refused
  | freed
deriving DecidableEq, Repr

/-- The allocator: whether `malloc` gives a block of the size, and what the `realloc` after `n`
others does for the size. It frees a block only where the new size is zero, as glibc does. -/
structure Allocator where
  malloc : ℕ → Bool
  realloc : ℕ → ℕ → Reallocation
  eq_zero_of_freed : ∀ n size, realloc n size = .freed → size = 0

/-- A block is given for every size but zero. -/
def Allocator.Gives (alloc : Allocator) : Prop :=
  ∀ size, 0 < size → alloc.malloc size = true ∧ ∀ n, alloc.realloc n size = .moved

/-! ### The code -/

/-- A number as a `uInt`, the type of `avail_in` and `avail_out`. -/
def uInt (n : ℕ) : ℕ := n % 2 ^ 32

/-- The stream between two calls of `inflate`: the size of the output buffer, the room that the
calls had, and what the last one gave. -/
structure Inflation where
  bufferSize : ℕ
  outs : List ℕ
  status : InflateStatus
  output : Bytes

/-- The first call. -/
def firstCall (zlib : Zlib) (input : Bytes) (bufferSize : ℕ) : Inflation :=
  let availOut := uInt bufferSize
  let (status, output) := zlib.inflate input [] availOut
  ⟨bufferSize, [availOut], status, output⟩

/-- `buffer_size *= 2`. -/
def Inflation.doubled (s : Inflation) : ℕ := s.bufferSize * 2 % sizeMod

/-- The call in the loop, with a buffer of twice the size. -/
def nextCall (zlib : Zlib) (input : Bytes) (s : Inflation) : Inflation :=
  let availOut := uInt (subSize s.doubled s.output.length)
  let (status, output) := zlib.inflate input s.outs availOut
  ⟨s.doubled, s.outs ++ [availOut], status, output⟩

/-- How far a call of the function came: it still runs; it returned the output, or `none` for
-1; or it freed a block a second time. -/
inductive Decompression where
  | running
  | returned (output : Option Bytes)
  | freedTwice
deriving DecidableEq, Repr

/-- "while (ret == Z_BUF_ERROR)", for at most `fuel` passes, and what follows it. -/
def growthLoop (zlib : Zlib) (alloc : Allocator) (input : Bytes) :
    ℕ → ℕ → Inflation → Decompression
  | 0, _, _ => .running
  | fuel + 1, n, s =>
      match s.status with
      | .streamEnd => .returned (some s.output)
      | .other _ => .returned none
      | .bufError =>
          match alloc.realloc n s.doubled with
          | .moved => growthLoop zlib alloc input fuel (n + 1) (nextCall zlib input s)
          | .refused => .returned none
          -- "free(*output)" comes after `realloc` has done that
          | .freed => .freedTwice

/-- `compression_gzip_decompress`. -/
def compressionGzipDecompress (zlib : Zlib) (alloc : Allocator) (input : Bytes) (fuel : ℕ) :
    Decompression :=
  let bufferSize := input.length * 4 % sizeMod
  -- `avail_in` is the length as a `uInt`
  let seen := input.take (uInt input.length)
  if !alloc.malloc bufferSize then .returned none
  else if !zlib.inflateInit2 seen then .returned none
  else growthLoop zlib alloc seen fuel 0 (firstCall zlib seen bufferSize)

/-- The function returns. -/
def Decompresses (zlib : Zlib) (alloc : Allocator) (input : Bytes) : Prop :=
  ∃ fuel output, compressionGzipDecompress zlib alloc input fuel = .returned output

/-! ### The loop -/

section Loop

variable (zlib : Zlib) (alloc : Allocator) (input : Bytes)

variable {alloc} in
/-- The loop stops at a call that has ended, or that gets no memory. -/
lemma growthLoop_stops {n : ℕ} {s : Inflation}
    (hstop : s.status ≠ .bufError ∨ alloc.realloc n s.doubled = .refused) (fuel : ℕ) :
    ∃ output, growthLoop zlib alloc input (fuel + 1) n s = .returned output := by
  rw [growthLoop]
  cases hstatus : s.status with
  | streamEnd => exact ⟨_, rfl⟩
  | other code => exact ⟨_, rfl⟩
  | bufError =>
      have hrefused : alloc.realloc n s.doubled = .refused :=
        hstop.resolve_left fun hne => hne hstatus
      exact ⟨none, by simp only [hrefused]⟩

variable {zlib alloc input} in
/-- At any other call it returns what it returns after the next one, with the block moved. -/
lemma growthLoop_goes_on {n : ℕ} {s : Inflation}
    (hgoes : ¬(s.status ≠ .bufError ∨ alloc.realloc n s.doubled = .refused)) {fuel : ℕ}
    {output : Option Bytes} :
    growthLoop zlib alloc input (fuel + 1) n s = .returned output ↔
      alloc.realloc n s.doubled ≠ .freed ∧
        growthLoop zlib alloc input fuel (n + 1) (nextCall zlib input s) = .returned output := by
  simp only [not_or, not_not] at hgoes
  rw [growthLoop, hgoes.1]
  cases hrealloc : alloc.realloc n s.doubled with
  | moved => simp
  | refused => exact absurd hrealloc hgoes.2
  | freed => simp

/-- **The loop returns** when a pass gives something else than `Z_BUF_ERROR`, or gets no memory,
and no pass before has lost its block. -/
lemma growthLoop_returns_iff (n : ℕ) (s : Inflation) :
    (∃ fuel output, growthLoop zlib alloc input fuel n s = .returned output) ↔
      ∃ k, (((nextCall zlib input)^[k] s).status ≠ .bufError ∨
          alloc.realloc (n + k) ((nextCall zlib input)^[k] s).doubled = .refused) ∧
        ∀ j < k, alloc.realloc (n + j) ((nextCall zlib input)^[j] s).doubled ≠ .freed := by
  constructor
  · rintro ⟨fuel, output, hfuel⟩
    -- by induction on the fuel: the loop stops here, or a step later
    induction fuel generalizing n s with
    | zero => cases hfuel
    | succ fuel ih =>
        by_cases hstop : s.status ≠ .bufError ∨ alloc.realloc n s.doubled = .refused
        · exact ⟨0, hstop, fun j hj => absurd hj (Nat.not_lt_zero j)⟩
        · obtain ⟨hkept, hnext⟩ := (growthLoop_goes_on hstop).mp hfuel
          obtain ⟨k, hk, hbefore⟩ := ih (n + 1) (nextCall zlib input s) hnext
          simp only [Nat.add_assoc, Nat.add_comm 1, ← Function.iterate_succ_apply] at hk hbefore
          exact ⟨k + 1, hk, Nat.forall_lt_succ_left.mpr ⟨hkept, hbefore⟩⟩
  · rintro ⟨k, hk, hbefore⟩
    -- by induction on the number of steps: `k` steps later the loop stops with one fuel more
    induction k generalizing n s with
    | zero =>
        obtain ⟨output, hreturned⟩ := growthLoop_stops zlib input hk 0
        exact ⟨1, output, hreturned⟩
    | succ k ih =>
        by_cases hstop : s.status ≠ .bufError ∨ alloc.realloc n s.doubled = .refused
        · obtain ⟨output, hreturned⟩ := growthLoop_stops zlib input hstop 0
          exact ⟨1, output, hreturned⟩
        · obtain ⟨hkept, hbefore⟩ := Nat.forall_lt_succ_left.mp hbefore
          simp only [Function.iterate_succ_apply, ← Nat.add_assoc, Nat.add_right_comm n _ 1]
            at hk hbefore
          obtain ⟨fuel, output, hnext⟩ := ih (n + 1) (nextCall zlib input s) hk hbefore
          exact ⟨fuel + 1, output, (growthLoop_goes_on hstop).mpr ⟨hkept, hnext⟩⟩

/-- The size of the buffer after `k` passes. -/
lemma bufferSize_iterate (s : Inflation) (hs : s.bufferSize < sizeMod) (k : ℕ) :
    ((nextCall zlib input)^[k] s).bufferSize = s.bufferSize * 2 ^ k % sizeMod := by
  induction k with
  | zero => rw [Function.iterate_zero_apply, pow_zero, Nat.mul_one, Nat.mod_eq_of_lt hs]
  | succ k ih =>
      rw [Function.iterate_succ_apply']
      change _ * 2 % sizeMod = _
      rw [ih, Nat.mod_mul_mod, pow_succ, Nat.mul_assoc]

end Loop

/-! ### The room for output -/

/-- The room of the call after `k` others, when each of them used all it had. -/
def roomAt (length : ℕ) : ℕ → ℕ
  | 0 => uInt (length * 4)
  | k + 1 => uInt (length * 4 * 2 ^ k)

/-- The room of the calls up to the one after `k` others. -/
def roomUpTo (length k : ℕ) : ℕ := ((List.range (k + 1)).map (roomAt length)).sum

/-- The room that all calls have together: later ones have none. -/
def outputLimit (length : ℕ) : ℕ := roomUpTo length 30

lemma roomUpTo_succ (length k : ℕ) :
    roomUpTo length (k + 1) = roomUpTo length k + roomAt length (k + 1) := by
  rw [roomUpTo, List.range_succ, List.map_append, List.sum_append, roomUpTo]
  simp

lemma roomUpTo_mono (length : ℕ) {j k : ℕ} (h : j ≤ k) : roomUpTo length j ≤ roomUpTo length k := by
  induction h with
  | refl => exact le_rfl
  | step _ ih => exact ih.trans (by rw [roomUpTo_succ]; omega)

/-- Where the size of the buffer is a multiple of `2 ^ 32`, which is no room as a `uInt`, the later
calls have no room. -/
lemma roomUpTo_le_of_dvd {length m : ℕ} (hdvd : 2 ^ 32 ∣ length * 4 * 2 ^ m) (k : ℕ) :
    roomUpTo length k ≤ roomUpTo length m := by
  rcases Nat.le_total k m with hk | hk
  · exact roomUpTo_mono length hk
  · induction hk with
    | refl => exact le_rfl
    | @step k hk ih =>
        have hnone : roomAt length (k + 1) = 0 := by
          obtain ⟨i, rfl⟩ := Nat.exists_eq_add_of_le hk
          rw [roomAt, uInt, pow_add, ← Nat.mul_assoc]
          exact Nat.mod_eq_zero_of_dvd (hdvd.mul_right _)
        calc roomUpTo length (k + 1)
            = roomUpTo length k + roomAt length (k + 1) := roomUpTo_succ length k
          _ = roomUpTo length k := by rw [hnone, Nat.add_zero]
          _ ≤ roomUpTo length m := ih

/-- After 30 passes there is no more room. -/
lemma roomUpTo_le_outputLimit (length k : ℕ) : roomUpTo length k ≤ outputLimit length :=
  roomUpTo_le_of_dvd ⟨length, by ring⟩ k

/-- Where the doubling has come to zero, there is no more room. -/
lemma roomUpTo_le_of_eq_zero {length j : ℕ} (hzero : length * 4 * 2 ^ (j + 1) % sizeMod = 0)
    (k : ℕ) : roomUpTo length k ≤ roomUpTo length j := by
  refine roomUpTo_le_of_dvd ?_ k
  rw [pow_succ, ← Nat.mul_assoc, sizeMod] at hzero
  omega

/-- The room so far is the size of the buffer, as a `uInt`. -/
lemma roomUpTo_mod (length k : ℕ) : roomUpTo length k % 2 ^ 32 = length * 4 * 2 ^ k % 2 ^ 32 := by
  induction k with
  | zero => simp [roomUpTo, roomAt, uInt]
  | succ k ih =>
      rw [roomUpTo_succ, roomAt, uInt, Nat.add_mod_mod, Nat.add_mod, ih, ← Nat.add_mod, pow_succ]
      congr 1
      ring

/-! ### The calls -/

namespace GzipStream

variable {stream : GzipStream} {space : ℕ} {r : InflateStatus × Bytes}

lemma Allows.of_not_endsWithin (h : stream.Allows space r) (hend : ¬stream.EndsWithin space) :
    r = (.bufError, stream.data.take space) := by
  rwa [Allows, if_neg hend] at h

/-- `Z_BUF_ERROR` says that the output did not come to its end. -/
lemma Allows.bufError_iff (h : stream.Allows space r) :
    r.1 = .bufError ↔ ¬stream.EndsWithin space := by
  constructor
  · intro hr hend
    rw [Allows, if_pos hend] at h
    split at h
    · rw [h] at hr
      cases hr
    · obtain ⟨code, hcode⟩ := h
      rw [hcode] at hr
      cases hr
  · intro hend
    rw [h.of_not_endsWithin hend]

end GzipStream

section Calls

variable {zlib : Zlib} {content : Bytes → GzipStream} (hzlib : Documented zlib content)
  (input : Bytes) (length : ℕ)

/-- The first call of the function for an input of the given length. -/
def startCall (zlib : Zlib) (input : Bytes) (length : ℕ) : Inflation :=
  firstCall zlib input (length * 4 % sizeMod)

/-- The size of the buffer at the call after `k` others. -/
lemma bufferSize_startCall (k : ℕ) :
    ((nextCall zlib input)^[k] (startCall zlib input length)).bufferSize =
      length * 4 * 2 ^ k % sizeMod := by
  rw [bufferSize_iterate zlib input _ (Nat.mod_lt _ (by decide))]
  exact Nat.mod_mul_mod ..

lemma doubled_startCall (k : ℕ) :
    ((nextCall zlib input)^[k] (startCall zlib input length)).doubled =
      length * 4 * 2 ^ (k + 1) % sizeMod := by
  rw [Inflation.doubled, bufferSize_startCall, Nat.mod_mul_mod, pow_succ, Nat.mul_assoc]

/-- The room that is left in a buffer of twice the size, as a `uInt`. -/
lemma uInt_subSize {x t : ℕ} (h : t % 2 ^ 32 = x % 2 ^ 32) :
    uInt (subSize (x * 2 % sizeMod) t) = uInt x := by
  rw [uInt, uInt, subSize, sizeMod]
  omega

/-- What the call after `k` others had and gave. -/
structure AtCall (content : Bytes → GzipStream) (input : Bytes) (length k : ℕ) (s : Inflation) :
    Prop where
  sum_outs : s.outs.sum = roomUpTo length k
  allows : (content input).Allows (roomUpTo length k) (s.status, s.output)

include hzlib

lemma atCall_start : AtCall content input length 0 (startCall zlib input length) := by
  have hroom : uInt (length * 4 % sizeMod) = roomUpTo length 0 := by
    simp [roomUpTo, roomAt, uInt, sizeMod]
  have hcall := hzlib input [] (uInt (length * 4 % sizeMod)) (.inl rfl)
  rw [List.sum_nil, Nat.zero_add, hroom] at hcall
  constructor
  · rw [← hroom]
    exact List.sum_singleton
  · change (content input).Allows _ (zlib.inflate input [] (uInt (length * 4 % sizeMod)))
    rwa [hroom]

variable {input length} in
/-- **The next call**, when the output has not come to its end: this one used all its room. -/
lemma AtCall.next {k : ℕ} {s : Inflation} (hs : AtCall content input length k s)
    (hwhole : (content input).ending ≠ .truncated)
    (hmore : ¬(content input).EndsWithin (roomUpTo length k))
    (hdoubled : s.doubled = length * 4 * 2 ^ (k + 1) % sizeMod) :
    AtCall content input length (k + 1) (nextCall zlib input s) := by
  have hlonger : roomUpTo length k < (content input).data.length := by
    by_contra hle
    exact hmore ⟨hwhole, not_lt.mp hle⟩
  have houtput : s.output = (content input).data.take (roomUpTo length k) :=
    (Prod.mk.inj (hs.allows.of_not_endsWithin hmore)).2
  have hlen : s.output.length = roomUpTo length k := by
    rw [houtput, List.length_take, Nat.min_eq_left hlonger.le]
  have hroom : uInt (subSize s.doubled s.output.length) = roomAt length (k + 1) := by
    rw [hdoubled, hlen, pow_succ, ← Nat.mul_assoc, uInt_subSize (roomUpTo_mod length k)]
    rfl
  have hcall := hzlib input s.outs (uInt (subSize s.doubled s.output.length))
    (.inr (by rwa [hs.sum_outs]))
  rw [hs.sum_outs, hroom, ← roomUpTo_succ] at hcall
  constructor
  · calc (s.outs ++ [uInt (subSize s.doubled s.output.length)]).sum
        = s.outs.sum + uInt (subSize s.doubled s.output.length) := by
          rw [List.sum_append, List.sum_singleton]
      _ = roomUpTo length k + roomAt length (k + 1) := by rw [hs.sum_outs, hroom]
      _ = roomUpTo length (k + 1) := (roomUpTo_succ length k).symm
  · change (content input).Allows _
      (zlib.inflate input s.outs (uInt (subSize s.doubled s.output.length)))
    rwa [hroom]

/-- **The calls**, as long as the output does not come to its end. -/
lemma atCall_iterate (hwhole : (content input).ending ≠ .truncated) (k : ℕ)
    (hgoing : ∀ j < k, ¬(content input).EndsWithin (roomUpTo length j)) :
    AtCall content input length k ((nextCall zlib input)^[k] (startCall zlib input length)) := by
  induction k with
  | zero => exact atCall_start hzlib input length
  | succ k ih =>
      have hs := ih fun j hj => hgoing j (hj.trans (Nat.lt_succ_self k))
      rw [Function.iterate_succ_apply']
      exact hs.next hzlib hwhole (hgoing k (Nat.lt_succ_self k)) (doubled_startCall input length k)

/-- Without the end of the stream every call lacks input. -/
lemma call_truncated (htruncated : (content input).ending = .truncated) (k : ℕ) :
    ((nextCall zlib input)^[k] (startCall zlib input length)).status = .bufError := by
  have hnever : ∀ space, ¬(content input).EndsWithin space := fun _ hend => hend.1 htruncated
  cases k with
  | zero => exact (hzlib input [] _ (.inl rfl)).bufError_iff.mpr (hnever _)
  | succ k =>
      rw [Function.iterate_succ_apply']
      exact (hzlib input _ _ (.inr (hnever _))).bufError_iff.mpr (hnever _)

/-- A call that ends has come to the end of the output. -/
lemma endsWithin_of_ended {k : ℕ}
    (hk : ((nextCall zlib input)^[k] (startCall zlib input length)).status ≠ .bufError) :
    (content input).EndsWithin (outputLimit length) := by
  have hwhole : (content input).ending ≠ .truncated := fun htruncated =>
    hk (call_truncated hzlib input length htruncated k)
  by_contra hno
  have hnever : ∀ j, ¬(content input).EndsWithin (roomUpTo length j) := fun j hend =>
    hno ⟨hwhole, hend.2.trans (roomUpTo_le_outputLimit length j)⟩
  have hs := atCall_iterate hzlib input length hwhole k fun j _ => hnever j
  exact hk (hs.allows.bufError_iff.mpr (hnever k))

/-- **Some call ends** where the output fits in the room of all of them, and the doubling has not
come to zero before it. -/
lemma exists_ended (hend : (content input).EndsWithin (outputLimit length)) :
    ∃ k, ((nextCall zlib input)^[k] (startCall zlib input length)).status ≠ .bufError ∧
      ∀ j < k, length * 4 * 2 ^ (j + 1) % sizeMod ≠ 0 := by
  classical
  have hsome : ∃ k, (content input).EndsWithin (roomUpTo length k) := ⟨30, hend⟩
  have hs := atCall_iterate hzlib input length hend.1 (Nat.find hsome)
    fun j hj => Nat.find_min hsome hj
  refine ⟨Nat.find hsome, fun hbuf => hs.allows.bufError_iff.mp hbuf (Nat.find_spec hsome),
    fun j hj hzero => Nat.find_min hsome hj ⟨hend.1, ?_⟩⟩
  exact (Nat.find_spec hsome).2.trans (roomUpTo_le_of_eq_zero hzero _)

end Calls

/-- With memory and zlib at hand the function is its loop. -/
lemma compressionGzipDecompress_eq {zlib : Zlib} {alloc : Allocator} {input : Bytes}
    (hfirst : alloc.malloc (input.length * 4 % sizeMod) = true)
    (hinit : zlib.inflateInit2 (input.take (uInt input.length)) = true) (fuel : ℕ) :
    compressionGzipDecompress zlib alloc input fuel =
      growthLoop zlib alloc (input.take (uInt input.length)) fuel 0
        (startCall zlib (input.take (uInt input.length)) input.length) := by
  simp [compressionGzipDecompress, hfirst, hinit, startCall]

/-- **When decompression returns**: there is no first block; or zlib is not initialised; or the
input, as long as a `uInt` can say, is a stream with an end or an error within the output that
the calls have room for; or the allocator refuses one of the sizes that the doubling comes to,
and has not freed the block before. -/
theorem compressionGzipDecompress_returns_iff (zlib : Zlib) (content : Bytes → GzipStream)
    (hzlib : Documented zlib content) (alloc : Allocator) (input : Bytes) :
    Decompresses zlib alloc input ↔
      alloc.malloc (input.length * 4 % sizeMod) = false ∨
        zlib.inflateInit2 (input.take (uInt input.length)) = false ∨
        (content (input.take (uInt input.length))).EndsWithin (outputLimit input.length) ∨
        ∃ n, alloc.realloc n (input.length * 4 * 2 ^ (n + 1) % sizeMod) = .refused ∧
          ∀ j < n, alloc.realloc j (input.length * 4 * 2 ^ (j + 1) % sizeMod) ≠ .freed := by
  rw [Decompresses]
  by_cases hfirst : alloc.malloc (input.length * 4 % sizeMod) = false
  · refine iff_of_true ⟨0, none, ?_⟩ (.inl hfirst)
    simp [compressionGzipDecompress, hfirst]
  by_cases hinit : zlib.inflateInit2 (input.take (uInt input.length)) = false
  · refine iff_of_true ⟨0, none, ?_⟩ (.inr (.inl hinit))
    simp [compressionGzipDecompress, hfirst, hinit]
  rw [or_iff_right hfirst, or_iff_right hinit]
  rw [Bool.not_eq_false] at hfirst hinit
  simp only [compressionGzipDecompress_eq hfirst hinit, growthLoop_returns_iff, doubled_startCall,
    Nat.zero_add]
  constructor
  · rintro ⟨k, hended | hrefused, hbefore⟩
    · exact .inl (endsWithin_of_ended hzlib _ _ hended)
    · exact .inr ⟨k, hrefused, hbefore⟩
  · rintro (hend | ⟨n, hrefused, hbefore⟩)
    · obtain ⟨k, hended, hsizes⟩ := exists_ended hzlib _ _ hend
      exact ⟨k, .inl hended, fun j hj hfreed =>
        hsizes j hj (alloc.eq_zero_of_freed _ _ hfreed)⟩
    · exact ⟨n, .inr hrefused, hbefore⟩

/-! ### A stream and its parts -/

/-- zlib, for what the inputs are as streams. -/
def zlibOf (content : Bytes → GzipStream) : Zlib where
  inflateInit2 _ := true
  inflate input outs availOut :=
    let stream := content input
    if stream.EndsWithin (outs.sum + availOut) then
      (if stream.ending = .complete then .streamEnd else .other (-3), stream.data)
    else (.bufError, stream.data.take (outs.sum + availOut))

lemma documented_zlibOf (content : Bytes → GzipStream) : Documented (zlibOf content) content := by
  intro input outs availOut _
  rw [GzipStream.Allows, zlibOf]
  dsimp only
  split_ifs with hend hcomplete
  · rfl
  · exact ⟨-3, rfl⟩
  · rfl

/-- The letter `a`, compressed. -/
def letterFile : Bytes :=
  [31, 139, 8, 0, 0, 0, 0, 0, 0, 3, 75, 4, 0, 67, 190, 183, 232, 1, 0, 0, 0]

/-- What the file and its parts are as streams. The letter is in the first twelve bytes. -/
def letterContent (input : Bytes) : GzipStream :=
  if letterFile.isPrefixOf input then ⟨.complete, [97]⟩
  else if input.isPrefixOf letterFile then ⟨.truncated, if input.length < 12 then [] else [97]⟩
  else ⟨.corrupt, []⟩

/-- An allocator that refuses nothing. -/
def giveAll : Allocator where
  malloc _ := true
  realloc _ _ := .moved
  eq_zero_of_freed _ _ h := Reallocation.noConfusion h

lemma gives_giveAll : giveAll.Gives := fun _ _ => ⟨rfl, fun _ => rfl⟩

/-- An allocator that frees a block of which nothing is to be left. -/
def freeAtZero : Allocator where
  malloc _ := true
  realloc _ size := if size = 0 then .freed else .moved
  eq_zero_of_freed _ size h := by
    split at h
    · assumption
    · cases h

theorem compressionGzipDecompress_returns_letter :
    Decompresses (zlibOf letterContent) giveAll letterFile :=
  (compressionGzipDecompress_returns_iff (zlibOf letterContent) letterContent
    (documented_zlibOf letterContent) giveAll letterFile).mpr
      (.inr (.inr (.inl (by decide +kernel))))

/-- The file without its last byte is decompressed for ever; and where `realloc` frees a block
for the size zero, the empty input has its block freed a second time. -/
theorem truncated_file_never_returns :
    Documented (zlibOf letterContent) letterContent ∧
      giveAll.Gives ∧ ¬Decompresses (zlibOf letterContent) giveAll letterFile.dropLast ∧
      freeAtZero.Gives ∧ ¬Decompresses (zlibOf letterContent) freeAtZero [] ∧
      compressionGzipDecompress (zlibOf letterContent) freeAtZero [] 1 = .freedTwice := by
  have hzlib := documented_zlibOf letterContent
  have hempty : compressionGzipDecompress (zlibOf letterContent) freeAtZero [] 1 =
      .freedTwice := by
    decide +kernel
  refine ⟨hzlib, gives_giveAll, ?_, fun size hsize => ⟨rfl, fun _ => if_neg hsize.ne'⟩, ?_,
    hempty⟩
  · have hending : (letterContent
        (letterFile.dropLast.take (uInt letterFile.dropLast.length))).ending = .truncated := by
      decide +kernel
    rintro ⟨fuel, output, hfuel⟩
    rw [compressionGzipDecompress_eq rfl rfl] at hfuel
    obtain ⟨k, hk | hk, -⟩ := (growthLoop_returns_iff ..).mp ⟨fuel, output, hfuel⟩
    · exact hk (call_truncated hzlib _ _ hending k)
    · cases hk
  · rintro ⟨fuel, output, hfuel⟩
    cases fuel with
    | zero => cases hfuel
    | succ fuel => cases hempty.symm.trans hfuel

end ProxyMax
