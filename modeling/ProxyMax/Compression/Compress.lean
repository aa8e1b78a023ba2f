import ProxyMax.Compression.Decompress
import ProxyMax.Compression.Headers

/-!
`compression_gzip_compress` and `compression_should_compress` of `src/protocols/compression.c`, and
what decompression makes of the output.

* `Deflater`, `Deflates`: the calls of zlib that write a stream, and what they are for.
* `compressTo`: the code, for the overhead of a format.
* `growthLoop_ended`, `growthLoop_of_ended`: the results of the loop of the decompression.
* `outputLimit_ge`: together the calls of that loop have room for every number of bytes that a
  `uInt` can say, unless the compressed size is a multiple of `2 ^ 30`.
* `gzip_round_trip`: the compressed bytes decompress to the input, as much of it as was seen, and
  `worthwhile_round_trip` what follows for a body that is worth compressing.
-/

namespace ProxyMax

open CString

/-! ### The code -/

/-- The calls of zlib that write a stream of one format: the initialisation, which succeeds or
not, and a call of `deflate` with `Z_FINISH` for an input and room for some bytes, which says if
it returned `Z_STREAM_END` and gives its output. -/
structure Deflater where
  init : Bool
  deflate : Bytes → ℕ → Bool × Bytes

/-- `deflate` comes to the end of the stream with a stream of its input, which is not empty and
fits in the room. -/
def Deflates (d : Deflater) (content : Bytes → GzipStream) : Prop :=
  ∀ input availOut output, d.deflate input availOut = (true, output) →
    output ≠ [] ∧ output.length ≤ availOut ∧ content output = ⟨.complete, input⟩

/-- The size of the output buffer: `overhead` bytes, and a thousandth more than the input. -/
def compressedRoom (length overhead : ℕ) : ℕ :=
  (length + length / 1000 + overhead) % sizeMod

/-- The function of a format: the output, or `none` for -1. `alloc` says if a block of the size
is given. -/
def compressTo (overhead : ℕ) (d : Deflater) (alloc : ℕ → Bool) (input : Bytes) : Option Bytes :=
  let outputLen := compressedRoom input.length overhead
  if !alloc outputLen then none
  else if !d.init then none
  else
    -- `avail_in` and `avail_out` are the lengths as a `uInt`
    match d.deflate (input.take (uInt input.length)) (uInt outputLen) with
    | (true, output) => some output
    | (false, _) => none

/-- `compression_gzip_compress`. -/
def compressionGzipCompress := compressTo (12 + 18)

/-- `compressible_types`. -/
def compressibleTypes : List Bytes :=
  [ascii "text/", ascii "application/json", ascii "application/javascript",
    ascii "application/xml", ascii "application/xhtml"]

/-- `compression_should_compress`; a type that is `NULL` is `none`. -/
def compressionShouldCompress (enableCompression : ℤ) (contentType : Option Bytes)
    (contentLength : ℕ) : Bool :=
  if enableCompression = 0 then false
  else if contentLength < 1024 then false
  else if contentLength > 10 * 1024 * 1024 then false
  else
    match contentType with
    | none => false
    | some contentType => compressibleTypes.any fun type => (strcasestr contentType type).isSome

/-! ### The output -/

section Output

variable {overhead : ℕ} {d : Deflater} {content : Bytes → GzipStream} {alloc : ℕ → Bool}
  {input output : Bytes}

/-- **The output is a stream** of what was seen of the input, and fits in the buffer. -/
lemma compressTo_eq_some (hd : Deflates d content)
    (hout : compressTo overhead d alloc input = some output) :
    output ≠ [] ∧ output.length ≤ uInt (compressedRoom input.length overhead) ∧
      content output = ⟨.complete, input.take (uInt input.length)⟩ := by
  rw [compressTo] at hout
  split at hout
  · cases hout
  · split at hout
    · cases hout
    · split at hout
      · rename_i written hdeflate
        obtain rfl := Option.some.inj hout
        exact hd _ _ _ hdeflate
      · cases hout

end Output

/-! ### The results of the loop -/

section Loop

variable {zlib : Zlib} {alloc : Allocator} {input : Bytes}

/-- An output comes from the first pass that does not lack room. -/
lemma growthLoop_ended {output : Bytes} (fuel : ℕ) :
    ∀ {n : ℕ} {s : Inflation}, growthLoop zlib alloc input fuel n s = .returned (some output) →
      ∃ k, ((nextCall zlib input)^[k] s).status = .streamEnd ∧
        ((nextCall zlib input)^[k] s).output = output ∧
        ∀ j < k, ((nextCall zlib input)^[j] s).status = .bufError := by
  induction fuel with
  | zero =>
      intro n s h
      cases h
  | succ fuel ih =>
      intro n s h
      rw [growthLoop] at h
      cases hstatus : s.status with
      | streamEnd =>
          rw [hstatus] at h
          exact ⟨0, hstatus, Option.some.inj (Decompression.returned.inj h), fun j hj => by omega⟩
      | other code =>
          rw [hstatus] at h
          cases h
      | bufError =>
          rw [hstatus] at h
          simp only at h
          split at h
          · obtain ⟨k, hend, houtput, hbefore⟩ := ih h
            refine ⟨k + 1, ?_, ?_, fun j hj => ?_⟩
            · rwa [Function.iterate_succ_apply]
            · rwa [Function.iterate_succ_apply]
            · cases j with
              | zero => exact hstatus
              | succ j =>
                  rw [Function.iterate_succ_apply]
                  exact hbefore j (by omega)
          · cases h
          · cases h

/-- The first pass that ends gives the output, where memory is found for the passes before. -/
lemma growthLoop_of_ended (k : ℕ) :
    ∀ {n : ℕ} {s : Inflation},
      (∀ j < k, ((nextCall zlib input)^[j] s).status = .bufError ∧
        alloc.realloc (n + j) ((nextCall zlib input)^[j] s).doubled = .moved) →
      ((nextCall zlib input)^[k] s).status = .streamEnd →
      growthLoop zlib alloc input (k + 1) n s =
        .returned (some ((nextCall zlib input)^[k] s).output) := by
  induction k with
  | zero =>
      intro n s _ hend
      have hstatus : s.status = .streamEnd := hend
      rw [growthLoop, hstatus]
      rfl
  | succ k ih =>
      intro n s hbefore hend
      obtain ⟨hstatus, halloc⟩ := hbefore 0 (Nat.succ_pos k)
      have hstatus : s.status = .bufError := hstatus
      have halloc : alloc.realloc n s.doubled = .moved := halloc
      rw [growthLoop, hstatus]
      simp only [halloc]
      rw [ih (fun j hj => ?_) hend]
      · rfl
      · rw [← Function.iterate_succ_apply, Nat.add_assoc, Nat.add_comm 1 j]
        exact hbefore (j + 1) (by omega)

end Loop

/-! ### The room -/

/-- All rooms together are a multiple of `2 ^ 32`. -/
lemma outputLimit_mod (length : ℕ) : outputLimit length % 2 ^ 32 = 0 := by
  have hpow : length * 4 * 2 ^ 30 = 2 ^ 32 * length := by ring
  rw [outputLimit, roomUpTo_mod, hpow, Nat.mul_mod_right]

/-- The first room is not zero, so they are at least `2 ^ 32` bytes together. -/
lemma outputLimit_ge {length : ℕ} (h : length % 2 ^ 30 ≠ 0) : 2 ^ 32 ≤ outputLimit length := by
  have hfirst : 0 < roomUpTo length 0 := by
    rw [roomUpTo, List.range_one, List.map_singleton, List.sum_singleton, roomAt, uInt]
    omega
  have hpos := hfirst.trans_le (roomUpTo_le_outputLimit length 0)
  exact Nat.le_of_dvd hpos (Nat.dvd_of_mod_eq_zero (outputLimit_mod length))

/-- No call has room. -/
lemma outputLimit_eq_zero {length : ℕ} (h : length % 2 ^ 30 = 0) : outputLimit length = 0 := by
  have hroom : ∀ k, roomAt length k = 0 := fun k => by
    obtain ⟨m, rfl⟩ := Nat.dvd_of_mod_eq_zero h
    cases k with
    | zero =>
        rw [roomAt, uInt]
        omega
    | succ k =>
        have hpow : 2 ^ 30 * m * 4 * 2 ^ k = 2 ^ 32 * (m * 2 ^ k) := by ring
        rw [roomAt, uInt, hpow, Nat.mul_mod_right]
  rw [outputLimit, roomUpTo, List.sum_eq_zero_iff]
  intro r hr
  obtain ⟨k, -, rfl⟩ := List.mem_map.mp hr
  exact hroom k

/-- The sizes that the doubling asks for are not zero as long as there is need. -/
lemma pow_mul_mod_ne_zero {length k : ℕ} (hpos : 0 < length) (hlt : length < 2 ^ 32)
    (hk : k ≤ 30) : 0 < length * 4 * 2 ^ k % sizeMod := by
  have hpow : (2 : ℕ) ^ k ≤ 2 ^ 30 := Nat.pow_le_pow_right (by decide) hk
  have hlt : length * 4 * 2 ^ k < sizeMod := by
    calc length * 4 * 2 ^ k ≤ length * 4 * 2 ^ 30 := Nat.mul_le_mul_left _ hpow
      _ < sizeMod := by rw [sizeMod]; omega
  rw [Nat.mod_eq_of_lt hlt]
  positivity

/-! ### The round trip -/

/-- An input of less than `2 ^ 32` bytes is seen as it is. -/
lemma take_uInt {input : Bytes} (h : input.length < 2 ^ 32) :
    input.take (uInt input.length) = input := by
  rw [uInt, Nat.mod_eq_of_lt h, List.take_length]

/-- What is handed out comes from a call that ended. -/
lemma compressionGzipDecompress_ended {zlib : Zlib} {alloc : Allocator} {input data : Bytes}
    {fuel : ℕ} (hlt : input.length < 2 ^ 32)
    (h : compressionGzipDecompress zlib alloc input fuel = .returned (some data)) :
    ∃ k, ((nextCall zlib input)^[k] (startCall zlib input input.length)).status = .streamEnd ∧
      ((nextCall zlib input)^[k] (startCall zlib input input.length)).output = data ∧
      ∀ j < k, ((nextCall zlib input)^[j] (startCall zlib input input.length)).status =
        .bufError := by
  rw [compressionGzipDecompress] at h
  simp only [take_uInt hlt] at h
  split at h
  · cases h
  · split at h
    · cases h
    · exact growthLoop_ended fuel h

section Calls

variable {zlib : Zlib} {content : Bytes → GzipStream} (hzlib : Documented zlib content)
  {input data : Bytes} (hcontent : content input = ⟨.complete, data⟩) (length : ℕ)

include hcontent in
lemma endsWithin_iff {space : ℕ} : (content input).EndsWithin space ↔ data.length ≤ space := by
  rw [GzipStream.EndsWithin, hcontent]
  exact and_iff_right Ending.noConfusion

include hzlib hcontent

/-- As long as the calls lack room, the data is longer than what they had. -/
lemma lt_length_of_bufError {k : ℕ}
    (hbefore : ∀ j < k, ((nextCall zlib input)^[j] (startCall zlib input length)).status =
      .bufError) : ∀ j < k, ¬(content input).EndsWithin (roomUpTo length j) := by
  intro j
  induction j using Nat.strong_induction_on with
  | _ j ih =>
      intro hj
      have hs := atCall_iterate hzlib input length (by simp [hcontent]) j
        fun i hi => ih i hi (hi.trans hj)
      exact hs.allows.bufError_iff.mp (hbefore j hj)

/-- **The call that ends** has the data of the stream, which fits in the room so far. -/
lemma output_of_streamEnd {k : ℕ}
    (hbefore : ∀ j < k, ((nextCall zlib input)^[j] (startCall zlib input length)).status =
      .bufError)
    (hend : ((nextCall zlib input)^[k] (startCall zlib input length)).status = .streamEnd) :
    ((nextCall zlib input)^[k] (startCall zlib input length)).output = data ∧
      data.length ≤ roomUpTo length k := by
  have hs := atCall_iterate hzlib input length (by simp [hcontent]) k
    (lt_length_of_bufError hzlib hcontent length hbefore)
  have hfits : (content input).EndsWithin (roomUpTo length k) := by
    by_contra hmore
    exact absurd (hend.symm.trans (hs.allows.bufError_iff.mpr hmore)) (by decide)
  have hallows := hs.allows
  rw [GzipStream.Allows, if_pos hfits, hcontent, if_pos rfl] at hallows
  exact ⟨(Prod.mk.inj hallows).2, (endsWithin_iff hcontent).mp hfits⟩

/-- Where the data fits in all rooms, some call ends, and those before it lack room. -/
lemma exists_streamEnd (hfits : data.length ≤ outputLimit length) :
    ∃ k ≤ 30, ((nextCall zlib input)^[k] (startCall zlib input length)).status = .streamEnd ∧
      ∀ j < k, ((nextCall zlib input)^[j] (startCall zlib input length)).status = .bufError := by
  have hwhole : (content input).ending ≠ .truncated := by simp [hcontent]
  have hsome : ∃ k, data.length ≤ roomUpTo length k := ⟨30, hfits⟩
  have hgoing : ∀ j < Nat.find hsome, ¬(content input).EndsWithin (roomUpTo length j) :=
    fun j hj => (endsWithin_iff hcontent).not.mpr (Nat.find_min hsome hj)
  refine ⟨Nat.find hsome, Nat.find_min' hsome hfits, ?_, fun j hj => ?_⟩
  · have hs := atCall_iterate hzlib input length hwhole _ hgoing
    have hallows := hs.allows
    rw [GzipStream.Allows, if_pos ((endsWithin_iff hcontent).mpr (Nat.find_spec hsome)), hcontent,
      if_pos rfl] at hallows
    exact (Prod.mk.inj hallows).1
  · have hs := atCall_iterate hzlib input length hwhole j fun i hi => hgoing i (hi.trans hj)
    exact hs.allows.bufError_iff.mpr (hgoing j hj)

/-- Where the data fits in all rooms and memory is found, it is handed out. -/
lemma exists_decompressed (hne : input ≠ []) (hlt : input.length < 2 ^ 32)
    (hfits : data.length ≤ outputLimit input.length) (hinit : zlib.inflateInit2 input = true)
    {alloc : Allocator} (halloc : alloc.Gives) :
    ∃ fuel, compressionGzipDecompress zlib alloc input fuel = .returned (some data) := by
  obtain ⟨k, hk, hend, hbefore⟩ := exists_streamEnd hzlib hcontent _ hfits
  have hpos := List.length_pos_of_ne_nil hne
  have hseen := take_uInt hlt
  have hfirst : alloc.malloc (input.length * 4 % sizeMod) = true :=
    (halloc _ (by simpa using pow_mul_mod_ne_zero (k := 0) hpos hlt (by decide))).1
  refine ⟨k + 1, ?_⟩
  rw [compressionGzipDecompress_eq hfirst (by rwa [hseen]), hseen,
    growthLoop_of_ended k (fun j hj => ⟨hbefore j hj, ?_⟩) hend,
    (output_of_streamEnd hzlib hcontent _ hbefore hend).1]
  rw [doubled_startCall]
  exact (halloc _ (pow_mul_mod_ne_zero hpos hlt (by omega))).2 _

end Calls

/-- **The round trip.** What the decompression of the compressed bytes hands out is the input,
as much of it as a `uInt` can say; and where memory is found it hands this out, unless the size
of the compressed bytes is a multiple of `2 ^ 30` and there is something in them. -/
theorem gzip_round_trip (zlib : Zlib) (content : Bytes → GzipStream)
    (hzlib : Documented zlib content) (d : Deflater) (hd : Deflates d content)
    (room : ℕ → Bool) (input output : Bytes)
    (hout : compressionGzipCompress d room input = some output) :
    (∀ alloc fuel data,
        compressionGzipDecompress zlib alloc output fuel = .returned (some data) →
        data = input.take (uInt input.length)) ∧
      (zlib.inflateInit2 output = true →
        ∀ alloc : Allocator, alloc.Gives →
          ((∃ fuel, compressionGzipDecompress zlib alloc output fuel =
              .returned (some (input.take (uInt input.length)))) ↔
            output.length % 2 ^ 30 ≠ 0 ∨ uInt input.length = 0)) := by
  obtain ⟨hne, hlen, hcontent⟩ := compressTo_eq_some hd hout
  have hlt : output.length < 2 ^ 32 := hlen.trans_lt (Nat.mod_lt _ (by decide))
  refine ⟨fun alloc fuel data h => ?_, fun hinit alloc halloc => ⟨?_, fun hfits => ?_⟩⟩
  · obtain ⟨k, hend, rfl, hbefore⟩ := compressionGzipDecompress_ended hlt h
    exact (output_of_streamEnd hzlib hcontent _ hbefore hend).1
  · rintro ⟨fuel, h⟩
    obtain ⟨k, hend, -, hbefore⟩ := compressionGzipDecompress_ended hlt h
    have hroom := (output_of_streamEnd hzlib hcontent _ hbefore hend).2.trans
      (roomUpTo_le_outputLimit _ k)
    by_contra hnot
    rw [not_or, not_not] at hnot
    rw [outputLimit_eq_zero hnot.1, List.length_take] at hroom
    have hmod : uInt input.length ≤ input.length := Nat.mod_le _ _
    omega
  · have hroom : (input.take (uInt input.length)).length ≤ outputLimit output.length := by
      have hmod : uInt input.length < 2 ^ 32 := Nat.mod_lt _ (by decide)
      rw [List.length_take]
      rcases hfits with h | h
      · have hge := outputLimit_ge h
        omega
      · omega
    exact exists_decompressed hzlib hcontent hne hlt hroom hinit halloc

/-- zlib's compression of the letter `a`, where there is room for it. -/
def letterDeflater : Deflater where
  init := true
  deflate input availOut :=
    if input = [97] ∧ letterFile.length ≤ availOut then (true, letterFile) else (false, [])

lemma deflates_letterDeflater : Deflates letterDeflater letterContent := by
  intro input availOut output h
  simp only [letterDeflater] at h
  split at h
  · rename_i hletter
    obtain ⟨-, rfl⟩ := Prod.mk.inj h
    obtain ⟨rfl, hroom⟩ := hletter
    exact ⟨by decide, hroom, by decide⟩
  · cases (Prod.mk.inj h).1

theorem gzip_round_trip_letter :
    ∃ output, compressionGzipCompress letterDeflater (fun _ => true) [97] = some output ∧
      ∃ fuel, compressionGzipDecompress (zlibOf letterContent) giveAll output fuel =
        .returned (some [97]) :=
  ⟨letterFile, by decide, ((gzip_round_trip (zlibOf letterContent) letterContent
    (documented_zlibOf letterContent) letterDeflater deflates_letterDeflater (fun _ => true) [97]
    letterFile (by decide)).2 rfl giveAll gives_giveAll).mpr (.inl (by decide))⟩

/-- **A body that is worth compressing** comes back whole. -/
lemma worthwhile_round_trip {zlib : Zlib} {content : Bytes → GzipStream}
    (hzlib : Documented zlib content) {d : Deflater} (hd : Deflates d content)
    {room : ℕ → Bool} {enableCompression : ℤ} {contentType : Option Bytes} {body output : Bytes}
    (hworth : compressionShouldCompress enableCompression contentType body.length = true)
    (hout : compressionGzipCompress d room body = some output)
    (hinit : zlib.inflateInit2 output = true) {alloc : Allocator} (halloc : alloc.Gives) :
    ∃ fuel, compressionGzipDecompress zlib alloc output fuel = .returned (some body) := by
  have hsize : body.length ≤ 10 * 1024 * 1024 := by
    by_contra hlarge
    simp [compressionShouldCompress, not_le.mp hlarge] at hworth
  obtain ⟨hne, hlen, hcontent⟩ := compressTo_eq_some hd hout
  have hsmall : body.length + body.length / 1000 + (12 + 18) < 2 ^ 30 := by omega
  rw [uInt, compressedRoom, sizeMod, Nat.mod_eq_of_lt (hsmall.trans (by decide)),
    Nat.mod_eq_of_lt (hsmall.trans (by decide))] at hlen
  rw [take_uInt (by omega)] at hcontent
  have hpos := List.length_pos_of_ne_nil hne
  have hge : 2 ^ 32 ≤ outputLimit output.length := outputLimit_ge (by omega)
  exact exists_decompressed hzlib hcontent hne (by omega) (by omega) hinit halloc

end ProxyMax
