import ProxyMax.Lib.CString

/-!
Arrays of a fixed size, with every access checked.

* `Block n`: an array of `n` bytes; `Block.zero`, `Block.receive`.
* `Block.read`, `Block.write`, `Block.copy`, `Block.print`, `Block.patch`, `Block.move`,
  `Block.string`: the accesses, which fail outside of the array.
* `read_receive`, `copy_receive`: inside the part that was received last, an access
  succeeds and gives bytes of that part.
* `patch_middle`, `move_patch`: bytes in the middle are overwritten, or replaced by more.
* `string_receive_zero`, `string_print`: a string that is put into an array is read back.
-/

namespace CString

/-- An array of `n` bytes. -/
abbrev Block (n : ℕ) := { bytes : Bytes // bytes.length = n }

/-- An access outside of an array. -/
inductive OutOfBounds where
  | outOfBounds
deriving DecidableEq

namespace Block

variable {n m : ℕ}

/-- An array of zeros. -/
def zero (n : ℕ) : Block n := ⟨List.replicate n 0, List.length_replicate⟩

lemma length_receive (b : Block n) {received : Bytes} (le : received.length ≤ n) :
    (received ++ b.val.drop received.length).length = n := by
  rw [List.length_append, List.length_drop, b.property]
  omega

/-- The array after bytes that fit it were received into its start. -/
def receive (b : Block n) (received : Bytes) (le : received.length ≤ n) : Block n :=
  ⟨received ++ b.val.drop received.length, b.length_receive le⟩

lemma length_patch (b : Block n) {offset : ℕ} {bytes : Bytes} (h : offset + bytes.length ≤ n) :
    (b.val.take offset ++ (bytes ++ b.val.drop (offset + bytes.length))).length = n := by
  rw [List.length_append, List.length_append, List.length_take, List.length_drop, b.property]
  omega

/-- `b[i]`. -/
def read (b : Block n) (i : ℕ) : Except OutOfBounds UInt8 :=
  match b.val[i]? with
  | some c => .ok c
  | none => .error .outOfBounds

/-- `b[i] = c`. -/
def write (b : Block n) (i : ℕ) (c : UInt8) : Except OutOfBounds (Block n) :=
  if i < n then .ok ⟨b.val.set i c, List.length_set.trans b.property⟩ else .error .outOfBounds

/-- `memcpy(b, src + offset, count)`. -/
def copy (b : Block m) (src : Block n) (offset count : ℕ) : Except OutOfBounds (Block m) :=
  if h : offset + count ≤ n ∧ count ≤ m then
    .ok (b.receive ((src.val.drop offset).take count) ((List.length_take_le _ _).trans h.2))
  else .error .outOfBounds

/-- `sprintf` of a text, with its NUL. -/
def print (b : Block n) (text : Bytes) : Except OutOfBounds (Block n) :=
  if h : (text ++ [0]).length ≤ n then .ok (b.receive (text ++ [0]) h) else .error .outOfBounds

/-- `memcpy(b + offset, bytes, count)`, of bytes from elsewhere. -/
def patch (b : Block n) (offset : ℕ) (bytes : Bytes) : Except OutOfBounds (Block n) :=
  if h : offset + bytes.length ≤ n then
    .ok ⟨b.val.take offset ++ (bytes ++ b.val.drop (offset + bytes.length)), b.length_patch h⟩
  else .error .outOfBounds

/-- `memmove(b + dst, b + src, count)`. -/
def move (b : Block n) (dst src count : ℕ) : Except OutOfBounds (Block n) :=
  if src + count ≤ n then b.patch dst ((b.val.drop src).take count) else .error .outOfBounds

/-- The array as a string, which needs a NUL in it. -/
def string (b : Block n) : Except OutOfBounds Bytes :=
  if 0 ∈ b.val then .ok (cstr b.val) else .error .outOfBounds

/-! ### What was received -/

variable {received : Bytes} (b : Block n) (le : received.length ≤ n)

lemma val_receive : (b.receive received le).val = received ++ b.val.drop received.length := rfl

lemma read_of_lt {i : ℕ} (hi : i < n) : b.read i = .ok (b.val.getD i 0) := by
  have hlen : i < b.val.length := by rwa [b.property]
  rw [read, List.getD, List.getElem?_eq_getElem hlen]
  rfl

/-- A byte that was received is read. -/
lemma read_receive {i : ℕ} (hi : i < received.length) :
    (b.receive received le).read i = .ok (received.getD i 0) := by
  rw [read_of_lt _ (hi.trans_le le), receive]
  simp [List.getD, List.getElem?_append_left hi]

/-- A part that was received is copied to an array that is long enough. -/
lemma copy_receive {offset count : ℕ} (hi : offset + count ≤ received.length) (dst : Block m)
    (hm : ((received.drop offset).take count).length ≤ m) (hcount : count ≤ m) :
    dst.copy (b.receive received le) offset count =
      .ok (dst.receive ((received.drop offset).take count) hm) := by
  have hslice : ((b.receive received le).val.drop offset).take count =
      (received.drop offset).take count := by
    rw [receive, List.drop_append_of_le_length (by omega), List.take_append_of_le_length]
    rw [List.length_drop]
    omega
  rw [copy, dif_pos ⟨hi.trans le, hcount⟩]
  simp only [hslice]

/-! ### Overwriting and inserting -/

section Patch

variable {b : Block n} {x y z seg bytes : Bytes}

lemma patch_of_le {offset : ℕ} (h : offset + bytes.length ≤ n) :
    ∃ b', b.patch offset bytes = .ok b' ∧
      b'.val = b.val.take offset ++ (bytes ++ b.val.drop (offset + bytes.length)) :=
  ⟨_, dif_pos h, rfl⟩

/-- **Bytes in the middle** are overwritten by as many others. -/
lemma patch_middle (hb : b.val = x ++ (seg ++ z)) (hlen : bytes.length = seg.length) :
    ∃ b', b.patch x.length bytes = .ok b' ∧ b'.val = x ++ (bytes ++ z) := by
  have hn : x.length + bytes.length ≤ n := by
    rw [← b.property, hb, List.length_append, List.length_append]
    omega
  obtain ⟨b', hpatch, hval⟩ := patch_of_le (b := b) hn
  refine ⟨b', hpatch, ?_⟩
  rw [hval, hb, hlen, List.take_left, ← List.drop_drop, List.drop_left, List.drop_left]

/-- **Bytes in the middle** are replaced by more of them: what follows is moved first. -/
lemma move_patch (hb : b.val = x ++ (seg ++ (y ++ z))) (hle : seg.length ≤ bytes.length)
    (hfit : x.length + bytes.length + y.length ≤ n) :
    ∃ moved b' rest, b.move (x.length + bytes.length) (x.length + seg.length) y.length = .ok moved ∧
      moved.patch x.length bytes = .ok b' ∧ b'.val = x ++ (bytes ++ (y ++ rest)) := by
  have hlen : b.val.length = n := b.property
  have hsrc : (b.val.drop (x.length + seg.length)).take y.length = y := by
    rw [hb, ← List.drop_drop, List.drop_left, List.drop_left, List.take_left]
  have hmove : b.move (x.length + bytes.length) (x.length + seg.length) y.length =
      b.patch (x.length + bytes.length) y := by
    rw [move, hsrc, if_pos]
    omega
  obtain ⟨gap, hgap, hsplit⟩ : ∃ gap : Bytes, gap.length = bytes.length ∧
      b.val.take (x.length + bytes.length) = x ++ gap := by
    refine ⟨(b.val.drop x.length).take bytes.length, ?_, ?_⟩
    · rw [List.length_take, List.length_drop]
      omega
    · rw [List.take_add, hb, List.take_left]
  obtain ⟨moved, hmoved, hval⟩ := patch_of_le (b := b) hfit
  rw [hsplit, List.append_assoc] at hval
  obtain ⟨b', hpatch, hval'⟩ := patch_middle hval hgap.symm
  exact ⟨moved, b', _, hmove.trans hmoved, hpatch, hval'⟩

end Patch

/-! ### Strings -/

/-- A text, with a NUL behind it, is read back. -/
lemma cstr_append_zero (text rest : Bytes) : cstr (text ++ 0 :: rest) = cstr text := by
  rw [cstr, cstr, List.takeWhile_append]
  split
  · rename_i hall
    rw [List.takeWhile_cons_of_neg (by simp), List.append_nil]
    exact ((List.takeWhile_prefix _).eq_of_length hall).symm
  · rfl

variable {b} in
/-- **A text with a NUL behind it** is what the array is as a string. -/
lemma string_of_val {text rest : Bytes} (hval : b.val = text ++ 0 :: rest) :
    b.string = .ok (cstr text) := by
  rw [string, hval, if_pos (by simp), cstr_append_zero]

variable {b} in
lemma string_of_not_nul {text rest : Bytes} (hval : b.val = text ++ 0 :: rest)
    (hnul : ∀ c ∈ text, c ≠ 0) : b.string = .ok text := by
  rw [string_of_val hval, cstr_of_not_nul hnul]

/-- A text that was copied to an array of zeros, and leaves one, is read back. -/
lemma string_receive_zero {text : Bytes} (h : text.length ≤ m) (hlt : text.length < m) :
    ((zero m).receive text h).string = .ok (cstr text) := by
  obtain ⟨k, hk⟩ : ∃ k, m - text.length = k + 1 := ⟨m - text.length - 1, by omega⟩
  have hval : ((zero m).receive text h).val = text ++ 0 :: List.replicate k 0 := by
    rw [val_receive, zero, List.drop_replicate, hk, List.replicate_succ]
  exact string_of_val hval

/-- The NUL behind a text that was copied to an array of zeros changes nothing. -/
lemma write_receive_zero {text : Bytes} (h : text.length ≤ m) (hlt : text.length < m) {i : ℕ}
    (hi : text.length = i) :
    ((zero m).receive text h).write i 0 = .ok ((zero m).receive text h) := by
  subst hi
  obtain ⟨k, hk⟩ : ∃ k, m - text.length = k + 1 := ⟨m - text.length - 1, by omega⟩
  have hval : ((zero m).receive text h).val = text ++ 0 :: List.replicate k 0 := by
    rw [val_receive, zero, List.drop_replicate, hk, List.replicate_succ]
  rw [write, if_pos hlt]
  refine congrArg Except.ok (Subtype.ext ?_)
  simp [hval]

/-- A text that was printed into an array is read back. -/
lemma string_print {text : Bytes} (h : (text ++ [0]).length ≤ n) :
    (b.receive (text ++ [0]) h).string = .ok (cstr text) := by
  have hval : (b.receive (text ++ [0]) h).val = text ++ 0 :: b.val.drop (text ++ [0]).length := by
    rw [val_receive, List.append_assoc, List.singleton_append]
  exact string_of_val hval

lemma print_of_lt {text : Bytes} (h : (text ++ [0]).length ≤ n) :
    b.print text = .ok (b.receive (text ++ [0]) h) := dif_pos h

end Block

end CString
