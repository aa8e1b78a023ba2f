import ProxyMax.Auth.Basic
import ProxyMax.Lib.TextFile

/-!
`auth_init` of `src/auth/auth.c`: the users in a file, and who is verified afterwards.

* `AuthMemory`, `AuthList`: the blocks that `malloc` gives, and the list of users.
* `parseCredential`, `authLoad`, `authInit`: the code.
* `Listed`: the credentials that the lines of a file name; `mem_credentials_iff` says that
  the parser finds these.
* `authLoad_stored`: each of them is stored in a record of its own, whatever was in the
  memory; `cstr_strncpy_append` is what a field of 127 bytes and more reads as.
* `auth_file_iff`: those listed are verified, and no others, whatever was in the memory,
  exactly when they fit in their fields.
-/

namespace ProxyMax

open CString TextFile

/-! ### The code -/

/-- A block of memory for a `struct auth_credentials`, with what it holds before it is
written to, and the pointer to it. -/
structure AuthMemory where
  username : Bytes
  password : Bytes
  address : Bytes
  length_username : username.length = 128
  length_password : password.length = 128
  length_address : address.length = 8

/-- The null pointer. -/
def nullPointer : Bytes := List.replicate 8 0

/-- The list of users, and the pointer `g_users` to its first record. -/
structure AuthList where
  users : List AuthCredentials
  head : Bytes

/-- The list before any user is entered. -/
def AuthList.empty : AuthList := ⟨[], nullPointer⟩

/-- The line as `auth_init` parses it: the user name and the password, unless the line is
skipped. -/
def parseCredential (line : Bytes) : Option (Bytes × Bytes) :=
  if line.head? = some 35 ∨ line = [] then none
  else (strchr line 58).map fun colon => (line.takeWhile (· ≠ 58), colon.tail)

/-- A record for a user, in the block and linked to the list: the last byte of each field
is not written. -/
def AuthMemory.credentials (block : AuthMemory) (user : Bytes × Bytes) (next : Bytes) :
    AuthCredentials where
  username := strncpy user.1 127 ++ block.username.drop 127
  password := strncpy user.2 127 ++ block.password.drop 127
  next := next

/-- The loop of `auth_init` over what `fgets` reads; `mem n` is what the allocation after
`n` others gives. -/
def authLoad (mem : ℕ → Option AuthMemory) : List Bytes → ℕ → AuthList → AuthList
  | [], _, l => l
  | read :: rest, n, l =>
      match parseCredential (beforeNewline read) with
      | none => authLoad mem rest n l
      | some user =>
          match mem n with
          | none => authLoad mem rest (n + 1) l
          | some block =>
              authLoad mem rest (n + 1) ⟨block.credentials user l.head :: l.users, block.address⟩

/-- `strcpy` of "admin" into a field. -/
def strcpyAdmin (field : Bytes) : Bytes := ascii "admin" ++ 0 :: field.drop 6

/-- `auth_init`: its result and the list, when `file` is what the file holds, or `none` if
none is named or it does not open. -/
def authInit (file : Option Bytes) (mem : ℕ → Option AuthMemory) (l : AuthList) : ℤ × AuthList :=
  match file with
  | none =>
      match mem 0 with
      | none => (0, l)
      | some block =>
          (0, ⟨[⟨strcpyAdmin block.username, strcpyAdmin block.password, nullPointer⟩],
            block.address⟩)
  | some content => (0, authLoad mem (reads 512 content) 0 l)

/-! ### What a file lists -/

/-- A line that is not a comment names the user and the password. -/
def Listed (file u p : Bytes) : Prop :=
  ∃ line ∈ textLines file, line.head? ≠ some 35 ∧ line = u ++ 58 :: p ∧ 58 ∉ u

lemma strchr_map_tail {line u p : Bytes} {colon : Bytes} (h : strchr line 58 = some colon)
    (hu : line.takeWhile (· ≠ 58) = u) (hp : colon.tail = p) : line = u ++ 58 :: p ∧ 58 ∉ u := by
  have hnotin : (58 : UInt8) ∉ u := fun hmem => by
    rw [← hu] at hmem
    simpa using List.mem_takeWhile_imp hmem
  refine ⟨?_, hnotin⟩
  have hmem : (58 : UInt8) ∈ line := by
    by_contra hno
    rw [strchr_eq_none_iff.mpr hno] at h
    cases h
  obtain ⟨a, b, hline, ha⟩ : ∃ a b, line = a ++ 58 :: b ∧ (58 : UInt8) ∉ a :=
    List.eq_append_cons_of_mem hmem
  rw [hline, strchr_append ha] at h
  rw [hline, takeWhile_append_cons ha] at hu
  rw [hline, hu, ← hp, ← Option.some.inj h, List.tail_cons]

/-- **What is parsed of a line.** -/
lemma parseCredential_eq_some {line u p : Bytes} :
    parseCredential line = some (u, p) ↔
      line.head? ≠ some 35 ∧ line = u ++ 58 :: p ∧ 58 ∉ u := by
  rw [parseCredential]
  constructor
  · intro h
    split_ifs at h with hskip
    obtain ⟨colon, hcolon, hpair⟩ := Option.map_eq_some_iff.mp h
    obtain ⟨hu, hp⟩ := Prod.mk.inj hpair
    exact ⟨fun hhead => hskip (.inl hhead), strchr_map_tail hcolon hu hp⟩
  · rintro ⟨hhead, rfl, hu⟩
    rw [if_neg (by simpa using hhead), strchr_append hu, Option.map_some,
      takeWhile_append_cons hu, List.tail_cons]

/-- The credentials of a file, as `auth_init` parses them. -/
def credentials (file : Bytes) : List (Bytes × Bytes) := (textLines file).filterMap parseCredential

lemma mem_credentials_iff {file u p : Bytes} : (u, p) ∈ credentials file ↔ Listed file u p := by
  rw [credentials, List.mem_filterMap, Listed]
  simp only [parseCredential_eq_some]

/-! ### What is stored -/

section Stored

variable {mem : ℕ → AuthMemory}

/-- A record of a user, in one of the blocks. -/
def Stored (mem : ℕ → AuthMemory) (user : Bytes × Bytes) (record : AuthCredentials) : Prop :=
  ∃ n next, record = (mem n).credentials user next

/-- **The loop** puts a record for each user before those that are there. -/
lemma authLoad_stored (mem : ℕ → AuthMemory) (rs : List Bytes) :
    ∀ (n : ℕ) (l : AuthList) (users : List (Bytes × Bytes)),
      List.Forall₂ (Stored mem) users l.users →
      List.Forall₂ (Stored mem)
        (((rs.map beforeNewline).filterMap parseCredential).reverse ++ users)
        (authLoad (fun n => some (mem n)) rs n l).users := by
  induction rs with
  | nil => exact fun _ _ _ h => h
  | cons read rs ih =>
      intro n l users h
      rw [List.map_cons, List.filterMap_cons, authLoad]
      cases hparse : parseCredential (beforeNewline read) with
      | none => exact ih n l users h
      | some user =>
          have hnew := ih (n + 1) ⟨(mem n).credentials user l.head :: l.users, (mem n).address⟩
            (user :: users) (.cons ⟨n, l.head, rfl⟩ h)
          rw [List.reverse_cons, List.append_assoc, List.singleton_append]
          exact hnew

/-- The users after `auth_init` with a file whose lines fit and memory for all of them. -/
lemma authInit_stored {file : Bytes}
    (hlines : ∀ line ∈ textLines file, line.length < 511 ∧ ∀ c ∈ line, c ≠ 0)
    (mem : ℕ → AuthMemory) :
    List.Forall₂ (Stored mem) (credentials file).reverse
      (authInit (some file) (fun n => some (mem n)) .empty).2.users := by
  have hreads := @reads_eq 512 file fun line hline =>
    ⟨Nat.add_lt_add_right (hlines line hline).1 1, (hlines line hline).2⟩
  have hstored := authLoad_stored mem (reads 512 file) 0 .empty [] .nil
  rwa [hreads, List.append_nil] at hstored

lemma exists_of_forall₂ {α β : Type} {R : α → β → Prop} {as : List α} {bs : List β}
    (h : List.Forall₂ R as bs) {a : α} (ha : a ∈ as) : ∃ b ∈ bs, R a b := by
  induction h with
  | nil => exact absurd ha List.not_mem_nil
  | cons hab _ ih =>
      rcases List.mem_cons.mp ha with rfl | ha
      · exact ⟨_, List.mem_cons_self, hab⟩
      · obtain ⟨b, hb, hR⟩ := ih ha
        exact ⟨b, List.mem_cons_of_mem _ hb, hR⟩

lemma authVerify_eq_zero {users : List AuthCredentials} {u p : Bytes} :
    authVerify users u p = 0 ↔ ∃ record ∈ users,
      cstr (record.username ++ record.password ++ record.next) = u ∧
        cstr (record.password ++ record.next) = p := by
  rw [authVerify]
  split_ifs with h
  · simpa using h
  · exact iff_of_false (by decide) (by simpa using h)

/-- A record that is read as a user belongs to some credential of the file. -/
lemma exists_stored {file : Bytes}
    (hlines : ∀ line ∈ textLines file, line.length < 511 ∧ ∀ c ∈ line, c ≠ 0) {u p : Bytes}
    (h : authVerify (authInit (some file) (fun n => some (mem n)) .empty).2.users u p = 0) :
    ∃ user ∈ credentials file, ∃ record, Stored mem user record ∧
      cstr (record.username ++ record.password ++ record.next) = u ∧
      cstr (record.password ++ record.next) = p := by
  obtain ⟨record, hmem, hread⟩ := authVerify_eq_zero.mp h
  obtain ⟨user, huser, hstored⟩ :=
    exists_of_forall₂ (List.Forall₂.flip (authInit_stored hlines mem)) hmem
  exact ⟨user, List.mem_reverse.mp huser, record, hstored, hread⟩

/-- The record of a user that fits reads as the user. -/
lemma Stored.read {u p : Bytes} {record : AuthCredentials} (h : Stored mem (u, p) record)
    (hu : ∀ c ∈ u, c ≠ 0) (hp : ∀ c ∈ p, c ≠ 0) (hulen : u.length ≤ 126) (hplen : p.length ≤ 126) :
    cstr (record.username ++ record.password ++ record.next) = u ∧
      cstr (record.password ++ record.next) = p := by
  obtain ⟨n, next, rfl⟩ := h
  constructor
  · rw [AuthMemory.credentials, List.append_assoc, List.append_assoc]
    exact cstr_strncpy hu (by omega) _
  · rw [AuthMemory.credentials, List.append_assoc]
    exact cstr_strncpy hp (by omega) _

/-- The users that a file lists have neither a NUL nor an end of line. -/
lemma Listed.ne_zero {file u p : Bytes}
    (hlines : ∀ line ∈ textLines file, line.length < 511 ∧ ∀ c ∈ line, c ≠ 0)
    (h : Listed file u p) : (∀ c ∈ u, c ≠ 0) ∧ ∀ c ∈ p, c ≠ 0 := by
  obtain ⟨line, hmem, -, rfl, -⟩ := h
  have hnul := (hlines _ hmem).2
  exact ⟨fun c hc => hnul c (List.mem_append_left _ hc),
    fun c hc => hnul c (List.mem_append_right _ (List.mem_cons_of_mem _ hc))⟩

end Stored

/-! ### Fields that are too short -/

/-- The field and what follows it, when the last byte of the field is `c`: no text reads as
one that fills the field and has another byte there. -/
lemma cstr_field_ne {c : UInt8} (hc : c ≠ 0) {x y : Bytes} (hx : 127 ≤ x.length)
    (hxc : x[127]? ≠ some c) (hy : ∀ b ∈ y, b ≠ 0) (rest : Bytes) :
    cstr (strncpy y 127 ++ c :: rest) ≠ x := by
  intro heq
  rcases Nat.lt_or_ge y.length 127 with hlt | hge
  · rw [cstr_strncpy hy hlt] at heq
    rw [heq] at hlt
    omega
  · have htake : ∀ b ∈ y.take 127, b ≠ 0 := fun b hb => hy b (List.mem_of_mem_take hb)
    have hlen : (y.take 127).length = 127 := by rw [List.length_take]; omega
    have hfull : strncpy y 127 = y.take 127 := by
      rw [strncpy, Nat.sub_eq_zero_of_le hge, List.replicate_zero, List.append_nil]
    have hread : cstr (c :: rest) = c :: cstr rest := by simp [cstr, hc]
    rw [hfull, cstr_append htake, hread] at heq
    refine hxc ?_
    rw [← heq, List.getElem?_append_right hlen.le, hlen]
    rfl

/-- Memory that was filled with one byte. -/
def filledMemory (c : UInt8) (_ : ℕ) : AuthMemory where
  username := List.replicate 128 c
  password := List.replicate 128 c
  address := 16 :: List.replicate 7 0
  length_username := List.length_replicate ..
  length_password := List.length_replicate ..
  length_address := rfl

lemma exists_other_byte (x : Bytes) : ∃ c : UInt8, c ≠ 0 ∧ x[127]? ≠ some c := by
  by_cases h : x[127]? = some 1
  · exact ⟨2, by decide, by rw [h]; decide⟩
  · exact ⟨1, by decide, h⟩

/-- The record of a user in such memory does not read as one who fills a field. -/
lemma stored_filledMemory_ne {c : UInt8} (hc : c ≠ 0) {u p x : Bytes} {record : AuthCredentials}
    (h : Stored (filledMemory c) (u, p) record) (hu : ∀ b ∈ u, b ≠ 0) (hp : ∀ b ∈ p, b ≠ 0)
    (hx : 127 ≤ x.length) (hxc : x[127]? ≠ some c) :
    cstr (record.username ++ record.password ++ record.next) ≠ x ∧
      cstr (record.password ++ record.next) ≠ x := by
  obtain ⟨n, next, rfl⟩ := h
  have hdrop : (List.replicate 128 c).drop 127 = [c] := by rw [List.drop_replicate]; rfl
  simp only [AuthMemory.credentials, filledMemory, hdrop, List.append_assoc,
    List.singleton_append]
  exact ⟨cstr_field_ne hc hx hxc hu _, cstr_field_ne hc hx hxc hp _⟩

/-- **The users of a file.** After `auth_init` with a file whose lines hold no NUL and fit,
exactly the credentials that it lists are verified, whatever was in the memory for them,
if and only if each of them leaves room for the last byte of its field. -/
theorem auth_file_iff (file : Bytes)
    (hlines : ∀ line ∈ textLines file, line.length < 511 ∧ ∀ c ∈ line, c ≠ 0) :
    (∀ (mem : ℕ → AuthMemory) (u p : Bytes), (∀ c ∈ u, c ≠ 0) → (∀ c ∈ p, c ≠ 0) →
      (authVerify (authInit (some file) (fun n => some (mem n)) .empty).2.users u p = 0 ↔
        Listed file u p)) ↔
      ∀ u p, Listed file u p → u.length ≤ 126 ∧ p.length ≤ 126 := by
  constructor
  · intro h u p hlisted
    obtain ⟨hu, hp⟩ := hlisted.ne_zero hlines
    -- one who fills a field is not verified, for some memory
    have hfits : ∀ x, x = u ∨ x = p → x.length ≤ 126 := by
      intro x hx
      by_contra hlong
      obtain ⟨c, hc, hxc⟩ := exists_other_byte x
      obtain ⟨⟨u', p'⟩, huser, record, hstored, hreadu, hreadp⟩ :=
        exists_stored hlines ((h (filledMemory c) u p hu hp).mpr hlisted)
      obtain ⟨hu', hp'⟩ := (mem_credentials_iff.mp huser).ne_zero hlines
      obtain ⟨hneu, hnep⟩ := stored_filledMemory_ne hc hstored hu' hp' (by omega) hxc
      rcases hx with rfl | rfl
      · exact hneu hreadu
      · exact hnep hreadp
    exact ⟨hfits u (.inl rfl), hfits p (.inr rfl)⟩
  · intro hfits mem u p hu hp
    have hread : ∀ {u p record}, (u, p) ∈ credentials file → Stored mem (u, p) record →
        cstr (record.username ++ record.password ++ record.next) = u ∧
          cstr (record.password ++ record.next) = p := by
      intro u p record hmem hstored
      have hlisted := mem_credentials_iff.mp hmem
      obtain ⟨hu, hp⟩ := hlisted.ne_zero hlines
      exact hstored.read hu hp (hfits u p hlisted).1 (hfits u p hlisted).2
    constructor
    · intro hverified
      obtain ⟨⟨u', p'⟩, huser, record, hstored, hreadu, hreadp⟩ := exists_stored hlines hverified
      obtain ⟨hu', hp'⟩ := hread huser hstored
      rw [← hreadu, ← hreadp, hu', hp']
      exact mem_credentials_iff.mp huser
    · intro hlisted
      have huser := mem_credentials_iff.mpr hlisted
      obtain ⟨record, hmem, hstored⟩ :=
        exists_of_forall₂ (authInit_stored hlines mem) (List.mem_reverse.mpr huser)
      exact authVerify_eq_zero.mpr ⟨record, hmem, hread huser hstored⟩

/-- A file with a comment and two users. -/
theorem auth_file_iff_users :
    authVerify (authInit (some (ascii "# users\nalice:secret\nbob:b:c"))
      (fun n => some (filledMemory 1 n)) .empty).2.users (ascii "bob") (ascii "b:c") = 0 := by
  refine ((auth_file_iff (ascii "# users\nalice:secret\nbob:b:c") (by decide +kernel)).mpr ?_
    (filledMemory 1) (ascii "bob") (ascii "b:c") (by decide +kernel) (by decide +kernel)).mpr ?_
  · intro u p hlisted
    have hmem := mem_credentials_iff.mpr hlisted
    have hall : ∀ user ∈ credentials (ascii "# users\nalice:secret\nbob:b:c"),
        user.1.length ≤ 126 ∧ user.2.length ≤ 126 := by decide +kernel
    exact hall (u, p) hmem
  · exact mem_credentials_iff.mp (by decide +kernel)

/-- A user name of 127 bytes is not verified when the memory held something else than a
NUL. -/
theorem long_user_rejected :
    (∀ line ∈ textLines (List.replicate 127 97 ++ ascii ":secret\n"),
      line.length < 511 ∧ ∀ c ∈ line, c ≠ 0) ∧
    Listed (List.replicate 127 97 ++ ascii ":secret\n") (List.replicate 127 97) (ascii "secret") ∧
    authVerify (authInit (some (List.replicate 127 97 ++ ascii ":secret\n"))
      (fun n => some (filledMemory 1 n)) .empty).2.users (List.replicate 127 97)
        (ascii "secret") = -1 :=
  ⟨by decide +kernel, mem_credentials_iff.mp (by decide +kernel), by decide +kernel⟩

end ProxyMax
