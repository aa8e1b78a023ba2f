import ProxyMax.Auth.Users
import ProxyMax.Config.Blanks

/-!
Comments in a configuration file and in a file of users.

* `CommentedFile`: a file with one more line, which is a comment of any length.
* `laterPieces`: what is read of a comment that is longer than the buffer, after its first
  piece.
* `CommentedFile.fileEntries_text`, `CommentedFile.fileUsers_text`: what the later pieces set
  and name comes between what the other lines do.
* `comment_inert_iff`: when the comment makes no difference to either loader.
-/

namespace ProxyMax

open CString TextFile Overlay

/-- A file of whole lines, a comment, and the lines after it. -/
structure CommentedFile where
  before : Bytes
  comment : Bytes
  after : Bytes
  before_lines : WholeLines before
  hash : comment.head? = some 35
  comment_bytes : ∀ c ∈ comment, c ≠ 0 ∧ c ≠ 10

/-- What a loader with a buffer of `size` bytes reads of a comment after the first read. -/
def laterPieces (size : ℕ) (comment : Bytes) : List Bytes :=
  (reads size ((comment ++ [10]).drop (size - 1))).map beforeNewline

namespace CommentedFile

variable (file : CommentedFile)

/-- The file. -/
def text : Bytes := file.before ++ (file.comment ++ [10]) ++ file.after

/-- The file without the comment. -/
def without : Bytes := file.before ++ file.after

/-- Both loaders leave what they leave without the comment. -/
def Inert : Prop :=
  (∀ config, configLoad (some file.text) config = configLoad (some file.without) config) ∧
    ∀ mem l, authInit (some file.text) mem l = authInit (some file.without) mem l

/-- The first read of the comment is a comment, the others are the later pieces. -/
lemma map_reads_comment {size : ℕ} (hsize : 2 < size) :
    ∃ first, first.head? = some 35 ∧
      (reads size (file.comment ++ [10])).map beforeNewline =
        first :: laterPieces size file.comment := by
  obtain ⟨comment, hcons⟩ := List.head?_eq_some_iff.mp file.hash
  have hten : (10 : UInt8) ∉ file.comment := fun hmem => (file.comment_bytes 10 hmem).2 rfl
  obtain ⟨count, hcount, hread⟩ :=
    reads_cons (s := file.comment ++ [10]) (Nat.lt_of_succ_lt hsize) (by simp)
  rw [takeWhile_append_cons hten] at hcount
  have hdrop : (file.comment ++ [10]).drop count = (file.comment ++ [10]).drop (size - 1) := by
    rcases Nat.le_total (size - 1) (file.comment.length + 1) with hle | hle
    · rw [hcount, Nat.min_eq_left hle]
    · have hlen : (file.comment ++ [10]).length = file.comment.length + 1 := List.length_append
      rw [hcount, Nat.min_eq_right hle, List.drop_eq_nil_of_le (by omega),
        List.drop_eq_nil_of_le (by omega)]
  refine ⟨beforeNewline ((file.comment ++ [10]).take count), ?_, ?_⟩
  · obtain ⟨k, rfl⟩ : ∃ k, count = k + 1 := ⟨count - 1, by omega⟩
    rw [hcons, List.cons_append, List.take_succ_cons]
    rfl
  · rw [hread, List.map_cons, hdrop, laterPieces]

/-- What is read of the file, with a comment before the later pieces. -/
lemma map_reads_text {size : ℕ} (hsize : 2 < size) :
    ∃ first, first.head? = some 35 ∧
      (reads size file.text).map beforeNewline =
        (reads size file.before).map beforeNewline ++ first :: laterPieces size file.comment ++
          (reads size file.after).map beforeNewline := by
  obtain ⟨first, hfirst, hpieces⟩ := file.map_reads_comment hsize
  have hline : WholeLines (file.comment ++ [10]) := .inr (List.getLast?_concat ..)
  refine ⟨first, hfirst, ?_⟩
  rw [text, List.append_assoc, reads_append (by omega) file.before_lines,
    reads_append (by omega) hline, List.map_append, List.map_append, hpieces, List.append_assoc]

lemma map_reads_without {size : ℕ} (hsize : 2 < size) :
    (reads size file.without).map beforeNewline =
      (reads size file.before).map beforeNewline ++ (reads size file.after).map beforeNewline := by
  rw [without, reads_append (by omega) file.before_lines, List.map_append]

/-- **The assignments of the file**: those in the later pieces are between the others. -/
lemma fileEntries_text :
    fileEntries file.text = fileEntries file.before ++
      (laterPieces 1024 file.comment).filterMap lineEntry ++ fileEntries file.after := by
  obtain ⟨first, hfirst, hreads⟩ := file.map_reads_text (by decide : 2 < 1024)
  have hskip : lineEntry first = none := by
    rw [lineEntry, parseLine, if_pos (.inl hfirst), Option.bind_none]
  rw [fileEntries, hreads, List.filterMap_append, List.filterMap_append,
    List.filterMap_cons_none hskip]
  rfl

lemma fileEntries_without :
    fileEntries file.without = fileEntries file.before ++ fileEntries file.after := by
  rw [fileEntries, file.map_reads_without (by decide), List.filterMap_append]
  rfl

end CommentedFile

/-! ### The users -/

/-- The users are entered in the list, one after another; `mem n` is what the allocation
after `n` others gives. -/
def enterUsers (mem : ℕ → Option AuthMemory) : List (Bytes × Bytes) → ℕ → AuthList → AuthList
  | [], _, l => l
  | user :: users, n, l =>
      match mem n with
      | none => enterUsers mem users (n + 1) l
      | some block =>
          enterUsers mem users (n + 1) ⟨block.credentials user l.head :: l.users, block.address⟩

/-- The credentials in what is read of a file. -/
def fileUsers (content : Bytes) : List (Bytes × Bytes) :=
  ((reads 512 content).map beforeNewline).filterMap parseCredential

lemma authLoad_eq (mem : ℕ → Option AuthMemory) (rs : List Bytes) (n : ℕ) (l : AuthList) :
    authLoad mem rs n l =
      enterUsers mem ((rs.map beforeNewline).filterMap parseCredential) n l := by
  induction rs generalizing n l with
  | nil => rfl
  | cons read rs ih =>
      rw [authLoad, List.map_cons]
      cases hparse : parseCredential (beforeNewline read) with
      | none => rw [List.filterMap_cons_none hparse, ← ih]
      | some user =>
          rw [List.filterMap_cons_some hparse, enterUsers]
          cases mem n with
          | none => exact ih (n + 1) l
          | some block => exact ih (n + 1) _

/-- **Loading a file of users** enters its credentials. -/
lemma authInit_eq (content : Bytes) (mem : ℕ → Option AuthMemory) (l : AuthList) :
    authInit (some content) mem l = (0, enterUsers mem (fileUsers content) 0 l) := by
  rw [authInit, authLoad_eq, fileUsers]

/-- With memory for all of them, all users are entered. -/
lemma length_enterUsers (mem : ℕ → AuthMemory) (users : List (Bytes × Bytes)) (n : ℕ)
    (l : AuthList) :
    (enterUsers (fun n => some (mem n)) users n l).users.length =
      users.length + l.users.length := by
  induction users generalizing n l with
  | nil => rw [enterUsers, List.length_nil, Nat.zero_add]
  | cons user users ih =>
      rw [enterUsers, ih, List.length_cons, List.length_cons]
      omega

namespace CommentedFile

variable (file : CommentedFile)

/-- **The credentials of the file**: those in the later pieces are between the others. -/
lemma fileUsers_text :
    fileUsers file.text = fileUsers file.before ++
      (laterPieces 512 file.comment).filterMap parseCredential ++ fileUsers file.after := by
  obtain ⟨first, hfirst, hreads⟩ := file.map_reads_text (by decide : 2 < 512)
  have hskip : parseCredential first = none := by rw [parseCredential, if_pos (.inl hfirst)]
  rw [fileUsers, hreads, List.filterMap_append, List.filterMap_append,
    List.filterMap_cons_none hskip]
  rfl

lemma fileUsers_without :
    fileUsers file.without = fileUsers file.before ++ fileUsers file.after := by
  rw [fileUsers, file.map_reads_without (by decide), List.filterMap_append]
  rfl

/-- No later piece of the comment is read as a user. -/
def NoUser : Prop := ∀ piece ∈ laterPieces 512 file.comment, parseCredential piece = none

/-- Each setting that a later piece of the comment makes is made again after the comment,
or was made last with the same value before it. -/
def NoSetting : Prop :=
  ∀ setting v, lastValue setting ((laterPieces 1024 file.comment).filterMap lineEntry) = some v →
    lastValue setting (fileEntries file.after) ≠ none ∨
      lastValue setting (fileEntries file.before) = some v

/-- The configuration is the same exactly when the comment makes no new setting. -/
lemma configLoad_iff :
    (∀ config, configLoad (some file.text) config = configLoad (some file.without) config) ↔
      file.NoSetting := by
  have : Nonempty ProxyConfig := ⟨configSetDefaults⟩
  rw [NoSetting, ← assign_between_iff proxyRecord exists_value_ne]
  refine forall_congr' fun config => ?_
  rw [configLoad_eq, configLoad_eq, file.fileEntries_text, file.fileEntries_without]
  exact ⟨fun h => (Prod.mk.inj h).2, fun h => congrArg (Prod.mk 0) h⟩

/-- The list is the same exactly when the comment holds no user. -/
lemma authInit_iff :
    (∀ mem l, authInit (some file.text) mem l = authInit (some file.without) mem l) ↔
      file.NoUser := by
  rw [NoUser, ← List.filterMap_eq_nil_iff]
  constructor
  · intro hsame
    have hlen := congrArg (fun r => r.2.users.length)
      (hsame (fun n => some (filledMemory 0 n)) .empty)
    simp only [authInit_eq, length_enterUsers, file.fileUsers_text, file.fileUsers_without,
      List.length_append] at hlen
    exact List.length_eq_zero_iff.mp (by omega)
  · intro hnil mem l
    rw [authInit_eq, authInit_eq, file.fileUsers_text, file.fileUsers_without, hnil,
      List.append_nil]

end CommentedFile

/-- **A comment is inert** if and only if none of its pieces after the first 511 bytes is read
as a user, and each setting in a piece after the first 1023 bytes is made again after the
comment, or has its value from before. -/
theorem comment_inert_iff (file : CommentedFile) :
    file.Inert ↔ file.NoSetting ∧ file.NoUser :=
  and_congr file.configLoad_iff file.authInit_iff

/-- A file with a comment of 1029 bytes alone, whose end is a setting. -/
def longComment : CommentedFile where
  before := []
  comment := 35 :: (List.replicate 1022 45 ++ ascii "port=1")
  after := []
  before_lines := .inl rfl
  hash := rfl
  comment_bytes := by decide +kernel

/-- The end of the comment sets the port. -/
theorem long_comment_sets_port :
    (configLoad (some longComment.text) configSetDefaults).2.port = 1 ∧
      (configLoad (some longComment.without) configSetDefaults).2.port = 8080 ∧
      ¬longComment.Inert := by
  have htext : (configLoad (some longComment.text) configSetDefaults).2.port = 1 := by
    decide +kernel
  have hwithout : (configLoad (some longComment.without) configSetDefaults).2.port = 8080 := by
    decide +kernel
  refine ⟨htext, hwithout, fun hinert => ?_⟩
  rw [hinert.1 configSetDefaults, hwithout] at htext
  exact absurd htext (by decide)

end ProxyMax
