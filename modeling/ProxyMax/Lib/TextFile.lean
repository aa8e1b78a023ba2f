import ProxyMax.Lib.CString

/-!
Text files, read line by line.

* `textLines`: the lines of a file, without their ends.
* `fgets`, `reads`: what `fgets` returns, once and until the end of the file; it fills a
  buffer of a given size, with the end of the line if there is room.
* `beforeNewline`: what is left of a read when the end of the line is cut off.
* `reads_eq`: the reads of a file whose lines fit are its lines.
* `WholeLines`, `reads_append`: what follows a number of whole lines is read by itself.
* `AtLineEnd`, `map_reads_line`: a line that fits is one read, whatever the lines after it.
* `ofLines`: the file with given lines; `textLines_ofLines` reads them back.
-/

namespace TextFile

open CString

/-- The lines of a file. The last one may have no end. -/
def textLines : Bytes → List Bytes
  | [] => []
  | c :: s =>
      if c = 10 then [] :: textLines s
      else
        match textLines s with
        | [] => [[c]]
        | line :: lines => (c :: line) :: lines

/-- `fgets`: what is read, and what is left of the file; `none` at its end. -/
def fgets (size : ℕ) (s : Bytes) : Option (Bytes × Bytes) :=
  let count := min (size - 1) ((s.takeWhile (· ≠ 10)).length + 1)
  if s = [] then none else some (s.take count, s.drop count)

/-- "while (fgets(...))", for at most so many reads. -/
def readsFor (size : ℕ) : ℕ → Bytes → List Bytes
  | 0, _ => []
  | fuel + 1, s =>
      match fgets size s with
      | none => []
      | some (read, rest) => read :: readsFor size fuel rest

/-- All reads of a file. Each of them takes something of it. -/
def reads (size : ℕ) (s : Bytes) : List Bytes := readsFor size s.length s

/-- `line[strcspn(line, "\n")] = 0`. -/
def beforeNewline (read : Bytes) : Bytes := (cstr read).takeWhile (· ≠ 10)

/-- The first line, and the lines after it. -/
lemma textLines_eq {s : Bytes} (hs : s ≠ []) :
    textLines s =
      s.takeWhile (· ≠ 10) :: textLines (s.drop ((s.takeWhile (· ≠ 10)).length + 1)) := by
  induction s with
  | nil => exact absurd rfl hs
  | cons c s ih =>
      rw [textLines]
      split_ifs with hc
      · rw [List.takeWhile_cons_of_neg (by simpa using hc)]
        rfl
      · rw [List.takeWhile_cons_of_pos (by simpa using hc)]
        rcases eq_or_ne s [] with rfl | hne
        · rfl
        · rw [ih hne]
          rfl

/-- The read of a line that fits, when it holds no NUL. -/
lemma beforeNewline_line {line rest : Bytes} (hline : ∀ c ∈ line, c ≠ 0 ∧ c ≠ 10)
    (hrest : rest = [] ∨ rest = [10]) : beforeNewline (line ++ rest) = line := by
  rw [beforeNewline, cstr_append fun c hc => (hline c hc).1,
    List.takeWhile_append_of_pos fun c hc => by simpa using (hline c hc).2]
  rcases hrest with rfl | rfl
  · simp [cstr]
  · simp [cstr]

/-- One read of a file whose first line fits. -/
lemma fgets_line {size : ℕ} {s : Bytes} (hs : s ≠ [])
    (hfit : (s.takeWhile (· ≠ 10)).length + 1 < size) :
    ∃ rest, fgets size s = some (s.takeWhile (· ≠ 10) ++ rest,
        s.drop ((s.takeWhile (· ≠ 10)).length + 1)) ∧ (rest = [] ∨ rest = [10]) := by
  have hcount : min (size - 1) ((s.takeWhile (· ≠ 10)).length + 1) =
      (s.takeWhile (· ≠ 10)).length + 1 := by omega
  simp only [fgets, hcount, if_neg hs]
  have hsplit := List.takeWhile_append_dropWhile (p := (· ≠ 10)) (l := s)
  refine ⟨(s.dropWhile (· ≠ 10)).take 1, ?_, ?_⟩
  · have htake : s.take ((s.takeWhile (· ≠ 10)).length + 1) =
        s.takeWhile (· ≠ 10) ++ (s.dropWhile (· ≠ 10)).take 1 := calc
      _ = (s.takeWhile (· ≠ 10) ++ s.dropWhile (· ≠ 10)).take
          ((s.takeWhile (· ≠ 10)).length + 1) := by rw [hsplit]
      _ = _ := List.take_length_add_append ..
    rw [htake]
  · cases hd : s.dropWhile (· ≠ 10) with
    | nil => exact .inl rfl
    | cons c t =>
        have hhead := List.head?_dropWhile_not (· ≠ 10) s
        rw [hd] at hhead
        have hc : c = 10 := by simpa using hhead
        exact .inr (by rw [hc]; rfl)

/-- **The reads are the lines**, when they fit in the buffer and hold no NUL. -/
lemma reads_eq {size : ℕ} {s : Bytes}
    (hlines : ∀ line ∈ textLines s, line.length + 1 < size ∧ ∀ c ∈ line, c ≠ 0) :
    (reads size s).map beforeNewline = textLines s := by
  have hreads : ∀ fuel s, s.length ≤ fuel →
      (∀ line ∈ textLines s, line.length + 1 < size ∧ ∀ c ∈ line, c ≠ 0) →
      (readsFor size fuel s).map beforeNewline = textLines s := by
    intro fuel
    induction fuel with
    | zero =>
        intro s hlen _
        rw [List.length_eq_zero_iff.mp (Nat.le_zero.mp hlen)]
        rfl
    | succ fuel ih =>
        intro s hlen hlines
        rcases eq_or_ne s [] with rfl | hne
        · rfl
        · have hall := hlines
          rw [textLines_eq hne] at hlines ⊢
          obtain ⟨hfit, hnul⟩ := hlines _ List.mem_cons_self
          obtain ⟨rest, hread, hrest⟩ := fgets_line hne hfit
          have hfirst : ∀ c ∈ s.takeWhile (· ≠ 10), c ≠ 0 ∧ c ≠ 10 := fun c hc =>
            ⟨hnul c hc, by simpa using List.mem_takeWhile_imp hc⟩
          have hpos := List.length_pos_iff.mpr hne
          rw [readsFor, hread]
          show beforeNewline _ :: List.map _ _ = _
          rw [beforeNewline_line hfirst hrest, ih _ (by rw [List.length_drop]; omega)
            fun line hline => hlines line (List.mem_cons_of_mem _ hline)]
  exact hreads s.length s le_rfl hlines

section Append

variable {size : ℕ} {s pre rest line : Bytes}

/-- How much one read takes. -/
lemma fgets_eq (size : ℕ) (hs : s ≠ []) :
    ∃ count, count = min (size - 1) ((s.takeWhile (· ≠ 10)).length + 1) ∧
      fgets size s = some (s.take count, s.drop count) :=
  ⟨_, rfl, if_neg hs⟩

/-- With more fuel than the file is long, all of it is read. -/
lemma readsFor_eq (hsize : 1 < size) : ∀ {fuel : ℕ} {s : Bytes}, s.length ≤ fuel →
    readsFor size fuel s = reads size s := by
  have hfuel : ∀ fuel fuel' s, s.length ≤ fuel → s.length ≤ fuel' →
      readsFor size fuel s = readsFor size fuel' s := by
    intro fuel
    induction fuel with
    | zero =>
        intro fuel' s hlen _
        rw [List.length_eq_zero_iff.mp (Nat.le_zero.mp hlen)]
        cases fuel' <;> rfl
    | succ fuel ih =>
        intro fuel' s hlen hlen'
        rcases eq_or_ne s [] with rfl | hs
        · cases fuel' <;> rfl
        · have hpos := List.length_pos_iff.mpr hs
          obtain ⟨count, hcount, hread⟩ := fgets_eq size hs
          cases fuel' with
          | zero => omega
          | succ fuel' =>
              rw [readsFor, readsFor, hread]
              exact congrArg _ (ih fuel' _ (by rw [List.length_drop]; omega)
                (by rw [List.length_drop]; omega))
  intro fuel s hlen
  exact hfuel _ _ _ hlen le_rfl

/-- **One read after the other.** -/
lemma reads_cons (hsize : 1 < size) (hs : s ≠ []) :
    ∃ count, count = min (size - 1) ((s.takeWhile (· ≠ 10)).length + 1) ∧
      reads size s = s.take count :: reads size (s.drop count) := by
  obtain ⟨count, hcount, hread⟩ := fgets_eq size hs
  refine ⟨count, hcount, ?_⟩
  obtain ⟨c, s', rfl⟩ := List.exists_cons_of_ne_nil hs
  rw [reads, List.length_cons, readsFor, hread]
  refine congrArg _ (readsFor_eq hsize ?_)
  rw [List.length_drop, List.length_cons]
  omega

/-- The text is a number of whole lines. -/
def WholeLines (s : Bytes) : Prop := s = [] ∨ s.getLast? = some 10

/-- What follows whole lines is read by itself. -/
lemma reads_append (hsize : 1 < size) (hpre : WholeLines pre) (rest : Bytes) :
    reads size (pre ++ rest) = reads size pre ++ reads size rest := by
  induction hlen : pre.length using Nat.strong_induction_on generalizing pre with
  | _ n ih =>
      rcases eq_or_ne pre [] with rfl | hne
      · rfl
      · have hlast : pre.getLast? = some 10 := hpre.resolve_left hne
        have hten : (10 : UInt8) ∈ pre := List.mem_of_mem_getLast? hlast
        obtain ⟨a, b, rfl, ha⟩ := List.eq_append_cons_of_mem hten
        have hline : ∀ t : Bytes, (a ++ 10 :: t).takeWhile (· ≠ 10) = a :=
          fun t => takeWhile_append_cons ha t
        obtain ⟨count, hcount, hread⟩ := reads_cons hsize hne
        obtain ⟨count', hcount', hread'⟩ :=
          reads_cons (s := a ++ 10 :: b ++ rest) hsize (by simp)
        rw [List.append_assoc, List.cons_append, hline] at hcount'
        rw [hline, ← hcount'] at hcount
        rw [hcount] at hread
        have hle : count' ≤ (a ++ 10 :: b).length := by
          rw [List.length_append, List.length_cons]
          omega
        have hwhole : WholeLines ((a ++ 10 :: b).drop count') := by
          rcases eq_or_ne ((a ++ 10 :: b).drop count') [] with hnil | hrest
          · exact .inl hnil
          · refine .inr ?_
            rw [List.getLast?_drop, if_neg, hlast]
            exact fun hall => hrest (List.drop_eq_nil_of_le hall)
        rw [hread', hread, List.take_append_of_le_length hle, List.drop_append_of_le_length hle,
          ih _ ?_ hwhole rfl, List.cons_append]
        rw [← hlen, List.length_drop, List.length_append, List.length_cons]
        omega

/-- The text begins where a line ends. -/
def AtLineEnd (s : Bytes) : Prop := s = [] ∨ s.head? = some 10

/-- A line that fits is one read. -/
lemma map_reads_line (hline : ∀ c ∈ line, c ≠ 0 ∧ c ≠ 10) (hfit : line.length + 1 < size)
    (hne : line ≠ []) (hrest : AtLineEnd rest) :
    (reads size (line ++ rest)).map beforeNewline =
      line :: (reads size (rest.drop 1)).map beforeNewline := by
  have hten : (10 : UInt8) ∉ line := fun hmem => (hline 10 hmem).2 rfl
  have htake : (line ++ rest).takeWhile (· ≠ 10) = line := by
    rcases hrest with rfl | hhead
    · rw [List.append_nil, List.takeWhile_eq_self_iff]
      exact fun c hc => by simpa using (hline c hc).2
    · obtain ⟨post, rfl⟩ := List.head?_eq_some_iff.mp hhead
      exact takeWhile_append_cons hten post
  have hend : rest.take 1 = [] ∨ rest.take 1 = [10] := by
    rcases hrest with rfl | hhead
    · exact .inl rfl
    · obtain ⟨post, rfl⟩ := List.head?_eq_some_iff.mp hhead
      exact .inr rfl
  have hsize : 1 < size := by omega
  obtain ⟨count, hcount, hread⟩ := reads_cons (s := line ++ rest) hsize (by simp [hne])
  rw [htake, Nat.min_eq_right (by omega)] at hcount
  rw [hread, List.map_cons, hcount, List.take_length_add_append, List.drop_length_add_append,
    beforeNewline_line hline hend]

end Append

/-- The file with the lines, each with its end. -/
def ofLines (lines : List Bytes) : Bytes := lines.flatMap (· ++ [10])

lemma textLines_append {line : Bytes} (h : 10 ∉ line) (s : Bytes) :
    textLines (line ++ 10 :: s) = line :: textLines s := by
  have hne : line ++ 10 :: s ≠ [] := by simp
  rw [textLines_eq hne, takeWhile_append_cons h]
  have hdrop : (line ++ 10 :: s).drop (line.length + 1) = s := by
    rw [List.drop_length_add_append]
    rfl
  rw [hdrop]

/-- **The lines of a file** are read back. -/
lemma textLines_ofLines {lines : List Bytes} (h : ∀ line ∈ lines, 10 ∉ line) :
    textLines (ofLines lines) = lines := by
  induction lines with
  | nil => rfl
  | cons line lines ih =>
      have hcons : ofLines (line :: lines) = line ++ 10 :: ofLines lines := by
        simp [ofLines]
      rw [hcons, textLines_append (h line List.mem_cons_self),
        ih fun l hl => h l (List.mem_cons_of_mem _ hl)]

end TextFile
