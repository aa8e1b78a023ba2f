import ProxyMax.Config.RoundTrip

/-!
Blanks around the `=` in a line of a configuration file.

* `KnownKey`: the keys that `config_load` compares with.
* `PaddedLine`: a known key and a value, with blanks before the key, after it, and before
  the value; `PaddedLine.text` is the line and `PaddedLine.plain` the one without the blanks.
* `parseLine_text`: the blanks before the key and before the value are cut off, those after
  the key are kept as a part of it.
* `configLoad_blanks_iff`: the lines have the same effect exactly when there is no blank
  after the key, or the value is one that sets nothing.
-/

namespace ProxyMax

open CString TextFile Overlay

/-- The key is one that `config_load` compares with. -/
def KnownKey (key : Bytes) : Prop := ∃ value, configEntry key value ≠ none

/-- A known key and a value, with blanks around them, in a line that fits in the buffer. -/
structure PaddedLine where
  key : Bytes
  value : Bytes
  indent : Bytes
  gap : Bytes
  lead : Bytes
  known : KnownKey key
  value_bytes : ∀ c ∈ value, c ≠ 0 ∧ c ≠ 10
  trimmed : ∀ c, value.head? = some c ∨ value.getLast? = some c → ¬isBlank c
  indent_blank : ∀ c ∈ indent, isBlank c
  gap_blank : ∀ c ∈ gap, isBlank c
  lead_blank : ∀ c ∈ lead, isBlank c
  fits : (indent ++ key ++ gap ++ 61 :: (lead ++ value)).length < 1023

namespace PaddedLine

variable (line : PaddedLine)

/-- The line as it is in the file. -/
def text : Bytes := line.indent ++ line.key ++ line.gap ++ 61 :: (line.lead ++ line.value)

/-- The line without the blanks. -/
def plain : Bytes := line.key ++ 61 :: line.value

/-- A file with the line loads as the file with the plain line in its place. -/
def SameEffect : Prop :=
  ∀ before after, WholeLines before → AtLineEnd after → ∀ config,
    configLoad (some (before ++ line.text ++ after)) config =
      configLoad (some (before ++ line.plain ++ after)) config

end PaddedLine

/-! ### The keys -/

/-- **The known keys** are those of the settings that the loader has a key for. -/
lemma exists_key_of_configEntry {key value : Bytes} (h : configEntry key value ≠ none) :
    ∃ setting, setting ∉ keyless ∧ key = Setting.key setting := by
  by_contra hno
  have hne : ∀ setting, setting ∉ keyless → key ≠ Setting.key setting := by
    intro setting hread heq
    exact hno ⟨setting, hread, heq⟩
  refine h ?_
  -- the comparisons, in the order of the code
  refine (if_neg (hne .port (by decide))).trans ?_
  refine (if_neg (hne .bindAddress (by decide))).trans ?_
  refine (if_neg (hne .mode (by decide))).trans ?_
  refine (if_neg (hne .numThreads (by decide))).trans ?_
  refine (if_neg (hne .threadModel (by decide))).trans ?_
  refine (if_neg (hne .enableCaching (by decide))).trans ?_
  refine (if_neg (hne .enableSsl (by decide))).trans ?_
  refine (if_neg (hne .enableAuth (by decide))).trans ?_
  refine (if_neg (hne .enableLogging (by decide))).trans ?_
  refine (if_neg (hne .enableFiltering (by decide))).trans ?_
  refine (if_neg (hne .enableCompression (by decide))).trans ?_
  refine (if_neg (hne .enableRateLimiting (by decide))).trans ?_
  refine (if_neg (hne .cacheSizeMb (by decide))).trans ?_
  refine (if_neg (hne .sslCertFile (by decide))).trans ?_
  refine (if_neg (hne .sslKeyFile (by decide))).trans ?_
  refine (if_neg (hne .backendHost (by decide))).trans ?_
  refine (if_neg (hne .backendPort (by decide))).trans ?_
  exact if_neg (hne .logFile (by decide))

/-- There is no blank in a key. -/
lemma key_not_blank (setting : Setting) : ∀ c ∈ setting.key, ¬isBlank c := by
  cases setting <;> decide +kernel

/-- A key with blanks after it is none that the loader knows. -/
lemma configEntry_append_blank {key gap : Bytes} (hgap : ∀ c ∈ gap, isBlank c) (hne : gap ≠ [])
    (value : Bytes) : configEntry (key ++ gap) value = none := by
  by_contra hsome
  obtain ⟨setting, -, hkey⟩ := exists_key_of_configEntry hsome
  obtain ⟨c, hc⟩ := List.exists_mem_of_ne_nil gap hne
  refine key_not_blank setting c ?_ (hgap c hc)
  rw [← hkey]
  exact List.mem_append_right _ hc

namespace PaddedLine

variable (line : PaddedLine)

lemma exists_key : ∃ setting, setting ∉ keyless ∧ line.key = Setting.key setting := by
  obtain ⟨value, hvalue⟩ := line.known
  exact exists_key_of_configEntry hvalue

lemma value_trim : line.value.dropWhile isBlank = line.value := by
  cases hvalue : line.value with
  | nil => rfl
  | cons c value =>
      refine List.dropWhile_cons_of_neg (line.trimmed c (.inl ?_))
      rw [hvalue, List.head?_cons]

/-- The line is no comment, also when it begins with a blank. -/
lemma head_text {c : UInt8} (hc : line.text.head? = some c) : c ≠ 35 ∧ c ≠ 10 := by
  obtain ⟨setting, -, hkey⟩ := line.exists_key
  obtain ⟨hbytes, hne, hcomment, -⟩ := key_bytes setting
  rw [← hkey] at hbytes hne hcomment
  cases hindent : line.indent with
  | nil =>
      rw [text, hindent, List.nil_append, List.append_assoc,
        List.head?_append_of_ne_nil _ hne] at hc
      exact ⟨fun heq => hcomment (heq ▸ hc), (hbytes c (List.mem_of_mem_head? hc)).2.1⟩
  | cons b indent =>
      have hblank : isBlank c := by
        rw [text, hindent] at hc
        refine line.indent_blank c ?_
        rw [hindent, ← Option.some.inj hc]
        exact List.mem_cons_self
      constructor
      · rintro rfl
        exact absurd hblank (by decide)
      · rintro rfl
        exact absurd hblank (by decide)

lemma eq_not_mem : (61 : UInt8) ∉ line.indent ++ line.key ++ line.gap := by
  obtain ⟨setting, -, hkey⟩ := line.exists_key
  simp only [List.mem_append, not_or]
  refine ⟨⟨fun hmem => ?_, fun hmem => ?_⟩, fun hmem => ?_⟩
  · exact absurd (line.indent_blank 61 hmem) (by decide)
  · rw [hkey] at hmem
    exact ((key_bytes setting).1 61 hmem).2.2 rfl
  · exact absurd (line.gap_blank 61 hmem) (by decide)

/-- **What is parsed of the line**: the blanks after the key are kept. -/
lemma parseLine_text : parseLine line.text = some (line.key ++ line.gap, line.value) := by
  have hskip : ¬(line.text.head? = some 35 ∨ line.text = [] ∨ line.text.head? = some 10) := by
    rintro (h | h | h)
    · exact (line.head_text h).1 rfl
    · simp [text] at h
    · exact (line.head_text h).2 rfl
  have htake : line.text.takeWhile (· ≠ 61) = line.indent ++ line.key ++ line.gap :=
    takeWhile_append_cons line.eq_not_mem _
  have hgap : (line.key ++ line.gap).dropWhile isBlank = line.key ++ line.gap := by
    obtain ⟨setting, -, hkey⟩ := line.exists_key
    obtain ⟨c, key, hcons⟩ := List.exists_cons_of_ne_nil (key_bytes setting).2.1
    have hc : ¬isBlank c := by
      refine key_not_blank setting c ?_
      rw [hcons]
      exact List.mem_cons_self
    rw [hkey, hcons, List.cons_append, List.dropWhile_cons_of_neg hc]
  rw [parseLine, if_neg hskip, htake, text, strchr_append line.eq_not_mem, Option.map_some,
    List.tail_cons, List.append_assoc, List.dropWhile_append_of_pos line.indent_blank, hgap,
    List.dropWhile_append_of_pos line.lead_blank, line.value_trim]

lemma parseLine_plain : parseLine line.plain = some (line.key, line.value) := by
  obtain ⟨setting, -, hkey⟩ := line.exists_key
  rw [plain, hkey]
  exact parseLine_key setting line.value_trim

lemma lineEntry_text : lineEntry line.text = configEntry (line.key ++ line.gap) line.value := by
  rw [lineEntry, line.parseLine_text, Option.bind_some]

lemma lineEntry_plain : lineEntry line.plain = configEntry line.key line.value := by
  rw [lineEntry, line.parseLine_plain, Option.bind_some]

lemma text_bytes : ∀ c ∈ line.text, c ≠ 0 ∧ c ≠ 10 := by
  obtain ⟨setting, -, hkey⟩ := line.exists_key
  have hblank : ∀ c : UInt8, isBlank c → c ≠ 0 ∧ c ≠ 10 := by
    rintro c hc
    constructor
    · rintro rfl
      exact absurd hc (by decide)
    · rintro rfl
      exact absurd hc (by decide)
  intro c hc
  simp only [text, List.mem_append, List.mem_cons] at hc
  rcases hc with ((hc | hc) | hc) | rfl | hc | hc
  · exact hblank c (line.indent_blank c hc)
  · rw [hkey] at hc
    exact ⟨((key_bytes setting).1 c hc).1, ((key_bytes setting).1 c hc).2.1⟩
  · exact hblank c (line.gap_blank c hc)
  · decide
  · exact hblank c (line.lead_blank c hc)
  · exact line.value_bytes c hc

lemma plain_bytes : ∀ c ∈ line.plain, c ≠ 0 ∧ c ≠ 10 := by
  intro c hc
  refine line.text_bytes c ?_
  simp only [plain, List.mem_append, List.mem_cons] at hc
  simp only [text, List.mem_append, List.mem_cons]
  tauto

lemma plain_length_le : line.plain.length ≤ line.text.length := by
  simp only [plain, text, List.length_append, List.length_cons]
  omega

end PaddedLine

/-! ### The file -/

/-- The assignments of a file with one more line. -/
lemma fileEntries_line {before after line : Bytes} (hbefore : WholeLines before)
    (hafter : AtLineEnd after) (hbytes : ∀ c ∈ line, c ≠ 0 ∧ c ≠ 10) (hfit : line.length < 1023)
    (hne : line ≠ []) :
    fileEntries (before ++ line ++ after) =
      fileEntries before ++ (lineEntry line).toList ++ fileEntries (after.drop 1) := by
  rw [fileEntries, List.append_assoc, reads_append (by decide) hbefore, List.map_append,
    List.filterMap_append, map_reads_line hbytes (by omega) hne hafter, List.filterMap_cons,
    List.append_assoc]
  cases lineEntry line <;> rfl

/-- No field can hold only one value. -/
lemma exists_value_ne (setting : Setting) (v : setting.Value) : ∃ w : setting.Value, w ≠ v := by
  have htext : ∀ {n : ℕ}, CharField.strncpy (n + 1) [] ≠ CharField.strncpy (n + 1) [97] := by
    intro n h
    exact absurd (congrArg CharField.text h) (by simp [CharField.strncpy, cstr])
  have hfield : ∀ {n : ℕ} (field : CharField (n + 1)), ∃ other, other ≠ field := by
    intro n field
    by_cases h : CharField.strncpy (n + 1) [] = field
    · exact ⟨_, fun heq => htext (h.trans heq.symm)⟩
    · exact ⟨_, h⟩
  cases setting with
  | mode =>
      rcases eq_or_ne (v : ProxyMode) .http with rfl | hne
      · exact ⟨ProxyMode.https, by decide⟩
      · exact ⟨ProxyMode.http, hne.symm⟩
  | threadModel =>
      rcases eq_or_ne (v : ThreadingModel) .pool with rfl | hne
      · exact ⟨ThreadingModel.hybrid, by decide⟩
      · exact ⟨ThreadingModel.pool, hne.symm⟩
  | bindAddress | sslCertFile | sslKeyFile | authFile | backendHost | logFile => exact hfield v
  | cacheSizeMb => exact exists_ne (α := ℕ) v
  | _ => exact exists_ne (α := ℤ) v

namespace PaddedLine

variable (line : PaddedLine)

/-- The file with the line, after its assignments. -/
lemma configLoad_text {before after : Bytes} (hbefore : WholeLines before)
    (hafter : AtLineEnd after) (config : ProxyConfig) :
    configLoad (some (before ++ line.text ++ after)) config =
      (0, proxyRecord.assign (fileEntries before ++
        (configEntry (line.key ++ line.gap) line.value).toList ++ fileEntries (after.drop 1))
        config) := by
  rw [configLoad_eq, fileEntries_line hbefore hafter line.text_bytes line.fits (by simp [text]),
    line.lineEntry_text]

lemma configLoad_plain {before after : Bytes} (hbefore : WholeLines before)
    (hafter : AtLineEnd after) (config : ProxyConfig) :
    configLoad (some (before ++ line.plain ++ after)) config =
      (0, proxyRecord.assign (fileEntries before ++
        (configEntry line.key line.value).toList ++ fileEntries (after.drop 1)) config) := by
  rw [configLoad_eq, fileEntries_line hbefore hafter line.plain_bytes
    (line.plain_length_le.trans_lt line.fits) (by simp [plain]), line.lineEntry_plain]

end PaddedLine

/-- **Blanks in a line.** A line with blanks around its `=` has the effect of the plain line
if and only if none of them is between the key and the `=`, or the plain line has no effect
either, since its value is not one of the names that its key takes. -/
theorem configLoad_blanks_iff (line : PaddedLine) :
    line.SameEffect ↔ line.gap = [] ∨ configEntry line.key line.value = none := by
  constructor
  · intro hsame
    by_contra! h
    obtain ⟨hgap, hentry⟩ := h
    obtain ⟨⟨setting, v⟩, hsome⟩ := Option.ne_none_iff_exists'.mp hentry
    obtain ⟨w, hw⟩ := exists_value_ne setting v
    -- the file with no other line, and a configuration in which the field has another value
    have hload := hsame [] [] (.inl rfl) (.inl rfl) (configSetDefaults.set setting w)
    rw [line.configLoad_text (.inl rfl) (.inl rfl), line.configLoad_plain (.inl rfl) (.inl rfl),
      configEntry_append_blank line.gap_blank hgap, hsome] at hload
    have hset : configSetDefaults.set setting w =
        (configSetDefaults.set setting w).set setting v := (Prod.mk.inj hload).2
    exact hw (calc
      w = (configSetDefaults.set setting w).get setting :=
          (proxyRecord.get_set_self setting w configSetDefaults).symm
      _ = ((configSetDefaults.set setting w).set setting v).get setting := by rw [← hset]
      _ = v := proxyRecord.get_set_self setting v _)
  · rintro hor before after hbefore hafter config
    have hentry : configEntry (line.key ++ line.gap) line.value =
        configEntry line.key line.value := by
      rcases eq_or_ne line.gap [] with hgap | hgap
      · rw [hgap, List.append_nil]
      · rw [configEntry_append_blank line.gap_blank hgap, hor.resolve_left hgap]
    rw [line.configLoad_text hbefore hafter, line.configLoad_plain hbefore hafter, hentry]

/-- The key `port` with a blank after it. -/
def paddedPort : PaddedLine where
  key := ascii "port"
  value := ascii "9090"
  indent := []
  gap := ascii " "
  lead := ascii " "
  known := ⟨[], by decide +kernel⟩
  value_bytes := by decide +kernel
  trimmed := by
    rintro c (h | h)
    · rw [← Option.some.inj (h : some 57 = some c)]
      decide
    · rw [← Option.some.inj (h : some 48 = some c)]
      decide
  indent_blank := by decide +kernel
  gap_blank := by decide +kernel
  lead_blank := by decide +kernel
  fits := by decide +kernel

/-- A port that is written `port = 9090` is not set. -/
theorem padded_port_ignored :
    (configLoad (some paddedPort.text) configSetDefaults).2.port = 8080 ∧
      (configLoad (some paddedPort.plain) configSetDefaults).2.port = 9090 ∧
      ¬paddedPort.SameEffect := by
  have htext : (configLoad (some paddedPort.text) configSetDefaults).2.port = 8080 := by
    decide +kernel
  have hplain : (configLoad (some paddedPort.plain) configSetDefaults).2.port = 9090 := by
    decide +kernel
  refine ⟨htext, hplain, fun hsame => ?_⟩
  have hload := hsame [] [] (.inl rfl) (.inl rfl) configSetDefaults
  rw [List.append_nil, List.append_nil, List.nil_append, List.nil_append] at hload
  rw [hload, hplain] at htext
  exact absurd htext (by decide)

end ProxyMax
