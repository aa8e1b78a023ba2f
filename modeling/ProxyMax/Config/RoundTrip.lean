import ProxyMax.Config.Loader
import ProxyMax.Lib.Decimal

/-!
The configuration written to a file, and loaded again.

* `Setting.key`, `Kind.print`, `configFile`: the file, with a line for each setting.
* `Setting.Writable`: what can be written: numbers of 32 bits, and strings that can be a value
  in a line.
* `Kind.parse`, `lineEntry_settingLine`: what the loader makes of a line.
* `keyless`: the settings that the loader has no key for.
* `configLoad_roundTrip_iff`: the settings are read back just where these have their defaults.
-/

namespace ProxyMax

open CString TextFile Overlay

/-! ### The file -/

/-- The key of a setting in the documentation and in the shipped files. -/
def Setting.key : Setting → Bytes
  | .port => ascii "port"
  | .bindAddress => ascii "bind_address"
  | .mode => ascii "mode"
  | .threadModel => ascii "thread_model"
  | .numThreads => ascii "num_threads"
  | .maxConnections => ascii "max_connections"
  | .enableCaching => ascii "enable_caching"
  | .enableSsl => ascii "enable_ssl"
  | .enableAuth => ascii "enable_auth"
  | .enableLogging => ascii "enable_logging"
  | .enableFiltering => ascii "enable_filtering"
  | .enableCompression => ascii "enable_compression"
  | .enableRateLimiting => ascii "enable_rate_limiting"
  | .cacheSizeMb => ascii "cache_size_mb"
  | .cacheTtlSeconds => ascii "cache_ttl_seconds"
  | .sslCertFile => ascii "ssl_cert"
  | .sslKeyFile => ascii "ssl_key"
  | .authFile => ascii "auth_file"
  | .backendHost => ascii "backend_host"
  | .backendPort => ascii "backend_port"
  | .rateLimitRequests => ascii "rate_limit_requests"
  | .rateLimitBandwidthKbps => ascii "rate_limit_bandwidth_kbps"
  | .logFile => ascii "log_file"
  | .logLevel => ascii "log_level"

/-- The name of a mode. The documentation gives none to the last. -/
def modeName : ProxyMode → Bytes
  | .http => ascii "http"
  | .https => ascii "https"
  | .socks5 => ascii "socks5"
  | .tcp => ascii "tcp"
  | .reverse => ascii "reverse"
  | .transparent => ascii "transparent"

/-- The name of a threading model. -/
def threadModelName : ThreadingModel → Bytes
  | .pool => ascii "pool"
  | .eventDriven => ascii "event"
  | .hybrid => ascii "hybrid"
  | .perConnection => ascii "perconn"

/-- A value as text. -/
def Kind.print : (kind : Kind) → kind.Value → Bytes
  | .int, n => decimalInt n
  | .size, n => decimal n
  | .mode, name => modeName name
  | .threadModel, model => threadModelName model
  | .text _, field => field.text

/-- The line of a setting. -/
def settingLine (config : ProxyConfig) (setting : Setting) : Bytes :=
  setting.key ++ 61 :: setting.kind.print (config.get setting)

/-- The file with the lines of the settings, in their order. -/
def configFile (order : List Setting) (config : ProxyConfig) : Bytes :=
  ofLines (order.map (settingLine config))

/-- A number of 32 bits. -/
def FitsInt (n : ℤ) : Prop := -2 ^ 31 ≤ n ∧ n < 2 ^ 31

/-- A value that can be written. -/
def Kind.Writable : (kind : Kind) → kind.Value → Prop
  | .int, n => FitsInt n
  | .size, n => FitsInt (n : ℕ)
  | .mode, _ => True
  | .threadModel, _ => True
  | .text _, field => (∀ c ∈ field.text, c ≠ 10) ∧ field.text.dropWhile isBlank = field.text

/-- The values can be written, and the lines fit in the buffer that they are read to. -/
structure Writable (config : ProxyConfig) : Prop where
  value : ∀ setting : Setting, setting.kind.Writable (config.get setting)
  line : ∀ setting, (settingLine config setting).length + 1 < 1024

/-! ### What the loader makes of a line -/

/-- The text of a value, as the loader reads it. -/
def Kind.parse : (kind : Kind) → Bytes → Option kind.Value
  | .int, value => some (atoi value)
  | .size, value => some (sizeOfInt (atoi value))
  | .mode, value => parseMode value
  | .threadModel, value => parseThreadModel value
  | .text n, value => some (.strncpy n value)

/-- The settings that the loader has no key for. -/
def keyless : List Setting :=
  [.maxConnections, .cacheTtlSeconds, .authFile, .rateLimitRequests, .rateLimitBandwidthKbps,
    .logLevel]

/-- A key of the documentation, in the loader. -/
lemma configEntry_key (setting : Setting) (value : Bytes) :
    configEntry setting.key value =
      if setting ∈ keyless then none
      else (setting.kind.parse value).map fun v => ⟨setting, v⟩ := by
  cases setting <;> rfl

/-- The value has a name. -/
def Kind.Named : (kind : Kind) → kind.Value → Prop
  | .mode, name => name ≠ .transparent
  | _, _ => True

lemma sizeOfInt_natCast {n : ℕ} (h : FitsInt n) : sizeOfInt (n : ℤ) = n := by
  obtain ⟨-, hhigh⟩ := h
  simp only [sizeOfInt, sizeMod]
  omega

/-- **A value that is written** is read back. -/
lemma parse_print {kind : Kind} {v : kind.Value} (h : kind.Writable v) (hnamed : kind.Named v) :
    kind.parse (kind.print v) = some v := by
  cases kind with
  | int =>
      obtain ⟨hlow, hhigh⟩ : FitsInt v := h
      exact congrArg some (atoi_decimalInt hlow hhigh)
  | size =>
      have hfits : FitsInt (v : ℕ) := h
      have hread : sizeOfInt (atoi (decimal v)) = v := by
        rw [← decimalInt_natCast, atoi_decimalInt hfits.1 hfits.2, sizeOfInt_natCast hfits]
      exact congrArg some hread
  | mode =>
      cases v with
      | transparent => exact absurd rfl hnamed
      | _ => rfl
  | threadModel => cases v <;> rfl
  | text n => exact congrArg some v.strncpy_text

lemma print_bytes {kind : Kind} {v : kind.Value} (h : kind.Writable v) :
    ∀ c ∈ kind.print v, c ≠ 0 ∧ c ≠ 10 := by
  cases kind with
  | int => exact fun c hc => ⟨(decimalInt_bytes v c hc).1, (decimalInt_bytes v c hc).2.1⟩
  | size =>
      intro c hc
      rw [Kind.print, ← decimalInt_natCast] at hc
      exact ⟨(decimalInt_bytes _ c hc).1, (decimalInt_bytes _ c hc).2.1⟩
  | mode => cases v <;> decide +kernel
  | threadModel => cases v <;> decide +kernel
  | text n => exact fun c hc => ⟨v.not_nul c hc, h.1 c hc⟩

/-- No value begins with a blank. -/
lemma print_trim {kind : Kind} {v : kind.Value} (h : kind.Writable v) :
    (kind.print v).dropWhile isBlank = kind.print v := by
  have hnumber : ∀ n : ℤ, (decimalInt n).dropWhile isBlank = decimalInt n := by
    intro n
    refine List.dropWhile_eq_self_iff.mpr fun hlen => ?_
    have hbytes := decimalInt_bytes n _ (List.getElem_mem hlen)
    simp [isBlank, hbytes.2.2.1, hbytes.2.2.2]
  cases kind with
  | int => exact hnumber v
  | size =>
      rw [Kind.print, ← decimalInt_natCast]
      exact hnumber _
  | mode => cases v <;> rfl
  | threadModel => cases v <;> rfl
  | text n => exact h.2

/-- A key can be told from a comment and from its value. -/
lemma key_bytes (setting : Setting) :
    (∀ c ∈ setting.key, c ≠ 0 ∧ c ≠ 10 ∧ c ≠ 61) ∧ setting.key ≠ [] ∧
      setting.key.head? ≠ some 35 ∧ setting.key.dropWhile isBlank = setting.key := by
  cases setting <;> decide +kernel

lemma parseLine_key (setting : Setting) {value : Bytes} (h : value.dropWhile isBlank = value) :
    parseLine (setting.key ++ 61 :: value) = some (setting.key, value) := by
  obtain ⟨hbytes, hne, hcomment, htrim⟩ := key_bytes setting
  have heq : (61 : UInt8) ∉ setting.key := fun hmem => (hbytes 61 hmem).2.2 rfl
  have hhead : (setting.key ++ 61 :: value).head? = setting.key.head? :=
    List.head?_append_of_ne_nil _ hne
  have hline : setting.key.head? ≠ some 10 := fun hten =>
    (hbytes 10 (List.mem_of_mem_head? hten)).2.1 rfl
  rw [parseLine, if_neg (by simp [hhead, hcomment, hline, hne]), strchr_append heq,
    Option.map_some, takeWhile_append_cons heq, htrim, List.tail_cons, h]

/-- The loader has a key for the setting, and its value has a name. -/
def IsRead (config : ProxyConfig) (setting : Setting) : Prop :=
  setting ∉ keyless ∧ setting.kind.Named (config.get setting)

section RoundTrip

variable {config : ProxyConfig}

/-- **The entry in a line.** -/
lemma lineEntry_settingLine (hconfig : Writable config) {setting : Setting}
    (hread : IsRead config setting) :
    lineEntry (settingLine config setting) = some ⟨setting, config.get setting⟩ := by
  rw [lineEntry, settingLine, parseLine_key setting (print_trim (hconfig.value setting)),
    Option.bind_some, configEntry_key, if_neg hread.1,
    parse_print (hconfig.value setting) hread.2, Option.map_some]

lemma lineEntry_notRead (hconfig : Writable config) {setting : Setting}
    (hread : ¬IsRead config setting) : lineEntry (settingLine config setting) = none := by
  rw [lineEntry, settingLine, parseLine_key setting (print_trim (hconfig.value setting)),
    Option.bind_some, configEntry_key]
  split_ifs with hkey
  · rfl
  · have hnamed : ¬setting.kind.Named (config.get setting) := fun hnamed => hread ⟨hkey, hnamed⟩
    cases setting with
    | mode =>
        have hmode : config.get .mode = ProxyMode.transparent := not_not.mp hnamed
        rw [hmode]
        rfl
    | _ => exact absurd trivial hnamed

/-- The assignments of the file are those of its lines. -/
lemma fileEntries_configFile (hconfig : Writable config) (order : List Setting) :
    fileEntries (configFile order config) =
      order.filterMap fun setting => lineEntry (settingLine config setting) := by
  have hbytes : ∀ setting, ∀ c ∈ settingLine config setting, c ≠ 0 ∧ c ≠ 10 := by
    intro setting c hc
    rcases List.mem_append.mp hc with hc | hc
    · exact ⟨((key_bytes setting).1 c hc).1, ((key_bytes setting).1 c hc).2.1⟩
    · rcases List.mem_cons.mp hc with rfl | hc
      · decide
      · exact print_bytes (hconfig.value setting) c hc
  have hlines : textLines (configFile order config) = order.map (settingLine config) := by
    refine textLines_ofLines fun line hline hten => ?_
    obtain ⟨setting, _, rfl⟩ := List.mem_map.mp hline
    exact (hbytes setting 10 hten).2 rfl
  rw [fileEntries, reads_eq, hlines, List.filterMap_map]
  · rfl
  · rw [hlines]
    intro line hline
    obtain ⟨setting, _, rfl⟩ := List.mem_map.mp hline
    exact ⟨hconfig.line setting, fun c hc => (hbytes setting c hc).1⟩

/-- **What is loaded**: the settings that are read have their values, the others their
defaults. -/
lemma get_configLoad (hconfig : Writable config) {order : List Setting}
    (hall : ∀ setting, setting ∈ order) (setting : Setting) [Decidable (IsRead config setting)] :
    (configLoad (some (configFile order config)) configSetDefaults).2.get setting =
      if IsRead config setting then config.get setting else configSetDefaults.get setting := by
  have hentry : ∀ {s v}, ⟨s, v⟩ ∈ fileEntries (configFile order config) →
      IsRead config s ∧ v = config.get s := by
    intro s v hmem
    rw [fileEntries_configFile hconfig] at hmem
    obtain ⟨s', _, hline⟩ := List.mem_filterMap.mp hmem
    by_cases hread : IsRead config s'
    · rw [lineEntry_settingLine hconfig hread] at hline
      cases hline
      exact ⟨hread, rfl⟩
    · rw [lineEntry_notRead hconfig hread] at hline
      cases hline
  have hlast : lastValue setting (fileEntries (configFile order config)) =
      if IsRead config setting then some (config.get setting) else none := by
    split_ifs with hread
    · refine lastValue_of_forall ?_ fun w hw => (hentry hw).2
      rw [fileEntries_configFile hconfig]
      exact List.mem_filterMap.mpr
        ⟨setting, hall setting, lineEntry_settingLine hconfig hread⟩
    · exact lastValue_eq_none_iff.mpr fun v hmem => hread (hentry hmem).1
  have hget := get_assign proxyRecord (fileEntries (configFile order config)) configSetDefaults
    setting
  rw [hlast] at hget
  rw [configLoad_eq]
  refine hget.trans ?_
  split_ifs <;> rfl

/-- **The configuration is read back** from the file if and only if the settings that the
loader has no key for have their defaults, and its mode has a name. -/
theorem configLoad_roundTrip_iff (config : ProxyConfig) (hconfig : Writable config)
    (order : List Setting) (hall : ∀ setting, setting ∈ order) :
    (∀ setting, (configLoad (some (configFile order config)) configSetDefaults).2.get setting =
        config.get setting) ↔
      config.mode ≠ .transparent ∧
        ∀ setting ∈ keyless, config.get setting = configSetDefaults.get setting := by
  classical
  constructor
  · intro hback
    refine ⟨fun hmode => ?_, fun setting hkeyless => ?_⟩
    · have hloaded := hback .mode
      rw [get_configLoad hconfig hall, if_neg fun hread => hread.2 hmode] at hloaded
      exact absurd (hloaded.trans hmode) (by decide)
    · rw [← hback setting, get_configLoad hconfig hall, if_neg fun hread => hread.1 hkeyless]
  · rintro ⟨hmode, hdefaults⟩ setting
    rw [get_configLoad hconfig hall]
    split_ifs with hread
    · rfl
    · by_cases hkeyless : setting ∈ keyless
      · exact (hdefaults setting hkeyless).symm
      · have hnamed : ¬setting.kind.Named (config.get setting) := fun hnamed =>
          hread ⟨hkeyless, hnamed⟩
        cases setting with
        | mode => exact absurd hmode hnamed
        | _ => exact absurd trivial hnamed

end RoundTrip

/-- The settings, in the order of the structure. -/
def settings : List Setting :=
  [.port, .bindAddress, .mode, .threadModel, .numThreads, .maxConnections, .enableCaching,
    .enableSsl, .enableAuth, .enableLogging, .enableFiltering, .enableCompression,
    .enableRateLimiting, .sslCertFile, .sslKeyFile, .cacheSizeMb, .cacheTtlSeconds, .authFile,
    .backendHost, .backendPort, .rateLimitRequests, .rateLimitBandwidthKbps, .logFile, .logLevel]

lemma mem_settings (setting : Setting) : setting ∈ settings := by cases setting <;> decide

/-- The defaults, with as many connections as a shipped file allows. -/
def manyConnections : ProxyConfig := { configSetDefaults with maxConnections := 5000 }

instance (n : ℤ) : Decidable (FitsInt n) := inferInstanceAs (Decidable (_ ∧ _))

instance (kind : Kind) (v : kind.Value) : Decidable (kind.Writable v) :=
  match kind, v with
  | .int, n => inferInstanceAs (Decidable (FitsInt n))
  | .size, n => inferInstanceAs (Decidable (FitsInt (n : ℕ)))
  | .mode, _ => isTrue trivial
  | .threadModel, _ => isTrue trivial
  | .text _, field =>
      inferInstanceAs (Decidable ((∀ c ∈ field.text, c ≠ 10) ∧
        field.text.dropWhile isBlank = field.text))

/-- What can be written is seen from the settings one by one. -/
lemma writable_of_settings {config : ProxyConfig}
    (h : ∀ setting ∈ settings, setting.kind.Writable (config.get setting) ∧
      (settingLine config setting).length + 1 < 1024) : Writable config :=
  ⟨fun setting => (h setting (mem_settings setting)).1,
    fun setting => (h setting (mem_settings setting)).2⟩

lemma writable_manyConnections : Writable manyConnections :=
  writable_of_settings (by decide +kernel)

/-- The defaults, with another port and the cache. -/
def defaultsWithCache : ProxyConfig := { configSetDefaults with port := 3128, enableCaching := 1 }

theorem configLoad_roundTrip_iff_withCache :
    (configLoad (some (configFile settings defaultsWithCache)) configSetDefaults).2.get =
      defaultsWithCache.get := by
  refine funext ((configLoad_roundTrip_iff defaultsWithCache
    (writable_of_settings (by decide +kernel)) settings mem_settings).mpr ⟨by decide, ?_⟩)
  simp only [keyless, List.forall_mem_cons]
  exact ⟨rfl, rfl, rfl, rfl, rfl, rfl, by simp⟩

/-- The number of connections is not read back. -/
theorem maxConnections_lost :
    ¬∀ (config : ProxyConfig), Writable config → config.mode ≠ .transparent →
      ∀ order : List Setting, (∀ setting, setting ∈ order) → ∀ setting,
        (configLoad (some (configFile order config)) configSetDefaults).2.get setting =
          config.get setting := by
  classical
  intro hall
  have hback := hall manyConnections writable_manyConnections (by decide) settings mem_settings
    .maxConnections
  rw [get_configLoad writable_manyConnections mem_settings,
    if_neg fun hread => hread.1 (by decide)] at hback
  exact absurd hback (by decide)

end ProxyMax
