import ProxyMax.Config.Loader

/-!
`parse_args` of `src/main.c`.

* `parseArgs`: the code.
* `ConfigOption`, `argumentsOf`, `optionEntries`: the options besides `-c`, how they are
  written, and what they set.
* `parseArgs_options`, `parseArgs_configFile`: what the code makes of them, and of `-c`,
  at which it returns.
* `Overrides`: the options that are not made, or made too early, give no field a value that
  it does not hold anyway.
* `parseArgs_overrides_iff`: the command line overrides the file just in this case.
-/

namespace ProxyMax

open CString TextFile Overlay

/-- `parse_args`: its result and the configuration, for the arguments after the name of the
program; `fopen` gives what the files hold that can be opened. -/
def parseArgs (fopen : Bytes → Option Bytes) : List Bytes → ProxyConfig → ℤ × ProxyConfig
  | [], config => (0, config)
  | arg :: rest, config =>
      if arg = ascii "-h" ∨ arg = ascii "--help" then (-1, config)
      else if arg = ascii "-c" ∨ arg = ascii "--config" then
        match rest with
        | [] => (0, config)
        | file :: _ => configLoad (fopen file) config
      else if arg = ascii "-p" ∨ arg = ascii "--port" then
        match rest with
        | [] => (0, config)
        | value :: rest => parseArgs fopen rest (config.set .port (atoi value))
      else if arg = ascii "-b" ∨ arg = ascii "--bind" then
        match rest with
        | [] => (0, config)
        | value :: rest => parseArgs fopen rest (config.set .bindAddress (.strncpy 63 value))
      else if arg = ascii "-m" ∨ arg = ascii "--mode" then
        match rest with
        | [] => (0, config)
        | value :: rest =>
            parseArgs fopen rest
              (((parseMode value).map fun mode => config.set .mode mode).getD config)
      else if arg = ascii "-t" ∨ arg = ascii "--threads" then
        match rest with
        | [] => (0, config)
        | value :: rest => parseArgs fopen rest (config.set .numThreads (atoi value))
      else if arg = ascii "-M" ∨ arg = ascii "--thread-model" then
        match rest with
        | [] => (0, config)
        | value :: rest =>
            parseArgs fopen rest
              (((parseThreadModel value).map fun model => config.set .threadModel model).getD
                config)
      else if arg = ascii "--enable-cache" then
        parseArgs fopen rest (config.set .enableCaching 1)
      else if arg = ascii "--enable-ssl" then parseArgs fopen rest (config.set .enableSsl 1)
      else if arg = ascii "--enable-auth" then parseArgs fopen rest (config.set .enableAuth 1)
      else if arg = ascii "--enable-logging" then
        parseArgs fopen rest (config.set .enableLogging 1)
      else if arg = ascii "--enable-filtering" then
        parseArgs fopen rest (config.set .enableFiltering 1)
      else if arg = ascii "--enable-compression" then
        parseArgs fopen rest (config.set .enableCompression 1)
      else if arg = ascii "--enable-rate-limit" then
        parseArgs fopen rest (config.set .enableRateLimiting 1)
      else parseArgs fopen rest config

/-- The options that set a field. -/
inductive ConfigOption where
  | port (value : Bytes)
  | bind (value : Bytes)
  | mode (value : Bytes)
  | threads (value : Bytes)
  | threadModel (value : Bytes)
  | enableCache
  | enableSsl
  | enableAuth
  | enableLogging
  | enableFiltering
  | enableCompression
  | enableRateLimit

/-- The arguments of an option, in its long or its short form. -/
def ConfigOption.arguments (long : Bool) : ConfigOption → List Bytes
  | .port value => [if long then ascii "--port" else ascii "-p", value]
  | .bind value => [if long then ascii "--bind" else ascii "-b", value]
  | .mode value => [if long then ascii "--mode" else ascii "-m", value]
  | .threads value => [if long then ascii "--threads" else ascii "-t", value]
  | .threadModel value => [if long then ascii "--thread-model" else ascii "-M", value]
  | .enableCache => [ascii "--enable-cache"]
  | .enableSsl => [ascii "--enable-ssl"]
  | .enableAuth => [ascii "--enable-auth"]
  | .enableLogging => [ascii "--enable-logging"]
  | .enableFiltering => [ascii "--enable-filtering"]
  | .enableCompression => [ascii "--enable-compression"]
  | .enableRateLimit => [ascii "--enable-rate-limit"]

/-- What an option sets. A mode or a threading model that has no such name sets nothing. -/
def ConfigOption.entry : ConfigOption → Option (Assignment Setting.Value)
  | .port value => some ⟨.port, atoi value⟩
  | .bind value => some ⟨.bindAddress, .strncpy 63 value⟩
  | .mode value => (parseMode value).map fun mode => ⟨.mode, mode⟩
  | .threads value => some ⟨.numThreads, atoi value⟩
  | .threadModel value => (parseThreadModel value).map fun model => ⟨.threadModel, model⟩
  | .enableCache => some ⟨.enableCaching, (1 : ℤ)⟩
  | .enableSsl => some ⟨.enableSsl, (1 : ℤ)⟩
  | .enableAuth => some ⟨.enableAuth, (1 : ℤ)⟩
  | .enableLogging => some ⟨.enableLogging, (1 : ℤ)⟩
  | .enableFiltering => some ⟨.enableFiltering, (1 : ℤ)⟩
  | .enableCompression => some ⟨.enableCompression, (1 : ℤ)⟩
  | .enableRateLimit => some ⟨.enableRateLimiting, (1 : ℤ)⟩

/-- Options, each with its form. -/
abbrev Options := List (Bool × ConfigOption)

/-- The argument vector of the options. -/
def argumentsOf (options : Options) : List Bytes := options.flatMap fun o => o.2.arguments o.1

/-- What the options set, in their order. -/
def optionEntries (options : Options) : List (Assignment Setting.Value) :=
  options.filterMap fun o => o.2.entry

/-- The configuration, overlaid by the options. -/
def overlayOptions (options : Options) (config : ProxyConfig) : ProxyConfig :=
  proxyRecord.assign (optionEntries options) config

/-! ### The code -/

section Code

variable (fopen : Bytes → Option Bytes)

/-- One option is parsed. -/
lemma parseArgs_option (o : Bool × ConfigOption) (rest : List Bytes) (config : ProxyConfig) :
    parseArgs fopen (o.2.arguments o.1 ++ rest) config =
      parseArgs fopen rest (overlayOptions [o] config) := by
  obtain ⟨long, option⟩ := o
  cases option with
  | mode value =>
      have hstep : parseArgs fopen ((ConfigOption.mode value).arguments long ++ rest) config =
          parseArgs fopen rest
            (((parseMode value).map fun mode => config.set .mode mode).getD config) := by
        cases long <;> (rw [parseArgs.eq_def]; rfl)
      rw [hstep, overlayOptions, optionEntries, List.filterMap_cons, ConfigOption.entry]
      cases parseMode value <;> rfl
  | threadModel value =>
      have hstep : parseArgs fopen ((ConfigOption.threadModel value).arguments long ++ rest)
          config = parseArgs fopen rest
            (((parseThreadModel value).map fun model => config.set .threadModel model).getD
              config) := by
        cases long <;> (rw [parseArgs.eq_def]; rfl)
      rw [hstep, overlayOptions, optionEntries, List.filterMap_cons, ConfigOption.entry]
      cases parseThreadModel value <;> rfl
  | _ => cases long <;> (rw [parseArgs.eq_def]; rfl)

lemma overlayOptions_append (options options' : Options) (config : ProxyConfig) :
    overlayOptions (options ++ options') config =
      overlayOptions options' (overlayOptions options config) := by
  simp [overlayOptions, optionEntries]

/-- **The options before `-c`** are parsed one after another. -/
lemma parseArgs_options (options : Options) (rest : List Bytes) (config : ProxyConfig) :
    parseArgs fopen (argumentsOf options ++ rest) config =
      parseArgs fopen rest (overlayOptions options config) := by
  induction options generalizing config with
  | nil => rfl
  | cons o options ih =>
      have hargs : argumentsOf (o :: options) = o.2.arguments o.1 ++ argumentsOf options := rfl
      rw [hargs, List.append_assoc, parseArgs_option, ih, ← overlayOptions_append,
        List.singleton_append]

/-- **At `-c`** the code returns, whatever follows. -/
lemma parseArgs_configFile {dashC : Bytes} (hc : dashC = ascii "-c" ∨ dashC = ascii "--config")
    (file : Bytes) (rest : List Bytes) (config : ProxyConfig) :
    parseArgs fopen (dashC :: file :: rest) config = configLoad (fopen file) config := by
  rcases hc with rfl | rfl <;> (rw [parseArgs.eq_def]; rfl)

end Code

/-! ### The order of the sources -/

/-- Each field that the options give a value, the last one if there are several, holds it when
the file is loaded after the options before `-c` only: the file gives the field this value or
none, and if none, the options before `-c` do, or it is the default. -/
def Overrides (before after : Options) (content : Bytes) : Prop :=
  ∀ setting v, lastValue setting (optionEntries (before ++ after)) = some v →
    v = (lastValue setting (fileEntries content)).getD
      ((lastValue setting (optionEntries before)).getD (configSetDefaults.get setting))

/-- **The command line overrides the file** only by coincidence: at `-c` the code returns, so
the options before it are overridden by the file, and those after it are dropped. -/
theorem parseArgs_overrides_iff (fopen : Bytes → Option Bytes) {file content : Bytes}
    (hfile : fopen file = some content) {dashC : Bytes}
    (hc : dashC = ascii "-c" ∨ dashC = ascii "--config") (before after : Options) :
    parseArgs fopen (argumentsOf before ++ dashC :: file :: argumentsOf after) configSetDefaults =
        (0, overlayOptions (before ++ after) (configLoad (some content) configSetDefaults).2) ↔
      Overrides before after content := by
  have happend : optionEntries (before ++ after) = optionEntries before ++ optionEntries after :=
    List.filterMap_append ..
  rw [parseArgs_options, parseArgs_configFile fopen hc, hfile, configLoad_eq, configLoad_eq]
  simp only [overlayOptions, Prod.mk.injEq, true_and, ← Record.assign_append, happend, Overrides]
  exact assign_before_iff proxyRecord ..

/-- A file that sets the port. -/
def portFile : Bytes := ascii "port=3128\n"

/-- An option before `-c` that the file leaves alone is kept. -/
theorem parseArgs_overrides_iff_portFile :
    parseArgs (fun _ => some portFile)
        (argumentsOf [(false, .enableAuth)] ++ ascii "-c" :: ascii "f" :: argumentsOf [])
        configSetDefaults =
      (0, overlayOptions ([(false, .enableAuth)] ++ [])
        (configLoad (some portFile) configSetDefaults).2) := by
  refine (parseArgs_overrides_iff (fun _ => some portFile) rfl (.inl rfl) [(false, .enableAuth)]
    []).mpr fun setting v hlast => ?_
  have hbefore : lastValue setting (optionEntries [(false, .enableAuth)]) = some v := hlast
  have hfile : lastValue setting (fileEntries portFile) = none := by
    have hmem : ⟨setting, v⟩ ∈ ([⟨.enableAuth, (1 : ℤ)⟩] : List (Assignment Setting.Value)) :=
      mem_of_lastValue hbefore
    obtain rfl : setting = .enableAuth := congrArg Sigma.fst (List.mem_singleton.mp hmem)
    decide +kernel
  rw [hfile, hbefore]
  rfl

/-- The option that turns on the authentication is dropped after `-c`. -/
theorem enableAuth_dropped :
    ¬∀ (fopen : Bytes → Option Bytes) (file content : Bytes), fopen file = some content →
      ∀ before after : Options,
        parseArgs fopen (argumentsOf before ++ ascii "-c" :: file :: argumentsOf after)
            configSetDefaults =
          (0, overlayOptions (before ++ after)
            (configLoad (some content) configSetDefaults).2) := by
  intro hall
  have hargs := hall (fun _ => some portFile) (ascii "f") portFile rfl [] [(false, .enableAuth)]
  have hauth := congrArg (fun result => result.2.enableAuth) hargs
  exact absurd hauth (by decide)

end ProxyMax
