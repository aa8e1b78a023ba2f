import ProxyMax.Balancer.LoadBalancer
import ProxyMax.Http.Handler
import ProxyMax.Lib.Overlay

/-!
`proxy_config_t` and `config_set_defaults` of `src/utils/config.c`.

* `CharField n`: an array of `n + 1` characters whose last one stays NUL.
* `ProxyConfig`, `configSetDefaults`: the configuration and its defaults.
* `Setting`, `Kind`, `ProxyConfig.get`, `ProxyConfig.set`: the fields that a configuration
  file is documented to set, with their types.
* `proxyRecord`: the configuration as a record of these fields.
-/

namespace ProxyMax

open CString Overlay

/-- `thread_model_t`. -/
inductive ThreadingModel where
  | perConnection
  | pool
  | eventDriven
  | hybrid
deriving DecidableEq, Repr

/-- The string in an array of `n + 1` characters. The array is zero at first, and its last
character is never written. -/
structure CharField (n : ℕ) where
  text : Bytes
  fits : text.length ≤ n
  not_nul : ∀ c ∈ text, c ≠ 0

/-- `strncpy` of a string to the first `n` characters, which leaves no others. -/
def CharField.strncpy (n : ℕ) (src : Bytes) : CharField n where
  text := (cstr src).take n
  fits := List.length_take_le _ _
  not_nul c hc := by simpa using List.mem_takeWhile_imp (List.mem_of_mem_take hc)

/-- A string that fits is copied as it is. -/
lemma CharField.strncpy_text {n : ℕ} (field : CharField n) :
    CharField.strncpy n field.text = field := by
  obtain ⟨text, fits, not_nul⟩ := field
  simp only [CharField.strncpy, cstr_of_not_nul not_nul, List.take_of_length_le fits]

/-- `proxy_config_t`, without the arrays that its counts are of. -/
@[ext]
structure ProxyConfig where
  port : ℤ
  bindAddress : CharField 63
  mode : ProxyMode
  threadModel : ThreadingModel
  numThreads : ℤ
  maxConnections : ℤ
  enableCaching : ℤ
  enableSsl : ℤ
  enableAuth : ℤ
  enableLogging : ℤ
  enableFiltering : ℤ
  enableCompression : ℤ
  enableRateLimiting : ℤ
  sslCertFile : CharField (maxPath - 1)
  sslKeyFile : CharField (maxPath - 1)
  cacheSizeMb : ℕ
  cacheTtlSeconds : ℤ
  authFile : CharField (maxPath - 1)
  backendHost : CharField (maxHostname - 1)
  backendPort : ℤ
  numBackends : ℤ
  lbAlgorithm : LbAlgorithm
  rateLimitRequests : ℤ
  rateLimitBandwidthKbps : ℤ
  whitelistCount : ℤ
  blacklistCount : ℤ
  logFile : CharField (maxPath - 1)
  logLevel : ℤ

/-- `config_set_defaults`. -/
def configSetDefaults : ProxyConfig where
  port := 8080
  bindAddress := .strncpy 63 (ascii "0.0.0.0")
  mode := .http
  threadModel := .pool
  numThreads := 10
  maxConnections := 1000
  enableCaching := 0
  enableSsl := 0
  enableAuth := 0
  enableLogging := 1
  enableFiltering := 0
  enableCompression := 0
  enableRateLimiting := 0
  cacheSizeMb := 100
  cacheTtlSeconds := 3600
  sslCertFile := .strncpy (maxPath - 1) (ascii "certs/server.crt")
  sslKeyFile := .strncpy (maxPath - 1) (ascii "certs/server.key")
  authFile := .strncpy (maxPath - 1) (ascii "config/users.txt")
  backendHost := .strncpy (maxHostname - 1) (ascii "localhost")
  backendPort := 80
  numBackends := 0
  lbAlgorithm := .roundRobin
  rateLimitRequests := 100
  rateLimitBandwidthKbps := 10240
  logFile := .strncpy (maxPath - 1) (ascii "proxy.log")
  logLevel := 1
  whitelistCount := 0
  blacklistCount := 0

/-! ### The fields -/

/-- The scalar fields that the documentation and the shipped files make configurable. -/
inductive Setting where
  | port
  | bindAddress
  | mode
  | threadModel
  | numThreads
  | maxConnections
  | enableCaching
  | enableSsl
  | enableAuth
  | enableLogging
  | enableFiltering
  | enableCompression
  | enableRateLimiting
  | cacheSizeMb
  | cacheTtlSeconds
  | sslCertFile
  | sslKeyFile
  | authFile
  | backendHost
  | backendPort
  | rateLimitRequests
  | rateLimitBandwidthKbps
  | logFile
  | logLevel
deriving DecidableEq

/-- The kinds of fields: `int`, `size_t`, the two enumerations, and strings. -/
inductive Kind where
  | int
  | size
  | mode
  | threadModel
  | text (n : ℕ)

/-- What a field of the kind holds. -/
abbrev Kind.Value : Kind → Type
  | .int => ℤ
  | .size => ℕ
  | .mode => ProxyMode
  | .threadModel => ThreadingModel
  | .text n => CharField n

/-- The kind of a field. -/
abbrev Setting.kind : Setting → Kind
  | .bindAddress => .text 63
  | .mode => .mode
  | .threadModel => .threadModel
  | .cacheSizeMb => .size
  | .sslCertFile | .sslKeyFile | .authFile | .logFile => .text (maxPath - 1)
  | .backendHost => .text (maxHostname - 1)
  | _ => .int

/-- The type of a field. -/
abbrev Setting.Value (setting : Setting) : Type := setting.kind.Value

/-- What a field holds. -/
def ProxyConfig.get (config : ProxyConfig) : (setting : Setting) → setting.Value
  | .port => config.port
  | .bindAddress => config.bindAddress
  | .mode => config.mode
  | .threadModel => config.threadModel
  | .numThreads => config.numThreads
  | .maxConnections => config.maxConnections
  | .enableCaching => config.enableCaching
  | .enableSsl => config.enableSsl
  | .enableAuth => config.enableAuth
  | .enableLogging => config.enableLogging
  | .enableFiltering => config.enableFiltering
  | .enableCompression => config.enableCompression
  | .enableRateLimiting => config.enableRateLimiting
  | .cacheSizeMb => config.cacheSizeMb
  | .cacheTtlSeconds => config.cacheTtlSeconds
  | .sslCertFile => config.sslCertFile
  | .sslKeyFile => config.sslKeyFile
  | .authFile => config.authFile
  | .backendHost => config.backendHost
  | .backendPort => config.backendPort
  | .rateLimitRequests => config.rateLimitRequests
  | .rateLimitBandwidthKbps => config.rateLimitBandwidthKbps
  | .logFile => config.logFile
  | .logLevel => config.logLevel

/-- A field is written. -/
def ProxyConfig.set : (setting : Setting) → setting.Value → ProxyConfig → ProxyConfig
  | .port, v, config => { config with port := v }
  | .bindAddress, v, config => { config with bindAddress := v }
  | .mode, v, config => { config with mode := v }
  | .threadModel, v, config => { config with threadModel := v }
  | .numThreads, v, config => { config with numThreads := v }
  | .maxConnections, v, config => { config with maxConnections := v }
  | .enableCaching, v, config => { config with enableCaching := v }
  | .enableSsl, v, config => { config with enableSsl := v }
  | .enableAuth, v, config => { config with enableAuth := v }
  | .enableLogging, v, config => { config with enableLogging := v }
  | .enableFiltering, v, config => { config with enableFiltering := v }
  | .enableCompression, v, config => { config with enableCompression := v }
  | .enableRateLimiting, v, config => { config with enableRateLimiting := v }
  | .cacheSizeMb, v, config => { config with cacheSizeMb := v }
  | .cacheTtlSeconds, v, config => { config with cacheTtlSeconds := v }
  | .sslCertFile, v, config => { config with sslCertFile := v }
  | .sslKeyFile, v, config => { config with sslKeyFile := v }
  | .authFile, v, config => { config with authFile := v }
  | .backendHost, v, config => { config with backendHost := v }
  | .backendPort, v, config => { config with backendPort := v }
  | .rateLimitRequests, v, config => { config with rateLimitRequests := v }
  | .rateLimitBandwidthKbps, v, config => { config with rateLimitBandwidthKbps := v }
  | .logFile, v, config => { config with logFile := v }
  | .logLevel, v, config => { config with logLevel := v }

/-- The fields that are no settings. -/
def ProxyConfig.rest (config : ProxyConfig) : ℤ × LbAlgorithm × ℤ × ℤ :=
  (config.numBackends, config.lbAlgorithm, config.whitelistCount, config.blacklistCount)

lemma ProxyConfig.get_set_ne (setting : Setting) (v : setting.Value) (config : ProxyConfig)
    (other : Setting) (h : other ≠ setting) :
    (config.set setting v).get other = config.get other := by
  cases setting <;> cases other <;> first | rfl | exact absurd rfl h

/-- The configuration as a record of its settings. -/
def proxyRecord : Record ProxyConfig Setting.Value (ℤ × LbAlgorithm × ℤ × ℤ) where
  get := ProxyConfig.get
  set := ProxyConfig.set
  rest := ProxyConfig.rest
  get_set_self setting v config := by cases setting <;> rfl
  get_set_ne setting v config other := ProxyConfig.get_set_ne setting v config other
  rest_set setting v config := by cases setting <;> rfl
  ext config config' hrest hget := by
    simp only [ProxyConfig.rest, Prod.mk.injEq] at hrest
    obtain ⟨hbackends, halgorithm, hwhitelist, hblacklist⟩ := hrest
    exact ProxyConfig.ext (hget .port) (hget .bindAddress) (hget .mode) (hget .threadModel)
      (hget .numThreads) (hget .maxConnections) (hget .enableCaching) (hget .enableSsl)
      (hget .enableAuth) (hget .enableLogging) (hget .enableFiltering) (hget .enableCompression)
      (hget .enableRateLimiting) (hget .sslCertFile) (hget .sslKeyFile) (hget .cacheSizeMb)
      (hget .cacheTtlSeconds) (hget .authFile) (hget .backendHost) (hget .backendPort) hbackends
      halgorithm (hget .rateLimitRequests) (hget .rateLimitBandwidthKbps) hwhitelist hblacklist
      (hget .logFile) (hget .logLevel)

end ProxyMax
