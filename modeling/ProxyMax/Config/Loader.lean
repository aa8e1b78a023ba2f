import ProxyMax.Config.Settings
import ProxyMax.Lib.TextFile

/-!
`config_load` of `src/utils/config.c`.

* `parseLine`: a line of the file, cut at its first `=`.
* `configEntry`: the chain of comparisons of the key, as the field that is written and the
  value that is written to it.
* `configLine`, `configLoad`: the code.
* `fileEntries`, `configLoad_eq`: the assignments of a file, which are what loading it makes.
-/

namespace ProxyMax

open CString TextFile Overlay

/-- The modes by their names. -/
def parseMode (value : Bytes) : Option ProxyMode :=
  if value = ascii "http" then some .http
  else if value = ascii "https" then some .https
  else if value = ascii "socks5" then some .socks5
  else if value = ascii "tcp" then some .tcp
  else if value = ascii "reverse" then some .reverse
  else none

/-- The threading models by their names. -/
def parseThreadModel (value : Bytes) : Option ThreadingModel :=
  if value = ascii "pool" then some .pool
  else if value = ascii "event" then some .eventDriven
  else if value = ascii "hybrid" then some .hybrid
  else if value = ascii "perconn" then some .perConnection
  else none

/-- An `int` as a `size_t`. -/
def sizeOfInt (n : ℤ) : ℕ := (n % sizeMod).toNat

/-- The characters that are trimmed. -/
def isBlank (c : UInt8) : Bool := c = 32 ∨ c = 9

/-- The key and the value in a line, unless the line is skipped. -/
def parseLine (line : Bytes) : Option (Bytes × Bytes) :=
  if line.head? = some 35 ∨ line = [] ∨ line.head? = some 10 then none
  else (strchr line 61).map fun eq =>
    ((line.takeWhile (· ≠ 61)).dropWhile isBlank, eq.tail.dropWhile isBlank)

/-- What a key and its value set: the field and what is written to it. -/
def configEntry (key value : Bytes) : Option (Assignment Setting.Value) :=
  if key = ascii "port" then some ⟨.port, atoi value⟩
  else if key = ascii "bind_address" then some ⟨.bindAddress, .strncpy 63 value⟩
  else if key = ascii "mode" then (parseMode value).map fun mode => ⟨.mode, mode⟩
  else if key = ascii "num_threads" then some ⟨.numThreads, atoi value⟩
  else if key = ascii "thread_model" then
    (parseThreadModel value).map fun model => ⟨.threadModel, model⟩
  else if key = ascii "enable_caching" then some ⟨.enableCaching, atoi value⟩
  else if key = ascii "enable_ssl" then some ⟨.enableSsl, atoi value⟩
  else if key = ascii "enable_auth" then some ⟨.enableAuth, atoi value⟩
  else if key = ascii "enable_logging" then some ⟨.enableLogging, atoi value⟩
  else if key = ascii "enable_filtering" then some ⟨.enableFiltering, atoi value⟩
  else if key = ascii "enable_compression" then some ⟨.enableCompression, atoi value⟩
  else if key = ascii "enable_rate_limiting" then some ⟨.enableRateLimiting, atoi value⟩
  else if key = ascii "cache_size_mb" then some ⟨.cacheSizeMb, sizeOfInt (atoi value)⟩
  else if key = ascii "ssl_cert" then some ⟨.sslCertFile, .strncpy (maxPath - 1) value⟩
  else if key = ascii "ssl_key" then some ⟨.sslKeyFile, .strncpy (maxPath - 1) value⟩
  else if key = ascii "backend_host" then some ⟨.backendHost, .strncpy (maxHostname - 1) value⟩
  else if key = ascii "backend_port" then some ⟨.backendPort, atoi value⟩
  else if key = ascii "log_file" then some ⟨.logFile, .strncpy (maxPath - 1) value⟩
  else none

/-- The entry in a line. -/
def lineEntry (line : Bytes) : Option (Assignment Setting.Value) :=
  (parseLine line).bind fun pair => configEntry pair.1 pair.2

/-- The body of the loop of `config_load`. -/
def configLine (config : ProxyConfig) (read : Bytes) : ProxyConfig :=
  match lineEntry (beforeNewline read) with
  | none => config
  | some entry => config.set entry.1 entry.2

/-- `config_load`: its result and the configuration, when `file` is what the file holds, or
`none` if it does not open. -/
def configLoad (file : Option Bytes) (config : ProxyConfig) : ℤ × ProxyConfig :=
  match file with
  | none => (-1, config)
  | some content => (0, (reads 1024 content).foldl configLine config)

/-- The assignments of a file. -/
def fileEntries (content : Bytes) : List (Assignment Setting.Value) :=
  ((reads 1024 content).map beforeNewline).filterMap lineEntry

/-- **Loading a file** makes its assignments. -/
lemma configLoad_eq (content : Bytes) (config : ProxyConfig) :
    configLoad (some content) config = (0, proxyRecord.assign (fileEntries content) config) := by
  have hloop : ∀ (rs : List Bytes) (config : ProxyConfig), rs.foldl configLine config =
      proxyRecord.assign ((rs.map beforeNewline).filterMap lineEntry) config := by
    intro rs
    induction rs with
    | nil => exact fun _ => rfl
    | cons read rs ih =>
        intro config
        rw [List.foldl_cons, ih, List.map_cons, configLine]
        cases hentry : lineEntry (beforeNewline read) with
        | none => rw [List.filterMap_cons_none hentry]
        | some entry => rw [List.filterMap_cons_some hentry, Record.assign_cons]; rfl
  rw [configLoad, hloop, fileEntries]

end ProxyMax
