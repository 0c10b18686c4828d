import GamifyKit.Go.Strings
import GamifyKit.Go.Format

/-! `config`: the server's configuration, its defaults and its validation.

    Each `Validate` collects one message per failed check, in the order of its checks, and joins
    them with `"; "`; `nil` is `none`. A section's error enters the list of `Config.Validate`
    behind the section's name (`"server config: "` and so on), the file store's behind
    `"file config: "`. Durations are `int64` nanoseconds. Of each record only the fields that
    `Validate` reads are kept: the others (`Profile`, `PathPrefix`, `CORSOrigin`, the Redis and SQL
    settings, the log attributes, `CollectSystem`, `CleanupInterval`) are read by no function
    modelled here.

    `Config.Valid` says, section by section, which configurations the server accepts; `Validate`
    returns `nil` exactly on them (`Config.Validate_eq_none_iff`), `DefaultConfig` is one, and every
    message of a rejection begins with the name of the field or section it is about
    (`Config.errs_named`). -/

namespace GamifyKit.Configuration
open GamifyKit.Go

/-- `strings.Join(elems, sep)`. -/
def Join (elems : List GoString) (sep : GoString) : GoString := sep.intercalate elems

/-- The end of every `Validate`: `nil` when no check failed, else the messages joined. -/
def joinErrs (errs : List GoString) : Option GoString :=
  if errs = [] then none else some (Join errs (lit "; "))

/-- `if bad { errs = append(errs, msg) }`. -/
def check (bad : Prop) [Decidable bad] (msg : GoString) : List GoString := if bad then [msg] else []

/-- The loop over the valid values of a field, and the message when none matches:
    `fmt.Sprintf("<field> must be one of: %s", strings.Join(valid, ", "))`. -/
def oneOf (field : GoString) (valid : List GoString) (value : GoString) : List GoString :=
  check (value ∉ valid) (field ++ lit " must be one of: " ++ Join valid (lit ", "))

/-- `fmt.Sprintf("<name> config: %v", err)` for the error of a section. -/
def sectionErr (name : GoString) (err : Option GoString) : List GoString :=
  err.toList.map (name ++ lit " config: " ++ ·)

@[simp] theorem joinErrs_eq_none (errs : List GoString) : joinErrs errs = none ↔ errs = [] := by
  unfold joinErrs; split_ifs <;> simpa

@[simp] theorem check_eq_nil (bad : Prop) [Decidable bad] (msg : GoString) :
    check bad msg = [] ↔ ¬ bad := by
  unfold check; split_ifs <;> simpa

@[simp] theorem oneOf_eq_nil (field : GoString) (valid : List GoString) (value : GoString) :
    oneOf field valid value = [] ↔ value ∈ valid := by
  simp [oneOf]

theorem mem_check {bad : Prop} [Decidable bad] {msg e : GoString} (h : e ∈ check bad msg) :
    e = msg := by
  unfold check at h; split_ifs at h <;> simp_all

theorem mem_sectionErr {name e : GoString} {err : Option GoString} (h : e ∈ sectionErr name err) :
    name <+: e := by
  obtain ⟨x, -, rfl⟩ := List.mem_map.1 h
  exact (List.prefix_append _ _).trans (List.prefix_append _ _)

@[simp] theorem sectionErr_eq_nil (name : GoString) (err : Option GoString) :
    sectionErr name err = [] ↔ err = none := by
  cases err <;> simp [sectionErr]

/-! ### The sections -/

/-- `ServerConfig`, its address and timeouts. -/
structure ServerConfig where
  address : GoString
  readTimeout : Int
  writeTimeout : Int
  idleTimeout : Int
  readHeaderTimeout : Int
  shutdownTimeout : Int

/-- The messages of `ServerConfig.Validate`. -/
def ServerConfig.errs (s : ServerConfig) : List GoString :=
  check (s.address = []) (lit "address cannot be empty") ++
    check (s.readTimeout ≤ 0) (lit "read_timeout must be positive") ++
    check (s.writeTimeout ≤ 0) (lit "write_timeout must be positive") ++
    check (s.idleTimeout ≤ 0) (lit "idle_timeout must be positive") ++
    check (s.readHeaderTimeout ≤ 0) (lit "read_header_timeout must be positive") ++
    check (s.shutdownTimeout ≤ 0) (lit "shutdown_timeout must be positive")

/-- `(*ServerConfig).Validate`. -/
def ServerConfig.Validate (s : ServerConfig) : Option GoString := joinErrs s.errs

/-- `FileConfig`. -/
structure FileConfig where
  path : GoString

/-- `(*FileConfig).Validate`. -/
def FileConfig.Validate (f : FileConfig) : Option GoString :=
  if f.path = [] then some (lit "path cannot be empty") else none

/-- `StorageConfig`, its adapter and the file store's settings. -/
structure StorageConfig where
  adapter : GoString
  file : FileConfig

/-- `validAdapters` of `(*StorageConfig).Validate`. -/
def validAdapters : List GoString := [lit "memory", lit "redis", lit "sql", lit "file"]

/-- The messages of `StorageConfig.Validate`: the adapter's, then the file store's when the
    adapter is `"file"`. -/
def StorageConfig.errs (s : StorageConfig) : List GoString :=
  oneOf (lit "adapter") validAdapters s.adapter ++
    if s.adapter = lit "file" then sectionErr (lit "file") s.file.Validate else []

/-- `(*StorageConfig).Validate`. -/
def StorageConfig.Validate (s : StorageConfig) : Option GoString := joinErrs s.errs

/-- `LoggingConfig`, its level, format and output. -/
structure LoggingConfig where
  level : GoString
  format : GoString
  output : GoString

/-- `validLevels` of `(*LoggingConfig).Validate`. -/
def validLevels : List GoString := [lit "debug", lit "info", lit "warn", lit "error"]

/-- `validFormats` of `(*LoggingConfig).Validate`. -/
def validFormats : List GoString := [lit "json", lit "text"]

/-- `validOutputs` of `(*LoggingConfig).Validate`. -/
def validOutputs : List GoString := [lit "stdout", lit "stderr"]

/-- The messages of `LoggingConfig.Validate`. -/
def LoggingConfig.errs (l : LoggingConfig) : List GoString :=
  oneOf (lit "level") validLevels l.level ++ oneOf (lit "format") validFormats l.format ++
    oneOf (lit "output") validOutputs l.output

/-- `(*LoggingConfig).Validate`. -/
def LoggingConfig.Validate (l : LoggingConfig) : Option GoString := joinErrs l.errs

/-- `MetricsConfig`, whether it is on, and its address and path. -/
structure MetricsConfig where
  enabled : Bool
  address : GoString
  path : GoString

/-- The messages of `MetricsConfig.Validate`, checked only when metrics are on. -/
def MetricsConfig.errs (m : MetricsConfig) : List GoString :=
  if m.enabled then
    check (m.address = []) (lit "address cannot be empty when metrics are enabled") ++
      check (m.path = []) (lit "path cannot be empty when metrics are enabled")
  else []

/-- `(*MetricsConfig).Validate`. -/
def MetricsConfig.Validate (m : MetricsConfig) : Option GoString := joinErrs m.errs

/-- `RateLimitConfig`, its rate and burst. -/
structure RateLimitConfig where
  requestsPerMinute : Int
  burstSize : Int

/-- `SecurityConfig`. -/
structure SecurityConfig where
  enableRateLimit : Bool
  rateLimit : RateLimitConfig
  apiKeys : List GoString

/-- The message for the `i`th API key: `fmt.Sprintf("api_keys[%d] is empty", i)`. -/
def apiKeyErr (i : Nat) : GoString := lit "api_keys[" ++ appendInt i 0 ++ lit "] is empty"

/-- The messages of `SecurityConfig.Validate`: the limits, when rate limiting is on, then one per
    blank API key, in order. -/
def SecurityConfig.errs (s : SecurityConfig) : List GoString :=
  (if s.enableRateLimit then
      check (s.rateLimit.requestsPerMinute ≤ 0)
          (lit "rate_limit.requests_per_minute must be > 0 when rate limiting is enabled") ++
        check (s.rateLimit.burstSize ≤ 0)
          (lit "rate_limit.burst_size must be > 0 when rate limiting is enabled")
    else []) ++
    s.apiKeys.enum.flatMap fun ik => check (TrimSpace ik.2 = []) (apiKeyErr ik.1)

/-- `SecurityConfig.Validate`. -/
def SecurityConfig.Validate (s : SecurityConfig) : Option GoString := joinErrs s.errs

/-- `Config`, of which `Environment` is a string. -/
structure Config where
  environment : GoString
  server : ServerConfig
  storage : StorageConfig
  logging : LoggingConfig
  metrics : MetricsConfig
  security : SecurityConfig

/-- The messages of `Config.Validate`: the environment's, then each section's error behind its
    name. -/
def Config.errs (c : Config) : List GoString :=
  check (c.environment = []) (lit "environment cannot be empty") ++
    sectionErr (lit "server") c.server.Validate ++ sectionErr (lit "storage") c.storage.Validate ++
    sectionErr (lit "logging") c.logging.Validate ++ sectionErr (lit "metrics") c.metrics.Validate ++
    sectionErr (lit "security") c.security.Validate

/-- `(*Config).Validate`. -/
def Config.Validate (c : Config) : Option GoString := joinErrs c.errs

/-- `time.Second`, in nanoseconds. -/
def Second : Int := 1000000000

/-- `time.Minute`. -/
def Minute : Int := 60 * Second

/-- `EnvDevelopment`. -/
def EnvDevelopment : GoString := lit "development"

/-- `DefaultConfig()`. -/
def DefaultConfig : Config where
  environment := EnvDevelopment
  server := ⟨lit ":8080", 10 * Second, 10 * Second, 60 * Second, 5 * Second, 30 * Second⟩
  storage := ⟨lit "memory", ⟨lit "./data/gamifykit.json"⟩⟩
  logging := ⟨lit "info", lit "json", lit "stdout"⟩
  metrics := ⟨false, lit ":9090", lit "/metrics"⟩
  security := ⟨false, ⟨60, 10⟩, []⟩

/-! ### What is accepted -/

/-- A server with an address and positive timeouts. -/
@[mk_iff] structure ServerConfig.Valid (s : ServerConfig) : Prop where
  address : s.address ≠ []
  readTimeout : 0 < s.readTimeout
  writeTimeout : 0 < s.writeTimeout
  idleTimeout : 0 < s.idleTimeout
  readHeaderTimeout : 0 < s.readHeaderTimeout
  shutdownTimeout : 0 < s.shutdownTimeout

/-- A known adapter, with a path for the file store when it is the one chosen. -/
@[mk_iff] structure StorageConfig.Valid (s : StorageConfig) : Prop where
  adapter : s.adapter ∈ validAdapters
  path : s.adapter = lit "file" → s.file.path ≠ []

/-- A known level, format and output. -/
@[mk_iff] structure LoggingConfig.Valid (l : LoggingConfig) : Prop where
  level : l.level ∈ validLevels
  format : l.format ∈ validFormats
  output : l.output ∈ validOutputs

/-- An address and a path whenever metrics are on. -/
@[mk_iff] structure MetricsConfig.Valid (m : MetricsConfig) : Prop where
  address : m.enabled → m.address ≠ []
  path : m.enabled → m.path ≠ []

/-- Positive limits whenever rate limiting is on, and no API key made of spaces only. -/
@[mk_iff] structure SecurityConfig.Valid (s : SecurityConfig) : Prop where
  requestsPerMinute : s.enableRateLimit → 0 < s.rateLimit.requestsPerMinute
  burstSize : s.enableRateLimit → 0 < s.rateLimit.burstSize
  apiKeys : ∀ key ∈ s.apiKeys, TrimSpace key ≠ []

/-- A configuration the server accepts: a named environment and valid sections. -/
@[mk_iff] structure Config.Valid (c : Config) : Prop where
  environment : c.environment ≠ []
  server : c.server.Valid
  storage : c.storage.Valid
  logging : c.logging.Valid
  metrics : c.metrics.Valid
  security : c.security.Valid

theorem ServerConfig.Validate_eq_none_iff (s : ServerConfig) : s.Validate = none ↔ s.Valid := by
  simp [ServerConfig.Validate, ServerConfig.errs, ServerConfig.valid_iff, and_assoc]

theorem StorageConfig.Validate_eq_none_iff (s : StorageConfig) : s.Validate = none ↔ s.Valid := by
  by_cases h : s.adapter = lit "file" <;>
    simp [StorageConfig.Validate, StorageConfig.errs, StorageConfig.valid_iff, FileConfig.Validate, h]

theorem LoggingConfig.Validate_eq_none_iff (l : LoggingConfig) : l.Validate = none ↔ l.Valid := by
  simp [LoggingConfig.Validate, LoggingConfig.errs, LoggingConfig.valid_iff, and_assoc]

theorem MetricsConfig.Validate_eq_none_iff (m : MetricsConfig) : m.Validate = none ↔ m.Valid := by
  cases hm : m.enabled <;> simp [MetricsConfig.Validate, MetricsConfig.errs, MetricsConfig.valid_iff, hm]

/-- No message for the API keys exactly when none of them is blank. -/
theorem apiKeyErrs_eq_nil (keys : List GoString) :
    (keys.enum.flatMap fun ik => check (TrimSpace ik.2 = []) (apiKeyErr ik.1)) = [] ↔
      ∀ key ∈ keys, TrimSpace key ≠ [] := by
  simp only [List.flatMap_eq_nil_iff, check_eq_nil]
  rw [← List.forall_mem_map (f := Prod.snd) (P := fun key => ¬TrimSpace key = []),
    List.enum_map_snd]

theorem SecurityConfig.Validate_eq_none_iff (s : SecurityConfig) : s.Validate = none ↔ s.Valid := by
  simp only [SecurityConfig.Validate, SecurityConfig.errs, joinErrs_eq_none, List.append_eq_nil,
    apiKeyErrs_eq_nil, SecurityConfig.valid_iff]
  cases s.enableRateLimit <;>
    simp only [Bool.false_eq_true, if_false, if_true, false_implies, true_implies, true_and,
      List.append_eq_nil, check_eq_nil, not_le, and_assoc]

/-- `Validate` accepts a configuration exactly when it is valid. -/
theorem Config.Validate_eq_none_iff (c : Config) : c.Validate = none ↔ c.Valid := by
  simp only [Config.Validate, Config.errs, joinErrs_eq_none, List.append_eq_nil, check_eq_nil,
    sectionErr_eq_nil, ServerConfig.Validate_eq_none_iff, StorageConfig.Validate_eq_none_iff,
    LoggingConfig.Validate_eq_none_iff, MetricsConfig.Validate_eq_none_iff,
    SecurityConfig.Validate_eq_none_iff, Config.valid_iff, and_assoc]

/-- Each message `Config.Validate` joins begins with the name of what it checks: the environment,
    or the section whose error it carries. -/
theorem Config.errs_named (c : Config) {e : GoString} (h : e ∈ c.errs) :
    ∃ name ∈ [lit "environment", lit "server", lit "storage", lit "logging", lit "metrics",
      lit "security"], name <+: e := by
  simp only [Config.errs, List.mem_append] at h
  rcases h with ((((h | h) | h) | h) | h) | h
  · exact ⟨_, List.mem_cons_self _ _, mem_check h ▸ ⟨lit " cannot be empty", rfl⟩⟩
  all_goals exact ⟨_, by simp, mem_sectionErr h⟩

instance : DecidablePred ServerConfig.Valid := fun s => decidable_of_iff _ (ServerConfig.valid_iff s).symm

instance : DecidablePred StorageConfig.Valid := fun s => decidable_of_iff _ (StorageConfig.valid_iff s).symm

instance : DecidablePred LoggingConfig.Valid := fun l => decidable_of_iff _ (LoggingConfig.valid_iff l).symm

instance : DecidablePred MetricsConfig.Valid := fun m => decidable_of_iff _ (MetricsConfig.valid_iff m).symm

instance : DecidablePred SecurityConfig.Valid := fun s =>
  decidable_of_iff _ (SecurityConfig.valid_iff s).symm

instance : DecidablePred Config.Valid := fun c => decidable_of_iff _ (Config.valid_iff c).symm

/-- The defaults pass their own checks. -/
theorem DefaultConfig_Validate : DefaultConfig.Validate = none := by decide

example : DefaultConfig.Valid := by decide

end GamifyKit.Configuration
