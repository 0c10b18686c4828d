import GamifyKit.Config.Validate

/-! `cmd/gamifykit-server`: how the server starts. `BuildApp`, as Wire generates it from the
    providers, calls them in order and stops at the first error. `provideConfig` loads the
    configuration with `config.Load`, which starts from `DefaultConfig`, overrides it from the
    environment with `loadFromEnv` (reflection over the fields' `env` tags, in the `config`
    package's `examples/sdk-go/main.go`) and validates it; in production it then loads secrets
    with `Config.LoadSecretsFromEnv`, which this repository does not define, into the validated
    configuration. Both enter as what they do to the configuration: `loadFromEnv` as the
    configuration it makes or its error, `LoadSecretsFromEnv` as any function from the
    configuration to the one it leaves or its error; `redis.New` and `sqlx.New`, which connect to
    servers, as their errors. A server that starts runs on a store that was set up, and on a
    configuration that passed `Validate`, or in production on what the secrets made of one
    (`BuildApp_ok`); the file store passes `Validate` but never starts (`BuildApp_file`). -/

namespace GamifyKit.Server
open GamifyKit.Go GamifyKit.Configuration

/-- `config.EnvProduction`. -/
def EnvProduction : GoString := lit "production"

/-- `config.Load()`, `loadFromEnv` having made `loaded` of `DefaultConfig()`. -/
def Load (loaded : Except GoString Config) : Except GoString Config :=
  match loaded with
  | .error err => .error (lit "failed to load config from environment: " ++ err)
  | .ok cfg =>
    match cfg.Validate with
    | some err => .error (lit "invalid configuration: " ++ err)
    | none => .ok cfg

/-- `provideConfig`, `LoadSecretsFromEnv` turning a configuration into `secrets` of it. -/
def provideConfig (loaded : Except GoString Config) (secrets : Config → Except GoString Config) :
    Except GoString Config :=
  match Load loaded with
  | .error err => .error err
  | .ok cfg => if cfg.environment = EnvProduction then secrets cfg else .ok cfg

/-- The store `setupStorage` returns. -/
inductive StorageKind
  | memory
  | redis
  | sql
  deriving DecidableEq

/-- `setupStorage`, `redis.New` and `sqlx.New` returning `redisErr` and `sqlErr`: the store and the
    error. -/
def setupStorage (redisErr sqlErr : Option GoString) (cfg : Config) : StorageKind × Option GoString :=
  if cfg.storage.adapter = lit "memory" then (.memory, none)
  else if cfg.storage.adapter = lit "redis" then (.redis, redisErr)
  else if cfg.storage.adapter = lit "sql" then (.sql, sqlErr)
  else if cfg.storage.adapter = lit "file" then
    (.memory, some (lit "file storage not yet implemented, using memory fallback"))
  else (.memory, some (lit "unknown storage adapter: " ++ cfg.storage.adapter))

/-- What the server is built on: its configuration and its store. -/
structure App where
  config : Config
  storage : StorageKind

/-- `BuildApp(ctx)`. -/
def BuildApp (loaded : Except GoString Config) (secrets : Config → Except GoString Config)
    (redisErr sqlErr : Option GoString) : Except GoString App :=
  match provideConfig loaded secrets with
  | .error err => .error err
  | .ok cfg =>
    match setupStorage redisErr sqlErr cfg with
    | (_, some err) => .error err
    | (kind, none) => .ok ⟨cfg, kind⟩

/-- The configuration `provideConfig` returns is the one `loadFromEnv` made, which passed
    `Validate`, or in production what the secrets made of it. -/
theorem provideConfig_ok {loaded : Except GoString Config}
    {secrets : Config → Except GoString Config} {cfg : Config}
    (h : provideConfig loaded secrets = .ok cfg) :
    ∃ cfg₀, loaded = .ok cfg₀ ∧ cfg₀.Validate = none ∧
      (cfg₀.environment = EnvProduction ∧ secrets cfg₀ = .ok cfg ∨
        cfg₀.environment ≠ EnvProduction ∧ cfg = cfg₀) := by
  unfold provideConfig Load at h
  rcases loaded with err | cfg₀
  · cases h
  · rcases hv : cfg₀.Validate with _ | err
    · simp only [hv] at h
      split_ifs at h with he
      · exact ⟨cfg₀, rfl, hv, .inl ⟨he, h⟩⟩
      · exact ⟨cfg₀, rfl, hv, .inr ⟨he, (Except.ok.inj h).symm⟩⟩
    · simp only [hv] at h
      cases h

/-- A store set up without an error is the memory store, or a Redis or SQL store that connected;
    never the file store. -/
theorem setupStorage_ok {redisErr sqlErr : Option GoString} {cfg : Config} {kind : StorageKind}
    (h : setupStorage redisErr sqlErr cfg = (kind, none)) :
    kind = .memory ∧ cfg.storage.adapter = lit "memory" ∨
      kind = .redis ∧ cfg.storage.adapter = lit "redis" ∧ redisErr = none ∨
      kind = .sql ∧ cfg.storage.adapter = lit "sql" ∧ sqlErr = none := by
  unfold setupStorage at h
  split_ifs at h with h₁ h₂ h₃ h₄
  · exact .inl ⟨(Prod.mk.inj h).1.symm, h₁⟩
  · exact .inr (.inl ⟨(Prod.mk.inj h).1.symm, h₂, (Prod.mk.inj h).2⟩)
  · exact .inr (.inr ⟨(Prod.mk.inj h).1.symm, h₃, (Prod.mk.inj h).2⟩)
  · cases h
  · cases h

/-- A server that starts runs on the memory store or a Redis or SQL store that connected, and on
    the configuration `loadFromEnv` made, which is valid (so its rate limiter, when on, has a
    positive rate and burst, and no API key is blank), or in production on what the secrets made
    of it. -/
theorem BuildApp_ok {loaded : Except GoString Config} {secrets : Config → Except GoString Config}
    {redisErr sqlErr : Option GoString} {app : App} (h : BuildApp loaded secrets redisErr sqlErr = .ok app) :
    (∃ cfg, loaded = .ok cfg ∧ cfg.Valid ∧
      (cfg.security.enableRateLimit →
        0 < cfg.security.rateLimit.requestsPerMinute ∧ 0 < cfg.security.rateLimit.burstSize) ∧
      (cfg.environment = EnvProduction ∧ secrets cfg = .ok app.config ∨
        cfg.environment ≠ EnvProduction ∧ app.config = cfg)) ∧
      (app.storage = .memory ∧ app.config.storage.adapter = lit "memory" ∨
        app.storage = .redis ∧ app.config.storage.adapter = lit "redis" ∧ redisErr = none ∨
        app.storage = .sql ∧ app.config.storage.adapter = lit "sql" ∧ sqlErr = none) := by
  unfold BuildApp at h
  rcases hc : provideConfig loaded secrets with err | cfg
  · simp only [hc] at h; cases h
  · rcases hs : setupStorage redisErr sqlErr cfg with ⟨kind, _ | err⟩
    · simp only [hc, hs, Except.ok.injEq] at h
      subst h
      obtain ⟨cfg₀, hl, hv, he⟩ := provideConfig_ok hc
      have hV := cfg₀.Validate_eq_none_iff.1 hv
      exact ⟨⟨cfg₀, hl, hV, fun hr => ⟨hV.security.requestsPerMinute hr, hV.security.burstSize hr⟩,
        he⟩, setupStorage_ok hs⟩
    · simp only [hc, hs] at h; cases h

/-- No configuration naming the file store starts the server, whatever the connections would do
    and whatever the secrets do but change the store: `setupStorage` fails on it. -/
theorem BuildApp_file {cfg : Config} {secrets : Config → Except GoString Config}
    (hf : cfg.storage.adapter = lit "file")
    (hsecrets : ∀ cfg', secrets cfg = .ok cfg' → cfg'.storage.adapter = lit "file")
    (redisErr sqlErr : Option GoString) (app : App) :
    BuildApp (.ok cfg) secrets redisErr sqlErr ≠ .ok app := by
  intro h
  obtain ⟨⟨cfg₀, hl, -, -, he⟩, hs⟩ := BuildApp_ok h
  cases hl
  have hfile : app.config.storage.adapter = lit "file" :=
    he.elim (fun he => hsecrets _ he.2) fun he => he.2 ▸ hf
  rcases hs with ⟨-, hm⟩ | ⟨-, hm, -⟩ | ⟨-, hm, -⟩ <;> rw [hfile] at hm <;> exact absurd hm (by decide)

/-- The file store is nevertheless a choice `Validate` accepts. -/
example : ({ DefaultConfig with storage := ⟨lit "file", ⟨lit "./data/gamifykit.json"⟩⟩ } : Config).Validate =
    none := by
  decide

end GamifyKit.Server
