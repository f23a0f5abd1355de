import VersionStore.Cache
import VersionStore.Error
import VersionStore.Namespace
import VersionStore.Text.Blank

/-! Settings of a store and of its connection to a search engine. -/
namespace VersionStore

/-- Settings of a store. -/
structure StoreConfig where
  /-- How long a generation of the cache lives, in nanoseconds. -/
  ttl : Nat
  /-- Whether reads may be served from the cache. -/
  caching : Bool
  /-- What follows a namespace in the name of its index. -/
  suffix : String
  deriving DecidableEq

/-- Settings of a connection to a search engine. -/
structure BackendConfig where
  baseUrl : String
  /-- Whether a write waits until searches see it. -/
  refresh : Bool
  username : Option String
  password : Option String
  deriving DecidableEq

structure Config where
  store : StoreConfig
  backend : BackendConfig
  deriving DecidableEq

namespace StoreConfig

/-- The settings of a store that says nothing else. -/
def standard : StoreConfig := ⟨60 * second, true, "_datastore"⟩

/-- Checks that settings can be used; the first bad one is reported. -/
def validate (config : StoreConfig) : Except ConfigError Unit :=
  if config.ttl = 0 then .error (.invalid "cache_ttl" "0" "must be > 0")
  else if Cache.maxTtl < config.ttl then
    .error (.invalid "cache_ttl" (toString (config.ttl / second) ++ "s")
      ("must be at most " ++ toString (Cache.maxTtl / second) ++ "s"))
  else if config.suffix.toList.isEmpty then
    .error (.invalid "index_suffix" "" "must not be empty")
  else if !config.suffix.toList.all isNameChar then
    .error (.invalid "index_suffix" config.suffix
      "must be lowercase letters, digits, '.', '_' or '-'")
  else .ok ()

theorem validate_eq_ok_iff {config : StoreConfig} :
    config.validate = .ok () ↔
      (0 < config.ttl ∧ config.ttl ≤ Cache.maxTtl) ∧
        config.suffix.toList ≠ [] ∧ ∀ c ∈ config.suffix.toList, isNameChar c = true := by
  unfold validate
  split
  · simp [*]
  split
  · next hmax => simp [Nat.not_le_of_lt hmax]
  split
  · next hempty => simp [List.isEmpty_iff.mp hempty]
  split
  · next hsuffix => simp_all
  · next hzero hmax hempty hsuffix =>
    simp only [Bool.not_eq_true', Bool.not_eq_false, List.all_eq_true] at hsuffix
    simp only [true_iff]
    refine ⟨⟨Nat.pos_of_ne_zero hzero, Nat.le_of_not_lt hmax⟩, ?_, hsuffix⟩
    exact fun hnil => hempty (List.isEmpty_iff.mpr hnil)

end StoreConfig

namespace BackendConfig

/-- The settings of a connection that says nothing else. -/
def standard : BackendConfig := ⟨"http://localhost:9200", false, none, none⟩

def trimmedUrl (config : BackendConfig) : List Char := Text.trim config.baseUrl.toList

/-- Checks that settings can be used; the first bad one is reported. -/
def validate (config : BackendConfig) : Except ConfigError Unit :=
  let url := config.trimmedUrl
  if url.isEmpty then .error (.missing "base_url")
  else if !("http://".toList.isPrefixOf url || "https://".toList.isPrefixOf url) then
    .error (.invalid "base_url" config.baseUrl "must start with http:// or https://")
  else if config.username.isSome != config.password.isSome then
    .error (.invalid "username" (config.username.getD "")
      "username and password must be set together")
  else .ok ()

end BackendConfig

/-- Checks all settings, those of the store first. -/
def Config.validate (config : Config) : Except ConfigError Unit := do
  config.store.validate
  config.backend.validate

end VersionStore
