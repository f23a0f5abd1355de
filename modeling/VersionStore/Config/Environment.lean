import VersionStore.Config
import VersionStore.Number.Decimal

/-! Settings from environment variables.

A variable that is not set, or whose value is not valid UTF-8, leaves the standard
setting as it is. -/
namespace VersionStore

/-- The values of the environment variables that hold text. -/
abbrev Environment := String → Option String

/-- Whether a text is a given lower-case word, whatever its case. -/
def isWord (word : String) (text : String) : Bool := text.toList.map Char.toLower == word.toList

namespace StoreConfig

def ofEnvironment (env : Environment) : StoreConfig where
  ttl :=
    (((env "QUARRY_CACHE_TTL_SECS").bind fun s => Decimal.word? s.toList).map (· * second)).getD
      standard.ttl
  caching := ((env "QUARRY_CACHE_ENABLED").map (!isWord "false" ·)).getD standard.caching
  suffix := ((env "QUARRY_INDEX_SUFFIX").filter (!·.toList.isEmpty)).getD standard.suffix

end StoreConfig

namespace BackendConfig

def ofEnvironment (env : Environment) : BackendConfig where
  baseUrl := (env "QUARRY_BACKEND_URL").getD standard.baseUrl
  refresh := ((env "QUARRY_BACKEND_REFRESH").map (isWord "true" ·)).getD standard.refresh
  username := env "QUARRY_BACKEND_USERNAME"
  password := env "QUARRY_BACKEND_PASSWORD"

end BackendConfig

def Config.ofEnvironment (env : Environment) : Config :=
  ⟨.ofEnvironment env, .ofEnvironment env⟩

end VersionStore
