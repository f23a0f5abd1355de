import VersionStore.Config
import VersionStore.Json.Decode

/-! The JSON form of settings.

Every setting is a field of its structure and other fields are errors. A time to live is
written in whole seconds. -/
namespace VersionStore

namespace StoreConfig

def toValue (config : StoreConfig) : Json.Value :=
  .object
    [("cache_enabled", .boolean config.caching),
     ("cache_ttl", .integer (config.ttl / second : Nat)),
     ("index_suffix", .string config.suffix)]

/-- The fields of a store's settings, in their positional order. -/
def layout : Json.Layout (UInt64 × Bool × String) where
  name := "struct DatastoreConfig"
  fields :=
    .cons ⟨"cache_ttl", Json.Value.asUnsigned "u64", none⟩ <|
    .cons ⟨"cache_enabled", Json.Value.asBoolean, none⟩ <|
    .one ⟨"index_suffix", Json.Value.asString, none⟩
  strict := true

def ofValue (surplus : Bool) (v : Json.Value) : Json.Decoded StoreConfig :=
  (layout.read surplus v).map fun (seconds, caching, suffix) =>
    ⟨seconds.toNat * second, caching, suffix⟩

end StoreConfig

namespace BackendConfig

def optionalValue : Option String → Json.Value
  | some s => .string s
  | none => .null

def toValue (config : BackendConfig) : Json.Value :=
  .object
    [("base_url", .string config.baseUrl), ("password", optionalValue config.password),
     ("refresh_on_write", .boolean config.refresh), ("username", optionalValue config.username)]

/-- The fields of a connection's settings, in their positional order. -/
def layout : Json.Layout (String × Bool × Option String × Option String) where
  name := "struct BackendConfig"
  fields :=
    .cons ⟨"base_url", Json.Value.asString, none⟩ <|
    .cons ⟨"refresh_on_write", Json.Value.asBoolean, none⟩ <|
    .cons ⟨"username", Json.Value.asOptionalString, some none⟩ <|
    .one ⟨"password", Json.Value.asOptionalString, some none⟩
  strict := true

def ofValue (surplus : Bool) (v : Json.Value) : Json.Decoded BackendConfig :=
  (layout.read surplus v).map fun (baseUrl, refresh, username, password) =>
    ⟨baseUrl, refresh, username, password⟩

end BackendConfig

namespace Config

def toValue (config : Config) : Json.Value :=
  .object [("backend", config.backend.toValue), ("datastore", config.store.toValue)]

/-- The fields of the settings; `surplus` allows arrays that are too long, at any depth. -/
def layout (surplus : Bool) : Json.Layout (StoreConfig × BackendConfig) where
  name := "struct QuarryConfig"
  fields :=
    .cons ⟨"datastore", StoreConfig.ofValue surplus, none⟩ <|
    .one ⟨"backend", BackendConfig.ofValue surplus, none⟩
  strict := true

def ofValue (surplus : Bool) (v : Json.Value) : Json.Decoded Config :=
  ((layout surplus).read surplus v).map fun (store, backend) => ⟨store, backend⟩

end Config

end VersionStore
