import VersionStore.Config.Form
import VersionStore.Proofs.Json.Layout

/-! What settings are after they were written and read.

Settings are written with a time to live in whole seconds, so a fraction of a second is
lost (`StoreConfig.inSeconds`). That is all that is lost (`Config.read_back`): settings
whose time to live has no fraction come back as they were, and the others come back usable
unless less than a second was all they had. -/
namespace VersionStore

namespace StoreConfig

/-- The settings with a time to live that is cut to whole seconds. -/
def inSeconds (config : StoreConfig) : StoreConfig :=
  {config with ttl := config.ttl / second * second}

variable {config : StoreConfig}

theorem inSeconds_eq_self_iff : config.inSeconds = config ↔ second ∣ config.ttl := by
  obtain ⟨ttl, caching, suffix⟩ := config
  rw [Nat.dvd_iff_div_mul_eq]
  simp [inSeconds]

/-- Usable settings stay usable without fractions of a second, if they allow for a second. -/
theorem validate_inSeconds_iff (h : config.validate = .ok ()) :
    config.inSeconds.validate = .ok () ↔ second ≤ config.ttl := by
  obtain ⟨⟨hpositive, hcapped⟩, hsuffix⟩ := validate_eq_ok_iff.mp h
  rw [validate_eq_ok_iff]
  have hcut : config.inSeconds.ttl ≤ config.ttl := Nat.div_mul_le_self ..
  have hsecond : 0 < second := by decide
  constructor
  · rintro ⟨⟨hleft, -⟩, -⟩
    have hquotient : 0 < config.ttl / second := Nat.pos_of_mul_pos_right hleft
    exact (Nat.div_pos_iff.mp hquotient).2
  · intro hle
    exact ⟨⟨Nat.mul_pos (Nat.div_pos hle hsecond) hsecond, Nat.le_trans hcut hcapped⟩, hsuffix⟩

/-- Settings of a store are read back in whole seconds. -/
theorem ofValue_toValue (surplus : Bool) (h : config.ttl ≤ Cache.maxTtl) :
    ofValue surplus config.toValue = .ok config.inSeconds := by
  have hseconds : config.ttl / second < UInt64.size :=
    Nat.lt_of_le_of_lt (Nat.div_le_div_right h) (by decide)
  have hcode : (UInt64.ofNat (config.ttl / second)).toNat = config.ttl / second :=
    UInt64.toNat_ofNat_of_lt' hseconds
  have hkeys : ["cache_enabled", "cache_ttl", "index_suffix"].Pairwise (· < ·) := by decide
  have hknown : ∀ key ∈ ["cache_enabled", "cache_ttl", "index_suffix"],
      key ∈ layout.fields.names := by decide
  have hread : layout.read surplus config.toValue =
      .ok (UInt64.ofNat (config.ttl / second), config.caching, config.suffix) := by
    refine (Json.Layout.read_known_iff ?_ ?_).mpr ?_
    · exact hkeys
    · exact hknown
    simp only [layout, Json.Fields.collect_cons_eq_ok_iff, Json.Fields.collect_one,
      Json.Fields.pick_eq_ok_iff]
    refine ⟨⟨_, rfl, Json.Value.asUnsigned_eq_ok_iff.mpr ?_⟩, ⟨_, rfl, rfl⟩, _, rfl, rfl⟩
    rw [hcode]
  rw [ofValue, hread]
  simp only [Except.map, hcode, inSeconds]

end StoreConfig

namespace BackendConfig

theorem asOptionalString_optionalValue (s : Option String) :
    (optionalValue s).asOptionalString = .ok s := by
  cases s <;> rfl

/-- Settings of a connection are read back as they were written. -/
theorem ofValue_toValue (surplus : Bool) (config : BackendConfig) :
    ofValue surplus config.toValue = .ok config := by
  have hkeys : ["base_url", "password", "refresh_on_write", "username"].Pairwise (· < ·) := by
    decide
  have hknown : ∀ key ∈ ["base_url", "password", "refresh_on_write", "username"],
      key ∈ layout.fields.names := by decide
  have hread : layout.read surplus config.toValue =
      .ok (config.baseUrl, config.refresh, config.username, config.password) := by
    refine (Json.Layout.read_known_iff ?_ ?_).mpr ?_
    · exact hkeys
    · exact hknown
    simp only [layout, Json.Fields.collect_cons_eq_ok_iff, Json.Fields.collect_one,
      Json.Fields.pick_eq_ok_iff]
    refine ⟨⟨_, rfl, rfl⟩, ⟨_, rfl, rfl⟩, ?_, ?_⟩
    · exact (Json.Fields.pick_of_get? rfl).trans (asOptionalString_optionalValue config.username)
    · exact (Json.Fields.pick_of_get? rfl).trans (asOptionalString_optionalValue config.password)
  rw [ofValue, hread]
  rfl

end BackendConfig

namespace Config

/-- All settings with a time to live that is cut to whole seconds. -/
def inSeconds (config : Config) : Config := {config with store := config.store.inSeconds}

variable {config : Config}

theorem inSeconds_eq_self_iff : config.inSeconds = config ↔ second ∣ config.store.ttl := by
  rw [← StoreConfig.inSeconds_eq_self_iff]
  obtain ⟨store, backend⟩ := config
  simp [inSeconds]

theorem validate_eq_ok_iff :
    config.validate = .ok () ↔ config.store.validate = .ok () ∧ config.backend.validate = .ok () := by
  unfold validate
  cases config.store.validate with
  | error e => exact ⟨nofun, nofun⟩
  | ok _ => exact ⟨fun h => ⟨rfl, h⟩, fun h => h.2⟩

theorem validate_inSeconds_iff (h : config.validate = .ok ()) :
    config.inSeconds.validate = .ok () ↔ second ≤ config.store.ttl := by
  obtain ⟨hstore, hbackend⟩ := validate_eq_ok_iff.mp h
  rw [validate_eq_ok_iff, ← StoreConfig.validate_inSeconds_iff hstore]
  exact and_iff_left hbackend

/-- All settings are read back in whole seconds. -/
theorem ofValue_toValue (surplus : Bool) (h : config.store.ttl ≤ Cache.maxTtl) :
    ofValue surplus config.toValue = .ok config.inSeconds := by
  have hkeys : ["backend", "datastore"].Pairwise (· < ·) := by decide
  have hknown : ∀ key ∈ ["backend", "datastore"], key ∈ (layout surplus).fields.names := by
    simp [layout, Json.Fields.names]
  have hread : (layout surplus).read surplus config.toValue =
      .ok (config.store.inSeconds, config.backend) := by
    refine (Json.Layout.read_known_iff ?_ ?_).mpr ?_
    · exact hkeys
    · exact hknown
    simp only [layout, Json.Fields.collect_cons_eq_ok_iff, Json.Fields.collect_one,
      Json.Fields.pick_eq_ok_iff]
    exact ⟨⟨_, rfl, StoreConfig.ofValue_toValue surplus h⟩, _, rfl,
      BackendConfig.ofValue_toValue surplus config.backend⟩
  rw [ofValue, hread]
  rfl

/-- Usable settings can be read from what they are written as, and are then the same but for
fractions of a second in their time to live: equal if it has none, and usable if it has at
least a second. Settings of a connection come back equal and usable in any case. -/
theorem read_back :
    (∀ (surplus : Bool) (config : StoreConfig), config.validate = .ok () →
      ∃ again, StoreConfig.ofValue surplus config.toValue = .ok again ∧
        again = {config with ttl := config.ttl / second * second} ∧
          (again = config ↔ second ∣ config.ttl) ∧
            (again.validate = .ok () ↔ second ≤ config.ttl)) ∧
    (∀ (surplus : Bool) (config : BackendConfig), config.validate = .ok () →
      ∃ again, BackendConfig.ofValue surplus config.toValue = .ok again ∧ again = config ∧
        again.validate = .ok ()) ∧
    (∀ (surplus : Bool) (config : Config), config.validate = .ok () →
      ∃ again, ofValue surplus config.toValue = .ok again ∧
        again.store = {config.store with ttl := config.store.ttl / second * second} ∧
          again.backend = config.backend ∧ (again = config ↔ second ∣ config.store.ttl) ∧
            (again.validate = .ok () ↔ second ≤ config.store.ttl)) := by
  refine ⟨?_, ?_, ?_⟩
  · intro surplus config hvalid
    have hread := StoreConfig.ofValue_toValue surplus (StoreConfig.validate_eq_ok_iff.mp hvalid).1.2
    exact ⟨_, hread, rfl, StoreConfig.inSeconds_eq_self_iff,
      StoreConfig.validate_inSeconds_iff hvalid⟩
  · exact fun surplus config hvalid =>
      ⟨config, BackendConfig.ofValue_toValue surplus config, rfl, hvalid⟩
  · intro surplus config hvalid
    obtain ⟨hstore, -⟩ := validate_eq_ok_iff.mp hvalid
    have hread := ofValue_toValue surplus (StoreConfig.validate_eq_ok_iff.mp hstore).1.2
    exact ⟨_, hread, rfl, rfl, inSeconds_eq_self_iff, validate_inSeconds_iff hvalid⟩

/-- A second and a half comes back as a second, with credentials around it. -/
theorem read_back_of_fraction :
    let store : StoreConfig := ⟨1500 * millisecond, false, "-records"⟩
    let backend : BackendConfig := ⟨" https://proxy.local/es/", true, some "elastic", some ""⟩
    let config : Config := ⟨store, backend⟩
    config.validate = .ok () ∧ ∃ again, ofValue true config.toValue = .ok again ∧
      again.store = ⟨second, false, "-records"⟩ ∧ again.backend = backend ∧ again ≠ config ∧
        again.validate = .ok () := by
  intro store backend config
  have hstore : store.validate = .ok () :=
    StoreConfig.validate_eq_ok_iff.mpr ⟨by decide, by decide, List.all_eq_true.mp (by decide)⟩
  have hbackend : backend.validate = .ok () := by decide
  have hvalid : config.validate = .ok () := validate_eq_ok_iff.mpr ⟨hstore, hbackend⟩
  obtain ⟨again, hread, hagain, hsame, hequal, husable⟩ := read_back.2.2 true config hvalid
  have hcut : store.ttl / second * second = second := by decide
  rw [show config.store.ttl / second * second = second from hcut] at hagain
  exact ⟨hvalid, again, hread, hagain, hsame, mt hequal.mp (by decide), husable.mpr (by decide)⟩

/-- Half a second is a time to live that can be used, but comes back as none at all. -/
theorem half_second_lost :
    let config : StoreConfig := ⟨500 * millisecond, true, "_datastore"⟩
    config.validate = .ok () ∧ ∃ again, StoreConfig.ofValue false config.toValue = .ok again ∧
      again ≠ config ∧ again.validate = .error (.invalid "cache_ttl" "0" "must be > 0") := by
  intro config
  have hvalid : config.validate = .ok () :=
    StoreConfig.validate_eq_ok_iff.mpr ⟨by decide, by decide, List.all_eq_true.mp (by decide)⟩
  have hread : StoreConfig.ofValue false config.toValue = .ok config.inSeconds :=
    StoreConfig.ofValue_toValue false (by decide)
  have hlost : ¬second ∣ config.ttl := by decide
  have hnone : config.inSeconds.ttl = 0 := by decide
  exact ⟨hvalid, _, hread, mt StoreConfig.inSeconds_eq_self_iff.mp hlost, if_pos hnone⟩

end Config

end VersionStore
