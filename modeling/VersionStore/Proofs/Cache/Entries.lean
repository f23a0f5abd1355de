import VersionStore.Proofs.Cache.Epoch

/-! What a cache holds.

Nothing gets into a cache but by storing: every other operation leaves the generation as it
is or drops it (`Recedes`), and storing adds one entry. A clear leaves none. -/
namespace VersionStore

namespace Cache

variable {α : Type}

/-- What a cache holds under a key, whether its time has come or not. -/
def held? (cache : Cache α) (key : String) : Option α := cache.entries.get? key

/-- A later state of a cache in which nothing was stored: its generation, if it has one, is that
of before, and it has none if the epoch has moved. -/
structure Recedes (a b : Cache α) : Prop where
  epoch_le : a.epoch ≤ b.epoch
  emptied : b.epoch = a.epoch ∨ b.generation = none
  ttl_eq : b.ttl = a.ttl
  opened_eq : b.opened = a.opened
  generation : ∀ g, b.generation = some g → a.generation = some g

namespace Recedes

theorem refl (cache : Cache α) : Recedes cache cache :=
  ⟨Nat.le_refl _, .inl rfl, rfl, rfl, fun _ h => h⟩

/-- It stays empty. -/
theorem generation_eq_none {a b : Cache α} (h : Recedes a b) (hnone : a.generation = none) :
    b.generation = none :=
  Option.eq_none_iff_forall_ne_some.mpr fun g hg => by
    rw [h.generation g hg] at hnone
    cases hnone

/-- It holds nothing new. -/
theorem held {a b : Cache α} (h : Recedes a b) (key : String) (value : α)
    (hheld : b.held? key = some value) : a.held? key = some value := by
  unfold held? entries at hheld ⊢
  cases hg : b.generation with
  | none => simp [hg] at hheld
  | some g =>
    rw [hg] at hheld
    rw [h.generation g hg]
    exact hheld

end Recedes

@[simp] theorem held?_make (ttl : Nat) (key : String) : (make ttl : Cache α).held? key = none := rfl

theorem generation_flush (cache : Cache α) : cache.flush.generation = none := by
  unfold flush
  split
  · assumption
  · rfl

theorem opened_flush (cache : Cache α) : cache.flush.opened = cache.opened := by
  unfold flush
  split <;> rfl

theorem ttl_flush (cache : Cache α) : cache.flush.ttl = cache.ttl := by
  unfold flush
  split <;> rfl

@[simp] theorem held?_flush (cache : Cache α) (key : String) : cache.flush.held? key = none := by
  simp [held?, entries, generation_flush]

@[simp] theorem held?_clear (cache : Cache α) (key : String) : cache.clear.held? key = none :=
  held?_flush _ key

theorem recedes_flush (cache : Cache α) : Recedes cache cache.flush :=
  ⟨(passed_flush cache).epoch_le, .inr (generation_flush cache), ttl_flush cache,
    opened_flush cache, fun g h => by simp [generation_flush] at h⟩

theorem recedes_clear (cache : Cache α) : Recedes cache cache.clear :=
  ⟨(passed_clear cache).epoch_le, .inr (generation_flush _), ttl_flush _, opened_flush _,
    fun g h => by simp [clear, generation_flush] at h⟩

/-- A clear always moves the epoch on. -/
theorem epoch_lt_clear (cache : Cache α) : cache.epoch < cache.clear.epoch :=
  (passed_clear cache).epoch_lt_iff.mpr (.inl Nat.zero_lt_one)

theorem recedes_flushNumber (number : Nat) (cache : Cache α) :
    Recedes cache (cache.flushNumber number) := by
  rcases flushNumber_cases number cache with h | h <;> rw [h]
  · exact .refl cache
  · exact recedes_flush cache

theorem recedes_expire (now : Nat) (cache : Cache α) : Recedes cache (cache.expire now) := by
  rcases expire_cases now cache with h | h <;> rw [h]
  · exact .refl cache
  · exact recedes_flush cache

theorem recedes_get (now : Nat) (key : String) (cache : Cache α) :
    Recedes cache (cache.get now key).2 := by
  obtain ⟨hle, hemptied, httl, hopened, hg⟩ := recedes_expire now cache
  cases hfind : (cache.expire now).find? key <;> simp only [get, hfind] <;>
    exact ⟨hle, hemptied, httl, hopened, hg⟩

/-- To look at the time drops a generation whose time has come, and no other. -/
theorem generation_expire_cases (now : Nat) (cache : Cache α) :
    (cache.expire now).generation = cache.generation ∨
      cache.isOverdue now = true ∧ (cache.expire now).generation = none := by
  unfold expire isOverdue
  cases hg : cache.generation with
  | none => exact .inl hg
  | some g =>
    by_cases hover : g.expiresAt ≤ now
    · simp only [hover, if_true]
      exact .inr ⟨by simp [hover], generation_flush cache⟩
    · simp only [hover, if_false]
      exact .inl hg

theorem generation_get (now : Nat) (key : String) (cache : Cache α) :
    (cache.get now key).2.generation = (cache.expire now).generation := by
  cases hfind : (cache.expire now).find? key <;> simp only [get, hfind]

/-- What is left once the time has been looked at is not over. -/
theorem lt_of_expire {now : Nat} {cache : Cache α} {g : Generation α}
    (h : (cache.expire now).generation = some g) :
    cache.generation = some g ∧ now < g.expiresAt := by
  have hg := (recedes_expire now cache).generation g h
  refine ⟨hg, Nat.lt_of_not_le fun hover => ?_⟩
  simp [expire, hg, hover, generation_flush] at h

/-- What a lookup finds is in the generation at hand, whose time has not come. -/
theorem exists_of_get {now : Nat} {key : String} {cache : Cache α} {hit : Hit α}
    (h : (cache.get now key).1 = some hit) :
    ∃ g, cache.generation = some g ∧ now < g.expiresAt ∧ g.entries.get? key = some hit.value := by
  have hfind : (cache.expire now).find? key = some hit := by
    cases hfind : (cache.expire now).find? key <;> simp [get, hfind] at h
    rw [h]
  unfold find? at hfind
  cases hg : (cache.expire now).generation with
  | none => simp [hg] at hfind
  | some g =>
    simp only [hg, Option.bind_some, Option.map_eq_some_iff] at hfind
    obtain ⟨value, hvalue, rfl⟩ := hfind
    obtain ⟨hg, hlt⟩ := lt_of_expire hg
    exact ⟨g, hg, hlt, hvalue⟩

/-- What a lookup finds is held. -/
theorem held?_of_get {now : Nat} {key : String} {cache : Cache α} {hit : Hit α}
    (h : (cache.get now key).1 = some hit) : cache.held? key = some hit.value := by
  obtain ⟨g, hg, -, hvalue⟩ := exists_of_get h
  simp [held?, entries, hg, hvalue]

theorem held?_store (now : Nat) (stamp : Int64) (key other : String) (value : α)
    (cache : Cache α) : (cache.store now stamp key value).held? other =
      if other = key then some value else cache.held? other := by
  unfold store
  cases hg : cache.generation with
  | none =>
    simp only [held?, entries, hg]
    rfl
  | some g =>
    simp only [held?, entries, hg]
    exact Table.get?_put key other value g.entries

end Cache

namespace LiveCache

variable {α : Type}

theorem recedes_get (key : String) (live : LiveCache α) :
    Cache.Recedes live.cache (live.get key).2.cache :=
  Cache.recedes_get live.now key live.cache

theorem recedes_fire (number : Nat) (live : LiveCache α) :
    Cache.Recedes live.cache (live.fire number).cache := by
  unfold fire
  split
  · exact Cache.recedes_flushNumber number live.cache
  · exact .refl _

/-- Storing at an epoch adds at most the one entry, and that only at the epoch of the cache. -/
theorem held?_storeUnless {key other : String} {value found : α} {epoch : Nat}
    {live : LiveCache α}
    (h : (live.storeUnless key value epoch).2.cache.held? other = some found) :
    (other = key ∧ found = value ∧ epoch = live.cache.epoch) ∨
      live.cache.held? other = some found := by
  unfold storeUnless at h
  split at h
  · next hepoch =>
    rw [store, cache_put, Cache.held?_store] at h
    split at h
    · next hkey => exact .inl ⟨hkey, (Option.some.inj h).symm, hepoch⟩
    · exact .inr ((Cache.recedes_expire live.now live.cache).held _ _ h)
  · exact .inr h

end LiveCache

end VersionStore
