import VersionStore.Cache.Live

/-! The epoch of a cache.

The epoch counts drops: it grows by one with each flush and by one more with each clear
(`Passed`). So a value is refused at an epoch exactly when something was dropped since the
epoch was noted, whichever of the three ways it was dropped in: by the timer of its
generation, by an operation that noticed that its time had come, or by a clear.

There is one drop that comes too late to be noticed. Storing at an epoch compares epochs
first and drops an overdue generation only afterwards, so a value that was fetched before
that last drop is kept behind it. `stored_since_epoch` says that this is the only one. -/
namespace VersionStore

/-- Whether an event ends the generation at hand whatever its time. -/
def CacheEvent.isClear {α : Type} : CacheEvent α → Bool
  | .clear => true
  | _ => false

namespace Cache

variable {α : Type}

/-- Whether there is a generation whose time has come. -/
def isOverdue (now : Nat) (cache : Cache α) : Bool :=
  cache.generation.any fun g => decide (g.expiresAt ≤ now)

/-- From one state of a cache to a later one, the epoch has grown by one for each flush and for
each of `clears` clears. -/
structure Passed (clears : Nat) (a b : Cache α) : Prop where
  flushes_le : a.flushes ≤ b.flushes
  epoch_eq : b.epoch + a.flushes = a.epoch + b.flushes + clears

namespace Passed

theorem refl (cache : Cache α) : Passed 0 cache cache := ⟨Nat.le_refl _, rfl⟩

theorem trans {m n : Nat} {a b c : Cache α} (hab : Passed m a b) (hbc : Passed n b c) :
    Passed (m + n) a c := by
  obtain ⟨hle, he⟩ := hab
  obtain ⟨hle', he'⟩ := hbc
  exact ⟨Nat.le_trans hle hle', by omega⟩

/-- The epoch is the same again only if nothing was dropped. -/
theorem epoch_eq_iff {clears : Nat} {a b : Cache α} (h : Passed clears a b) :
    a.epoch = b.epoch ↔ clears = 0 ∧ b.flushes = a.flushes := by
  obtain ⟨hle, he⟩ := h
  omega

/-- The epoch grows exactly if something was dropped, or a clear found nothing to drop. -/
theorem epoch_lt_iff {clears : Nat} {a b : Cache α} (h : Passed clears a b) :
    a.epoch < b.epoch ↔ 0 < clears ∨ a.flushes < b.flushes := by
  obtain ⟨hle, he⟩ := h
  omega

theorem epoch_le {clears : Nat} {a b : Cache α} (h : Passed clears a b) : a.epoch ≤ b.epoch := by
  obtain ⟨hle, he⟩ := h
  omega

end Passed

/-! ### What each operation does to the epoch -/

theorem passed_flush (cache : Cache α) : Passed 0 cache cache.flush := by
  unfold flush
  split
  · exact .refl cache
  · exact ⟨Nat.le_succ _, by dsimp only; omega⟩

/-- The timer of a generation flushes, or does nothing. -/
theorem flushNumber_cases (number : Nat) (cache : Cache α) :
    cache.flushNumber number = cache ∨ cache.flushNumber number = cache.flush := by
  unfold flushNumber
  split
  · exact .inl rfl
  · split
    · exact .inr rfl
    · exact .inl rfl

/-- A look at the time flushes, or does nothing. -/
theorem expire_cases (now : Nat) (cache : Cache α) :
    cache.expire now = cache ∨ cache.expire now = cache.flush := by
  unfold expire
  split
  · exact .inl rfl
  · split
    · exact .inr rfl
    · exact .inl rfl

theorem passed_flushNumber (number : Nat) (cache : Cache α) :
    Passed 0 cache (cache.flushNumber number) := by
  rcases flushNumber_cases number cache with h | h <;> rw [h]
  · exact .refl cache
  · exact passed_flush cache

theorem passed_expire (now : Nat) (cache : Cache α) : Passed 0 cache (cache.expire now) := by
  rcases expire_cases now cache with h | h <;> rw [h]
  · exact .refl cache
  · exact passed_flush cache

theorem passed_clear (cache : Cache α) : Passed 1 cache cache.clear := by
  have hbump : Passed 1 cache {cache with epoch := cache.epoch + 1} :=
    ⟨Nat.le_refl _, by dsimp only; omega⟩
  exact hbump.trans (passed_flush _)

theorem passed_get (now : Nat) (key : String) (cache : Cache α) :
    Passed 0 cache (cache.get now key).2 := by
  obtain ⟨hle, he⟩ := passed_expire now cache
  cases hfind : (cache.expire now).find? key <;> simp only [get, hfind] <;> exact ⟨hle, he⟩

theorem passed_store (now : Nat) (stamp : Int64) (key : String) (value : α) (cache : Cache α) :
    Passed 0 cache (cache.store now stamp key value) := by
  unfold store
  split <;> exact ⟨Nat.le_refl _, rfl⟩

/-- Noticing that the time of a generation has come counts one flush, if it has. -/
theorem flushes_expire (now : Nat) (cache : Cache α) :
    (cache.expire now).flushes = cache.flushes + if cache.isOverdue now then 1 else 0 := by
  unfold expire isOverdue
  cases hg : cache.generation with
  | none => simp
  | some g => by_cases hdue : g.expiresAt ≤ now <;> simp [hdue, flush, hg]

theorem flushes_store (now : Nat) (stamp : Int64) (key : String) (value : α) (cache : Cache α) :
    (cache.store now stamp key value).flushes = cache.flushes := by
  unfold store
  split <;> rfl

end Cache

namespace LiveCache

variable {α : Type}

theorem passed_put (key : String) (value : α) (live : LiveCache α) :
    Cache.Passed 0 live.cache (live.put key value).cache := by
  rw [cache_put]
  exact Cache.passed_store ..

theorem passed_store (key : String) (value : α) (live : LiveCache α) :
    Cache.Passed 0 live.cache (live.store key value).cache :=
  (Cache.passed_expire live.now live.cache).trans (passed_put key value live.expire)

theorem passed_storeUnless (key : String) (value : α) (epoch : Nat) (live : LiveCache α) :
    Cache.Passed 0 live.cache (live.storeUnless key value epoch).2.cache := by
  unfold storeUnless
  split
  · exact passed_store key value live
  · exact .refl _

theorem passed_fire (number : Nat) (live : LiveCache α) :
    Cache.Passed 0 live.cache (live.fire number).cache := by
  unfold fire
  split
  · exact Cache.passed_flushNumber number live.cache
  · exact .refl _

theorem passed_step (live : LiveCache α) (event : CacheEvent α) :
    Cache.Passed (if event.isClear then 1 else 0) live.cache (live.step event).cache := by
  cases event with
  | get key => exact Cache.passed_get live.now key live.cache
  | store key value => exact passed_store key value live
  | storeUnless key value epoch => exact passed_storeUnless key value epoch live
  | clear => exact Cache.passed_clear live.cache
  | expire => exact Cache.passed_expire live.now live.cache
  | advance amount => exact .refl _
  | fire number => exact passed_fire number live

theorem passed_run (live : LiveCache α) (events : List (CacheEvent α)) :
    Cache.Passed (events.countP CacheEvent.isClear) live.cache (live.run events).cache := by
  induction events generalizing live with
  | nil => exact .refl _
  | cons event rest ih =>
    have h := (passed_step live event).trans (ih (live.step event))
    rw [List.countP_cons, Nat.add_comm]
    exact h

/-- Storing counts no flush of its own, only that of a generation which was overdue. -/
theorem flushes_store (key : String) (value : α) (live : LiveCache α) :
    (live.store key value).cache.flushes =
      live.cache.flushes + if live.cache.isOverdue live.now then 1 else 0 := by
  rw [store, cache_put, Cache.flushes_store]
  exact Cache.flushes_expire live.now live.cache

theorem storeUnless_eq_true_iff (key : String) (value : α) (epoch : Nat) (live : LiveCache α) :
    (live.storeUnless key value epoch).1 = true ↔ epoch = live.cache.epoch := by
  unfold storeUnless
  split <;> simp_all

/-- **Storing at an epoch.** After any run of events, a value is stored at the epoch that was
noted before the run exactly if the run made no clear and flushed no generation. When it is
stored, the count of flushes is still that of then, unless a generation was overdue that
nothing had noticed: then storing flushes it, and keeps the value all the same. -/
theorem stored_since_epoch (live : LiveCache α) (events : List (CacheEvent α)) (key : String)
    (value : α) :
    let later := live.run events
    let (stored, after) := later.storeUnless key value live.cache.epoch
    (stored = true ↔
      (∀ event ∈ events, event.isClear = false) ∧ later.cache.flushes = live.cache.flushes) ∧
    (stored = true →
      (after.cache.flushes = live.cache.flushes ↔ later.cache.isOverdue later.now = false)) := by
  intro later
  have hstored : (later.storeUnless key value live.cache.epoch).1 = true ↔
      (∀ event ∈ events, event.isClear = false) ∧ later.cache.flushes = live.cache.flushes := by
    rw [storeUnless_eq_true_iff, (passed_run live events).epoch_eq_iff, List.countP_eq_zero]
    simp [later]
  refine ⟨hstored, fun h => ?_⟩
  have hsame := (hstored.mp h).2
  have hepoch := (storeUnless_eq_true_iff key value live.cache.epoch later).mp h
  have hafter : (later.storeUnless key value live.cache.epoch).2 = later.store key value := by
    rw [storeUnless, if_pos hepoch]
  show (later.storeUnless key value live.cache.epoch).2.cache.flushes = live.cache.flushes ↔ _
  rw [hafter, flushes_store, hsame]
  cases later.cache.isOverdue later.now <;> simp

/-- A value that was fetched in one generation is kept in the next: the epoch is noted, the
generation runs out while nothing looks, and the value is stored at the epoch of before. -/
theorem stored_behind_flush :
    let live : LiveCache Nat := ({cache := .make 10, clock := ⟨0, 0⟩} : LiveCache Nat).store "a" 1
    let later := live.run [.advance 10]
    let (stored, after) := later.storeUnless "b" 2 live.cache.epoch
    stored = true ∧ live.cache.flushes = 0 ∧ after.cache.flushes = 1 ∧
      after.cache.entries = [("b", 2)] := by
  decide

end LiveCache

end VersionStore
