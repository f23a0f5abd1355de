import VersionStore.Proofs.Cache.Schedule

/-! What the counts of a cache say.

A cache keeps its counts in several places. A flush counts itself and moves the epoch on, a
clear moves it on whether there is anything to flush or not, storing numbers the generation
that it opens, and a lookup counts as a hit or as a miss. Whatever is done to a cache, in
any order and with any timers, the counts stay in step (`counts_in_step`): they tell how
many clears and lookups there were, and of the generations that were opened all have been
flushed but the one at hand, which holds something (`Balanced`).

The numbers that timers and reads go by rest on this. A timer knows its generation by the
number, so no two generations may have one number; a read knows by the epoch that nothing
was dropped, so the epoch may never come back to where it was. -/
namespace VersionStore

/-- What can be done to a cache: what a schedule can do, storing at an epoch, and a look at the
counts or the epoch. -/
inductive CacheMove (α : Type) where
  | turn (turn : CacheTurn α)
  | storeUnless (key : String) (value : α) (epoch : Nat)
  | inspect

namespace CacheMove

variable {α : Type}

def isClear : CacheMove α → Bool
  | .turn (.use (.call .clear)) => true
  | _ => false

def isLookup : CacheMove α → Bool
  | .turn (.use (.call (.get _))) => true
  | _ => false

end CacheMove

namespace LiveCache

variable {α : Type}

def move (live : LiveCache α) : CacheMove α → LiveCache α
  | .turn turn => (live.turn turn).2
  | .storeUnless key value epoch => (live.storeUnless key value epoch).2
  | .inspect => live

def moves (live : LiveCache α) : List (CacheMove α) → LiveCache α
  | [] => live
  | move :: rest => moves (live.move move) rest

end LiveCache

/-! ### The epoch -/

namespace LiveCache

variable {α : Type}

theorem passed_move (live : LiveCache α) (move : CacheMove α) :
    Cache.Passed (if move.isClear then 1 else 0) live.cache (live.move move).cache := by
  cases move with
  | turn turn =>
    cases turn with
    | use u =>
      cases u with
      | call call =>
        cases call with
        | get key => exact Cache.passed_get live.now key live.cache
        | store key value => exact passed_store key value live
        | clear => exact Cache.passed_clear live.cache
        | size | isEmpty | startedAt => exact Cache.passed_expire live.now live.cache
      | pass amount | setClock time => exact .refl _
    | fire number => exact passed_fire number live
  | storeUnless key value epoch => exact passed_storeUnless key value epoch live
  | inspect => exact .refl _

theorem passed_moves (live : LiveCache α) (moves : List (CacheMove α)) :
    Cache.Passed (moves.countP CacheMove.isClear) live.cache (live.moves moves).cache := by
  induction moves generalizing live with
  | nil => exact .refl _
  | cons move rest ih =>
    have h := (passed_move live move).trans (ih (live.move move))
    rw [List.countP_cons, Nat.add_comm]
    exact h

end LiveCache

/-! ### The generation at hand -/

namespace Cache

variable {α : Type}

/-- What the counts of a cache say after so many lookups: of the generations that were opened all
were flushed but the one at hand, which is the latest and holds something. -/
structure Balanced (lookups : Nat) (cache : Cache α) : Prop where
  opened_eq : cache.opened = cache.flushes + if cache.generation.isSome then 1 else 0
  newest : ∀ g, cache.generation = some g → g.number = cache.opened
  filled : ∀ g, cache.generation = some g → g.entries ≠ []
  lookups_eq : cache.hits + cache.misses = lookups

namespace Balanced

variable {cache : Cache α} {lookups : Nat}

theorem make (ttl : Nat) : (Cache.make ttl : Cache α).Balanced 0 := ⟨rfl, nofun, nofun, rfl⟩

theorem flushes_le (h : cache.Balanced lookups) : cache.flushes ≤ cache.opened := by
  rw [h.opened_eq]
  exact Nat.le_add_right _ _

theorem opened_le (h : cache.Balanced lookups) : cache.opened ≤ cache.flushes + 1 := by
  rw [h.opened_eq]
  split <;> omega

theorem isSome_iff (h : cache.Balanced lookups) :
    cache.generation.isSome = true ↔ cache.opened = cache.flushes + 1 := by
  rw [h.opened_eq]
  cases cache.generation <;> simp

/-- There is nothing in a cache only if there is no generation. -/
theorem size_beq_zero (h : cache.Balanced lookups) : (cache.size == 0) = cache.generation.isNone := by
  unfold size entries
  cases hg : cache.generation with
  | none => rfl
  | some g =>
    have hlength : g.entries.length ≠ 0 := mt List.length_eq_zero_iff.mp (h.filled g hg)
    exact beq_eq_false_iff_ne.mpr hlength

theorem flush (h : cache.Balanced lookups) : cache.flush.Balanced lookups := by
  unfold Cache.flush
  split
  · exact h
  · next g hg =>
    have hopened := h.opened_eq
    rw [hg] at hopened
    exact ⟨hopened, nofun, nofun, h.lookups_eq⟩

theorem flushNumber (h : cache.Balanced lookups) (number : Nat) :
    (cache.flushNumber number).Balanced lookups := by
  rcases flushNumber_cases number cache with hsame | hflush
  · rwa [hsame]
  · rw [hflush]
    exact h.flush

theorem expire (h : cache.Balanced lookups) (now : Nat) :
    (cache.expire now).Balanced lookups := by
  rcases expire_cases now cache with hsame | hflush
  · rwa [hsame]
  · rw [hflush]
    exact h.flush

theorem clear (h : cache.Balanced lookups) : cache.clear.Balanced lookups := by
  have hbump : {cache with epoch := cache.epoch + 1}.Balanced lookups :=
    ⟨h.opened_eq, h.newest, h.filled, h.lookups_eq⟩
  exact hbump.flush

theorem get (h : cache.Balanced lookups) (now : Nat) (key : String) :
    (cache.get now key).2.Balanced (lookups + 1) := by
  obtain ⟨hopened, hnewest, hfilled, hlookups⟩ := h.expire now
  cases hfind : (cache.expire now).find? key <;> simp only [Cache.get, hfind] <;>
    exact ⟨hopened, hnewest, hfilled, by dsimp only; omega⟩

/-- Storing fills the generation at hand, or opens the next one with its first entry. -/
theorem store (h : cache.Balanced lookups) (now : Nat) (stamp : Int64) (key : String) (value : α) :
    (cache.store now stamp key value).Balanced lookups := by
  have hopened := h.opened_eq
  unfold Cache.store
  split
  · next g hg =>
    rw [hg] at hopened
    refine ⟨hopened, ?_, ?_, h.lookups_eq⟩
    · rintro _ ⟨⟩
      exact h.newest g hg
    · rintro _ ⟨⟩
      exact Table.put_ne_nil key value g.entries
  · next hg =>
    rw [hg] at hopened
    refine ⟨congrArg (· + 1) hopened, ?_, ?_, h.lookups_eq⟩
    · rintro _ ⟨⟩
      rfl
    · rintro _ ⟨⟩
      exact List.cons_ne_nil _ _

end Balanced

end Cache

namespace LiveCache

variable {α : Type} {live : LiveCache α} {lookups : Nat}

theorem balanced_store (h : live.cache.Balanced lookups) (key : String) (value : α) :
    (live.store key value).cache.Balanced lookups := by
  rw [store, cache_put]
  exact (h.expire live.now).store _ _ key value

theorem balanced_storeUnless (h : live.cache.Balanced lookups) (key : String) (value : α)
    (epoch : Nat) : (live.storeUnless key value epoch).2.cache.Balanced lookups := by
  unfold storeUnless
  split
  · exact balanced_store h key value
  · exact h

theorem balanced_fire (h : live.cache.Balanced lookups) (number : Nat) :
    (live.fire number).cache.Balanced lookups := by
  unfold fire
  split
  · exact h.flushNumber number
  · exact h

theorem balanced_move (h : live.cache.Balanced lookups) (move : CacheMove α) :
    (live.move move).cache.Balanced (lookups + if move.isLookup then 1 else 0) := by
  cases move with
  | turn turn =>
    cases turn with
    | use u =>
      cases u with
      | call call =>
        cases call with
        | get key => exact h.get live.now key
        | store key value => exact balanced_store h key value
        | clear => exact h.clear
        | size | isEmpty | startedAt => exact h.expire live.now
      | pass amount | setClock time => exact h
    | fire number => exact balanced_fire h number
  | storeUnless key value epoch => exact balanced_storeUnless h key value epoch
  | inspect => exact h

theorem balanced_moves (h : live.cache.Balanced lookups) (moves : List (CacheMove α)) :
    (live.moves moves).cache.Balanced (lookups + moves.countP CacheMove.isLookup) := by
  induction moves generalizing live lookups with
  | nil => exact h
  | cons move rest ih =>
    have hrest := ih (balanced_move h move)
    rw [Nat.add_assoc, Nat.add_comm (ite ..)] at hrest
    rw [List.countP_cons]
    exact hrest

/-- **The counts of a cache are in step.** After any run of moves on a new cache the generations
that were flushed are all that were opened, or all but one, and there is a generation at hand
in the latter case only: it has the latest number, and holds something, so that a cache that
says it is empty has none. The epoch counts flushes and clears, and grows with each of them and
with nothing else; hits and misses count lookups. Storing that is refused leaves everything as
it was. -/
theorem counts_in_step (ttl : Nat) (clock : Clock) (time : Time) (timed : Bool)
    (moves : List (CacheMove α)) :
    let live : LiveCache α := {cache := .make ttl, clock := clock, time := time, timed := timed}
    let later := live.moves moves
    let cache := later.cache
    (cache.flushes ≤ cache.opened ∧ cache.opened ≤ cache.flushes + 1) ∧
    (cache.generation.isSome = true ↔ cache.opened = cache.flushes + 1) ∧
    (∀ g, cache.generation = some g → g.number = cache.opened ∧ g.entries ≠ []) ∧
    (later.call .isEmpty).1 = .isEmpty (later.call .isEmpty).2.cache.generation.isNone ∧
    cache.epoch = cache.flushes + moves.countP CacheMove.isClear ∧
    (∀ move, cache.epoch ≤ (later.move move).cache.epoch ∧
      (cache.epoch < (later.move move).cache.epoch ↔
        move.isClear = true ∨ cache.flushes < (later.move move).cache.flushes)) ∧
    cache.hits + cache.misses = moves.countP CacheMove.isLookup ∧
    ∀ key value epoch, (later.storeUnless key value epoch).1 = false →
      (later.storeUnless key value epoch).2 = later := by
  intro live later cache
  have hbalanced : cache.Balanced (0 + moves.countP CacheMove.isLookup) :=
    balanced_moves (.make ttl) moves
  have hpassed : Cache.Passed (moves.countP CacheMove.isClear) (.make ttl) cache :=
    passed_moves live moves
  have hepoch : cache.epoch + 0 = 0 + cache.flushes + moves.countP CacheMove.isClear :=
    hpassed.epoch_eq
  refine ⟨⟨hbalanced.flushes_le, hbalanced.opened_le⟩, hbalanced.isSome_iff,
    fun g hg => ⟨hbalanced.newest g hg, hbalanced.filled g hg⟩, ?_, by omega, fun move => ?_,
    hbalanced.lookups_eq.trans (Nat.zero_add _), fun key value epoch hrefused => ?_⟩
  -- the answer is about the cache that has looked at the time, and that is balanced too
  · exact congrArg CacheAnswer.isEmpty (hbalanced.expire later.now).size_beq_zero
  · have hmove := passed_move later move
    refine ⟨hmove.epoch_le, ?_⟩
    rw [hmove.epoch_lt_iff]
    cases move.isClear <;> simp [cache]
  · unfold storeUnless at hrefused ⊢
    split at hrefused
    · cases hrefused
    · next hepoch => rw [if_neg hepoch]

end LiveCache

end VersionStore
