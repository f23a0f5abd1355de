import Mathlib.Data.List.Dedup
import VersionStore.Proofs.Cache.Entries

/-! Timers do not matter.

A generation is dropped by its timer or by the first operation that finds its time over,
whichever comes first. This module says that nobody can tell which it was. The plain cache
below has no timers: it remembers what was stored since it was last empty and when that
began, and forgets it all once the time is over. A live cache answers like it whatever its
timers do (`observe_eq`): they may fire late, in any order or never, and a timer that was
left behind by a clear finds a generation that is not its own and leaves it alone.

What carries the proof is that the two agree once both have looked at the time (`Tracks`).
Before, a timer may have dropped a generation that the plain cache still remembers. -/
namespace VersionStore

/-- An operation on a cache. -/
inductive CacheCall (α : Type) where
  | get (key : String)
  | store (key : String) (value : α)
  | clear
  | size
  | isEmpty
  | startedAt

inductive CacheAnswer (α : Type) where
  | done
  | found (hit : Option (Hit α))
  | size (entries : Nat)
  | isEmpty (empty : Bool)
  | startedAt (stamp : Option Int64)
  deriving DecidableEq

/-- What a cache lives through: operations, the passing of time, and its clock being put to a
time. -/
inductive CacheUse (α : Type) where
  | call (call : CacheCall α)
  | pass (amount : Nat)
  | setClock (time : Int64)

/-- How often a lookup succeeded and failed, and how many generations were opened and dropped. -/
structure Counts where
  hits : Nat := 0
  misses : Nat := 0
  opened : Nat := 0
  flushes : Nat := 0
  deriving DecidableEq

/-- What is seen of one operation: its answer, and the counts right after it. -/
abbrev Sight (α : Type) := CacheAnswer α × Counts

/-! ### The plain cache -/

/-- What was stored since a cache was last empty, the latest first. -/
structure Spell (α : Type) where
  openedAt : Nat
  stamp : Int64
  stores : List (String × α)

/-- A cache without timers. -/
structure PlainCache (α : Type) where
  ttl : Nat
  clock : Clock
  now : Nat
  spell : Option (Spell α) := none
  counts : Counts := {}

namespace PlainCache

variable {α : Type}

def stop (plain : PlainCache α) : PlainCache α :=
  match plain.spell with
  | none => plain
  | some _ =>
    {plain with
      spell := none, counts := {plain.counts with flushes := plain.counts.flushes + 1}}

/-- Ends a spell that is over: it lasts for the time to live from when it was opened. -/
def look (plain : PlainCache α) : PlainCache α :=
  match plain.spell with
  | none => plain
  | some s => if s.openedAt + plain.ttl ≤ plain.now then plain.stop else plain

/-- What was last stored under a key in this spell. Spells are numbered as they are opened. -/
def find? (key : String) (plain : PlainCache α) : Option (Hit α) :=
  plain.spell.bind fun s =>
    (s.stores.lookup key).map fun value => ⟨value, plain.counts.opened, s.stamp⟩

def count (found : Bool) (plain : PlainCache α) : PlainCache α :=
  {plain with counts :=
    if found then {plain.counts with hits := plain.counts.hits + 1}
    else {plain.counts with misses := plain.counts.misses + 1}}

/-- Stores a value, in a spell that begins now if there is none. -/
def store (key : String) (value : α) (plain : PlainCache α) : PlainCache α :=
  match plain.spell with
  | some s => {plain with spell := some {s with stores := (key, value) :: s.stores}}
  | none =>
    {plain with
      spell := some ⟨plain.now, plain.clock.read.1, [(key, value)]⟩
      clock := plain.clock.read.2
      counts := {plain.counts with opened := plain.counts.opened + 1}}

def size (plain : PlainCache α) : Nat :=
  match plain.spell with
  | none => 0
  | some s => (s.stores.map (·.1)).dedup.length

/-- An operation on a cache that has looked at the time. -/
def answer (plain : PlainCache α) : CacheCall α → CacheAnswer α × PlainCache α
  | .get key => (.found (plain.find? key), plain.count (plain.find? key).isSome)
  | .store key value => (.done, plain.store key value)
  | .clear => (.done, plain.stop)
  | .size => (.size plain.size, plain)
  | .isEmpty => (.isEmpty (plain.size == 0), plain)
  | .startedAt => (.startedAt (plain.spell.map (·.stamp)), plain)

/-- What is seen of a use, and the cache after it. A spell that is over ends before anything
else. -/
def use (plain : PlainCache α) : CacheUse α → Option (Sight α) × PlainCache α
  | .call call =>
    let (answer, after) := plain.look.answer call
    (some (answer, after.counts), after)
  | .pass amount => (none, {plain.look with now := plain.now + amount})
  | .setClock time => (none, {plain.look with clock := plain.clock.set time})

def observe (plain : PlainCache α) : List (CacheUse α) → List (Sight α)
  | [] => []
  | use :: rest => (plain.use use).1.toList ++ observe (plain.use use).2 rest

end PlainCache

/-! ### The live cache, under a schedule -/

/-- A use of a cache, or a timer that gets to run. -/
inductive CacheTurn (α : Type) where
  | use (use : CacheUse α)
  | fire (number : Nat)

def CacheTurn.use? {α : Type} : CacheTurn α → Option (CacheUse α)
  | .use u => some u
  | .fire _ => none

def Cache.counts {α : Type} (cache : Cache α) : Counts :=
  ⟨cache.hits, cache.misses, cache.opened, cache.flushes⟩

namespace LiveCache

variable {α : Type}

def call (live : LiveCache α) : CacheCall α → CacheAnswer α × LiveCache α
  | .get key => (.found (live.get key).1, (live.get key).2)
  | .store key value => (.done, live.store key value)
  | .clear => (.done, live.clear)
  | .size => (.size live.size.1, live.size.2)
  | .isEmpty => (.isEmpty (live.size.1 == 0), live.size.2)
  | .startedAt => (.startedAt live.startedAt.1, live.startedAt.2)

/-- What is seen of a use, and the cache after it. -/
def use (live : LiveCache α) : CacheUse α → Option (Sight α) × LiveCache α
  | .call call =>
    let (answer, after) := live.call call
    (some (answer, after.cache.counts), after)
  | .pass amount => (none, live.advance amount)
  | .setClock time => (none, {live with clock := live.clock.set time})

/-- What is seen of a turn, and the cache after it. -/
def turn (live : LiveCache α) : CacheTurn α → Option (Sight α) × LiveCache α
  | .use u => live.use u
  | .fire number => (none, live.fire number)

def observe (live : LiveCache α) : List (CacheTurn α) → List (Sight α)
  | [] => []
  | turn :: rest => (live.turn turn).1.toList ++ observe (live.turn turn).2 rest

def turns (live : LiveCache α) (turns : List (CacheTurn α)) : LiveCache α :=
  turns.foldl (fun live turn => (live.turn turn).2) live

end LiveCache

/-! ### Agreement -/

namespace PlainCache

variable {α : Type}

@[simp] theorem now_stop (plain : PlainCache α) : plain.stop.now = plain.now := by
  unfold stop
  split <;> rfl

@[simp] theorem clock_stop (plain : PlainCache α) : plain.stop.clock = plain.clock := by
  unfold stop
  split <;> rfl

@[simp] theorem now_look (plain : PlainCache α) : plain.look.now = plain.now := by
  unfold look
  repeat' split
  all_goals simp

@[simp] theorem clock_look (plain : PlainCache α) : plain.look.clock = plain.clock := by
  unfold look
  repeat' split
  all_goals simp

@[simp] theorem now_store (key : String) (value : α) (plain : PlainCache α) :
    (plain.store key value).now = plain.now := by
  unfold store
  split <;> rfl

theorem clock_store (key : String) (value : α) (plain : PlainCache α) :
    (plain.store key value).clock =
      if plain.spell.isNone then plain.clock.read.2 else plain.clock := by
  unfold store
  cases hs : plain.spell <;> simp

end PlainCache

namespace Table

variable {α : Type}

theorem Sorted.nodup_keys {table : Table α} (h : Sorted table) : table.keys.Nodup :=
  List.pairwise_map.mpr (h.imp fun hlt => String.ne_of_lt hlt)

/-- A table that holds what a list of pairs does has an entry for each of its keys. -/
theorem length_eq_of_lookup {table : Table α} {pairs : List (String × α)} (hsorted : Sorted table)
    (hlookup : ∀ key, table.get? key = pairs.lookup key) :
    table.length = (pairs.map (·.1)).dedup.length := by
  have hmem (key : String) : key ∈ table.keys ↔ key ∈ (pairs.map (·.1)).dedup := by
    rw [← isSome_get?_iff, hlookup, List.mem_dedup]
    simp [List.lookup_isSome_iff]
  have hperm := (List.perm_ext_iff_of_nodup hsorted.nodup_keys (List.nodup_dedup _)).mpr hmem
  simpa [keys] using hperm.length_eq

end Table

/-- A generation is the `number`th spell, and lives as long. -/
structure Generation.Holds {α : Type} (ttl number : Nat) (g : Generation α) (s : Spell α) :
    Prop where
  number : g.number = number
  startedAt : g.startedAt = s.stamp
  expiresAt : g.expiresAt = s.openedAt + ttl
  sorted : g.entries.Sorted
  get? : ∀ key, g.entries.get? key = s.stores.lookup key

/-- A cache is in the state of a plain one. -/
structure Cache.Agrees {α : Type} (cache : Cache α) (plain : PlainCache α) : Prop where
  ttl : cache.ttl = plain.ttl
  counts : cache.counts = plain.counts
  generation : Option.Rel (Generation.Holds plain.ttl plain.counts.opened) cache.generation
    plain.spell

namespace Cache

variable {α : Type} {cache : Cache α} {plain : PlainCache α}

theorem expire_of_none {now : Nat} (h : cache.generation = none) : cache.expire now = cache := by
  simp [expire, h]

/-- Ending a generation, whether its time was looked at before or not. -/
theorem clear_expire (now : Nat) (cache : Cache α) : (cache.expire now).clear = cache.clear := by
  unfold expire
  cases hg : cache.generation with
  | none => rfl
  | some g => by_cases hdue : g.expiresAt ≤ now <;> simp [hdue, clear, flush, hg]

/-- Looking at the time twice is looking at it the second time. -/
theorem expire_expire {earlier now : Nat} (h : earlier ≤ now) (cache : Cache α) :
    (cache.expire earlier).expire now = cache.expire now := by
  unfold expire
  cases hg : cache.generation with
  | none => simp [hg]
  | some g =>
    by_cases hdue : g.expiresAt ≤ earlier
    · have hnow : g.expiresAt ≤ now := Nat.le_trans hdue h
      simp [hdue, hnow, generation_flush]
    · simp [hdue, hg]

namespace Agrees

/-- The two states have the same generation, or none. -/
theorem cases (h : cache.Agrees plain) :
    (cache.generation = none ∧ plain.spell = none) ∨
      ∃ g s, cache.generation = some g ∧ plain.spell = some s ∧
        g.Holds plain.ttl plain.counts.opened s := by
  have hrel := h.generation
  generalize cache.generation = generation, plain.spell = spell at hrel
  cases hrel with
  | none => exact .inl ⟨rfl, rfl⟩
  | some hholds => exact .inr ⟨_, _, rfl, rfl, hholds⟩

theorem flush (h : cache.Agrees plain) : cache.flush.Agrees plain.stop := by
  obtain ⟨hg, hs⟩ | ⟨g, s, hg, hs, hholds⟩ := h.cases
  · simpa [Cache.flush, PlainCache.stop, hg, hs] using h
  · have hcounts := h.counts
    refine ⟨?_, ?_, ?_⟩ <;> simp only [Cache.flush, PlainCache.stop, hg, hs]
    · exact h.ttl
    · simp [← hcounts, Cache.counts]
    · exact .none

theorem expire {now : Nat} (h : cache.Agrees plain) (hnow : plain.now = now) :
    (cache.expire now).Agrees plain.look := by
  obtain ⟨hg, hs⟩ | ⟨g, s, hg, hs, hholds⟩ := h.cases
  · simpa [Cache.expire, PlainCache.look, hg, hs] using h
  · simp only [Cache.expire, PlainCache.look, hg, hs, hholds.expiresAt, hnow]
    split
    · exact h.flush
    · exact h

theorem clear (h : cache.Agrees plain) : cache.clear.Agrees plain.stop :=
  flush ⟨h.ttl, h.counts, h.generation⟩

theorem find? (h : cache.Agrees plain) (key : String) : cache.find? key = plain.find? key := by
  obtain ⟨hg, hs⟩ | ⟨g, s, hg, hs, hholds⟩ := h.cases
  · simp [Cache.find?, PlainCache.find?, hg, hs]
  · simp [Cache.find?, PlainCache.find?, hg, hs, hholds.get?, hholds.number, hholds.startedAt]

theorem size (h : cache.Agrees plain) : cache.size = plain.size := by
  obtain ⟨hg, hs⟩ | ⟨g, s, hg, hs, hholds⟩ := h.cases
  · simp [Cache.size, entries, PlainCache.size, hg, hs]
  · simpa [Cache.size, entries, PlainCache.size, hg, hs] using
      Table.length_eq_of_lookup hholds.sorted hholds.get?

theorem opens (h : cache.Agrees plain) : cache.opens = plain.spell.isNone := by
  obtain ⟨hg, hs⟩ | ⟨g, s, hg, hs, -⟩ := h.cases <;> simp [Cache.opens, hg, hs]

theorem startedAt (h : cache.Agrees plain) :
    cache.generation.map (·.startedAt) = plain.spell.map (·.stamp) := by
  obtain ⟨hg, hs⟩ | ⟨g, s, hg, hs, hholds⟩ := h.cases
  · simp [hg, hs]
  · simp [hg, hs, hholds.startedAt]

theorem store {now : Nat} {stamp : Int64} (h : cache.Agrees plain) (hnow : plain.now = now)
    (hstamp : plain.clock.now = stamp) (key : String) (value : α) :
    (cache.store now stamp key value).Agrees (plain.store key value) := by
  have hcounts := h.counts
  obtain ⟨hg, hs⟩ | ⟨g, s, hg, hs, hholds⟩ := h.cases
  · refine ⟨?_, ?_, ?_⟩ <;> simp only [Cache.store, PlainCache.store, hg, hs]
    · exact h.ttl
    · simp [← hcounts, Cache.counts]
    · refine .some ⟨?_, hstamp.symm, ?_, List.pairwise_singleton .., fun other => ?_⟩
      · simp [← hcounts, Cache.counts]
      · simp [← hnow, h.ttl]
      · by_cases hkey : other = key <;>
          simp [Table.get?, List.lookup_cons, hkey, beq_eq_false_iff_ne.mpr]
  · refine ⟨?_, ?_, ?_⟩ <;> simp only [Cache.store, PlainCache.store, hg, hs]
    · exact h.ttl
    · exact hcounts
    · refine .some ⟨hholds.number, hholds.startedAt, hholds.expiresAt,
        Table.sorted_put key value hholds.sorted, fun other => ?_⟩
      rw [Table.get?_put, List.lookup_cons, hholds.get?]
      by_cases hkey : other = key <;> simp [hkey, beq_eq_false_iff_ne.mpr]

theorem get (h : (cache.expire now).Agrees plain) (key : String) :
    (cache.get now key).1 = plain.find? key ∧
      (cache.get now key).2.Agrees (plain.count (plain.find? key).isSome) := by
  have hfind := h.find? key
  cases hfound : plain.find? key with
  | some hit =>
    have hget : cache.get now key =
        (some hit, {cache.expire now with hits := (cache.expire now).hits + 1}) := by
      simp [Cache.get, hfind, hfound]
    rw [hget]
    exact ⟨rfl, h.ttl, by simp [PlainCache.count, ← h.counts, Cache.counts], h.generation⟩
  | none =>
    have hget : cache.get now key =
        (none, {cache.expire now with misses := (cache.expire now).misses + 1}) := by
      simp [Cache.get, hfind, hfound]
    rw [hget]
    exact ⟨rfl, h.ttl, by simp [PlainCache.count, ← h.counts, Cache.counts], h.generation⟩

end Agrees

end Cache

namespace LiveCache

variable {α : Type} {live : LiveCache α}

/-! ### Timers -/

/-- A timer is never early: the timers that run are those of generations that were opened, and
that of the generation at hand is not over before the generation is. -/
structure Punctual (live : LiveCache α) : Prop where
  newest : ∀ g, live.cache.generation = some g → g.number = live.cache.opened
  opened : ∀ timer ∈ live.timers, timer.number ≤ live.cache.opened
  due : ∀ timer ∈ live.timers, ∀ g, live.cache.generation = some g → timer.number = g.number →
    g.expiresAt ≤ timer.wait.due

/-- Storing starts a timer only for a generation that it opens. -/
theorem mem_timers_put {key : String} {value : α} {timer : Timer}
    (ht : timer ∈ (live.put key value).timers) :
    timer ∈ live.timers ∨
      live.cache.generation = none ∧ timer.number = live.cache.opened + 1 ∧
        timer.wait.due = live.now + live.cache.ttl := by
  unfold LiveCache.put at ht
  by_cases hopens : live.cache.opens <;> by_cases htimed : live.timed <;>
    simp only [hopens, htimed, if_true, if_false, Bool.false_eq_true] at ht <;>
    try exact .inl ht
  have hnone : live.cache.generation = none := Option.isNone_iff_eq_none.mp hopens
  rcases List.mem_append.mp ht with ht | ht
  · exact .inl ht
  · rw [List.mem_singleton.mp ht]
    exact .inr ⟨hnone, by simp [Cache.store, hnone], rfl⟩

namespace Punctual

theorem of_recedes {later : LiveCache α} (h : live.Punctual)
    (hcache : live.cache.Recedes later.cache)
    (htimers : ∀ timer ∈ later.timers, timer ∈ live.timers) : later.Punctual where
  newest g hg := by rw [hcache.opened_eq]; exact h.newest g (hcache.generation g hg)
  opened timer ht := by rw [hcache.opened_eq]; exact h.opened timer (htimers timer ht)
  due timer ht g hg := h.due timer (htimers timer ht) g (hcache.generation g hg)

/-- A timer drops nothing but the generation that it was started for, whose time has come. -/
theorem fire_cases (h : live.Punctual) (number : Nat) :
    (live.fire number).cache = live.cache ∨
      ∃ g, live.cache.generation = some g ∧ g.number = number ∧ g.expiresAt ≤ live.now ∧
        (live.fire number).cache = live.cache.flush := by
  unfold fire
  split
  · next hany =>
    obtain ⟨timer, ht, hdue⟩ := List.any_eq_true.mp hany
    simp only [Bool.and_eq_true, beq_iff_eq, decide_eq_true_eq] at hdue
    cases hg : live.cache.generation with
    | none => exact .inl (by simp [Cache.flushNumber, hg])
    | some g =>
      by_cases hnumber : g.number = number
      · have hover := h.due timer ht g hg (hdue.1.trans hnumber.symm)
        exact .inr ⟨g, rfl, hnumber, Nat.le_trans hover hdue.2,
          by simp [Cache.flushNumber, hg, hnumber]⟩
      · exact .inl (by simp [Cache.flushNumber, hg, hnumber])
  · exact .inl rfl

theorem fire (h : live.Punctual) (number : Nat) : (live.fire number).Punctual := by
  refine h.of_recedes (recedes_fire number live) fun timer ht => ?_
  unfold LiveCache.fire at ht
  split at ht
  · exact List.mem_of_mem_filter ht
  · exact ht

/-- Whether a timer has run cannot be told once the time has been looked at. -/
theorem expire_fire (h : live.Punctual) (number : Nat) :
    (live.fire number).cache.expire live.now = live.cache.expire live.now := by
  rcases h.fire_cases number with hsame | ⟨g, hg, -, hover, hflush⟩
  · rw [hsame]
  · rw [hflush, Cache.expire_of_none (Cache.generation_flush _), Cache.expire, hg]
    simp [hover]

/-- The timer of a new generation is due when the generation is over. -/
theorem put (h : live.Punctual) (key : String) (value : α) : (live.put key value).Punctual := by
  have hcache := cache_put key value live
  have htimers (timer : Timer) (ht : timer ∈ (live.put key value).timers) := mem_timers_put ht
  cases hg : live.cache.generation with
  | some g =>
    simp only [Cache.store, hg] at hcache
    simp only [hg, reduceCtorEq, false_and, or_false] at htimers
    constructor <;> rw [hcache]
    · rintro _ ⟨⟩
      exact h.newest g hg
    · exact fun timer ht => h.opened timer (htimers timer ht)
    · rintro timer ht _ ⟨⟩ hnumber
      exact h.due timer (htimers timer ht) g hg hnumber
  | none =>
    simp only [Cache.store, hg] at hcache
    constructor <;> rw [hcache]
    · rintro _ ⟨⟩
      rfl
    · intro timer ht
      rcases htimers timer ht with ht | ⟨-, hnumber, -⟩
      · exact Nat.le_succ_of_le (h.opened timer ht)
      · exact Nat.le_of_eq hnumber
    · rintro timer ht _ ⟨⟩ hnumber
      rcases htimers timer ht with ht | ⟨-, -, hdue⟩
      · exact absurd hnumber (Nat.ne_of_lt (Nat.lt_succ_of_le (h.opened timer ht)))
      · exact Nat.le_of_eq hdue.symm

/-- An operation keeps the timers punctual. -/
theorem call (h : live.Punctual) (call : CacheCall α) : (live.call call).2.Punctual := by
  have hexpire : live.expire.Punctual :=
    h.of_recedes (Cache.recedes_expire live.now live.cache) fun _ ht => ht
  cases call with
  | get key => exact h.of_recedes (recedes_get key live) fun _ ht => ht
  | store key value => exact hexpire.put key value
  | clear => exact h.of_recedes (Cache.recedes_clear live.cache) fun _ ht => ht
  | size | isEmpty | startedAt => exact hexpire

end Punctual

/-! ### The simulation -/

/-- A live cache and a plain one that agree once both have looked at the time. -/
structure Tracks (live : LiveCache α) (plain : PlainCache α) : Prop where
  now : plain.now = live.now
  clock : plain.clock = live.clock
  punctual : live.Punctual
  agrees : (live.cache.expire live.now).Agrees plain.look

namespace Tracks

variable {plain : PlainCache α}

theorem of_agrees (hnow : plain.now = live.now) (hclock : plain.clock = live.clock)
    (hpunctual : live.Punctual) (h : live.cache.Agrees plain) : live.Tracks plain :=
  ⟨hnow, hclock, hpunctual, h.expire hnow⟩

/-- A timer that runs changes nothing that the plain cache would have to follow. -/
theorem fire (h : live.Tracks plain) (number : Nat) : (live.fire number).Tracks plain := by
  have hnow := now_fire number live
  have hclock : (live.fire number).clock = live.clock := by
    unfold LiveCache.fire
    split <;> rfl
  refine ⟨h.now.trans hnow.symm, h.clock.trans hclock.symm, h.punctual.fire number, ?_⟩
  rw [hnow, h.punctual.expire_fire]
  exact h.agrees

/-- An operation is answered alike, and leaves the two in one state. -/
theorem call (h : live.Tracks plain) (call : CacheCall α) :
    (live.call call).1 = (plain.look.answer call).1 ∧
      (live.call call).2.cache.Agrees (plain.look.answer call).2 ∧
      (live.call call).2.Tracks (plain.look.answer call).2 := by
  have hnow : plain.look.now = live.now := plain.now_look.trans h.now
  have hclock : plain.look.clock = live.clock := plain.clock_look.trans h.clock
  suffices (live.call call).1 = (plain.look.answer call).1 ∧
      (live.call call).2.cache.Agrees (plain.look.answer call).2 ∧
      (plain.look.answer call).2.now = (live.call call).2.now ∧
      (plain.look.answer call).2.clock = (live.call call).2.clock by
    obtain ⟨hanswer, hagrees, hnow, hclock⟩ := this
    exact ⟨hanswer, hagrees, .of_agrees hnow hclock (h.punctual.call call) hagrees⟩
  cases call with
  | get key =>
    obtain ⟨hfound, hagrees⟩ := h.agrees.get key
    exact ⟨congrArg CacheAnswer.found hfound, hagrees, hnow, hclock⟩
  | store key value =>
    simp only [LiveCache.call, store, cache_put, now_put, clock_put, PlainCache.answer,
      PlainCache.now_store, PlainCache.clock_store]
    refine ⟨trivial, h.agrees.store hnow (congrArg Clock.now hclock) key value, hnow, ?_⟩
    rw [← h.agrees.opens, hclock]
    rfl
  | clear =>
    have hagrees := h.agrees.clear
    rw [Cache.clear_expire] at hagrees
    exact ⟨rfl, hagrees, (PlainCache.now_stop _).trans hnow, (PlainCache.clock_stop _).trans hclock⟩
  | size => exact ⟨congrArg CacheAnswer.size h.agrees.size, h.agrees, hnow, hclock⟩
  | isEmpty =>
    exact ⟨congrArg (fun n => CacheAnswer.isEmpty (n == 0)) h.agrees.size, h.agrees, hnow, hclock⟩
  | startedAt => exact ⟨congrArg CacheAnswer.startedAt h.agrees.startedAt, h.agrees, hnow, hclock⟩

/-- Time that passes and a clock that is put are the same to both. -/
theorem of_later {later : LiveCache α} {plain' : PlainCache α} (h : live.Tracks plain)
    (hcache : later.cache = live.cache) (htimers : later.timers = live.timers)
    (hle : live.now ≤ later.now) (hnow : plain'.now = later.now)
    (hclock : plain'.clock = later.clock) (hagrees : (live.cache.expire live.now).Agrees plain') :
    later.Tracks plain' := by
  refine ⟨hnow, hclock, ?_, ?_⟩
  · exact h.punctual.of_recedes (hcache ▸ .refl _) fun timer ht => htimers ▸ ht
  · have hlater := hagrees.expire hnow
    rw [Cache.expire_expire hle] at hlater
    rw [hcache]
    exact hlater

/-- A use looks alike, and leaves the two in step. -/
theorem use (h : live.Tracks plain) (u : CacheUse α) :
    (live.use u).1 = (plain.use u).1 ∧ (live.use u).2.Tracks (plain.use u).2 := by
  obtain ⟨httl, hcounts, hg⟩ := h.agrees
  cases u with
  | call call =>
    obtain ⟨hanswer, hagrees, htracks⟩ := h.call call
    refine ⟨?_, htracks⟩
    simp only [LiveCache.use, PlainCache.use, hanswer, hagrees.counts]
  | pass amount =>
    have hpassed : (live.advance amount).now = live.now + amount :=
      Nat.max_eq_right (Nat.le_add_right ..)
    refine ⟨rfl, h.of_later rfl rfl ?_ ?_ (plain.clock_look.trans h.clock) ⟨httl, hcounts, hg⟩⟩
    · exact hpassed ▸ Nat.le_add_right ..
    · exact (congrArg (· + amount) h.now).trans hpassed.symm
  | setClock time =>
    refine ⟨rfl, h.of_later rfl rfl (Nat.le_refl _) (plain.now_look.trans h.now) ?_
      ⟨httl, hcounts, hg⟩⟩
    exact congrArg (·.set time) h.clock

/-- A run looks alike under every schedule. -/
theorem observe (h : live.Tracks plain) (turns : List (CacheTurn α)) :
    live.observe turns = plain.observe (turns.filterMap CacheTurn.use?) := by
  induction turns generalizing live plain with
  | nil => rfl
  | cons turn rest ih =>
    cases turn with
    | use u =>
      obtain ⟨hsight, htracks⟩ := h.use u
      simp [LiveCache.observe, PlainCache.observe, LiveCache.turn, CacheTurn.use?, hsight,
        ih htracks]
    | fire number => exact ih (h.fire number)

end Tracks

/-- Whatever has happened, the timers are punctual. -/
theorem Punctual.turns (h : live.Punctual) (turns : List (CacheTurn α)) :
    (live.turns turns).Punctual := by
  induction turns generalizing live with
  | nil => exact h
  | cons turn rest ih =>
    cases turn with
    | use u =>
      cases u with
      | call call => exact ih (h.call call)
      | pass amount => exact ih (h.of_recedes (.refl _) fun _ ht => ht)
      | setClock time => exact ih (h.of_recedes (.refl _) fun _ ht => ht)
    | fire number => exact ih (h.fire number)

/-- **A new cache is the plain cache, whatever its timers do.** Under every schedule of timers,
or where none can be started, the operations return what they do on the plain cache and the
counts right after each are the same. A timer drops nothing but the generation that it was
started for, and that not before its time. -/
theorem observe_eq (ttl : Nat) (clock : Clock) (time : Time) (timed : Bool)
    (turns : List (CacheTurn α)) (number : Nat) :
    let live : LiveCache α := {cache := .make ttl, clock := clock, time := time, timed := timed}
    let plain : PlainCache α := {ttl := min ttl Cache.maxTtl, clock := clock, now := time.now}
    let later := live.turns turns
    live.observe turns = plain.observe (turns.filterMap CacheTurn.use?) ∧
      ((later.fire number).cache = later.cache ∨
        ∃ g, later.cache.generation = some g ∧ g.number = number ∧ g.expiresAt ≤ later.now ∧
          (later.fire number).cache = later.cache.flush) := by
  intro live plain later
  have hpunctual : live.Punctual := ⟨nofun, nofun, nofun⟩
  have htracks : live.Tracks plain := .of_agrees rfl rfl hpunctual ⟨rfl, rfl, .none⟩
  exact ⟨htracks.observe turns, (hpunctual.turns turns).fire_cases number⟩

end LiveCache

end VersionStore
