import VersionStore.Cache
import VersionStore.Clock

/-! A cache that lives in time.

Whoever uses a cache at a moment has a clock to stamp generations with and, where
background work is possible, a timer for each generation, over when the generation's time
has come. Timers only make a drop happen earlier that the next operation would make
anyhow; a run may fire them late, in any order, or never. -/
namespace VersionStore

/-- The timer of a generation. -/
structure Timer where
  wait : Wait
  number : Nat
  deriving DecidableEq

/-- A cache with the clock it stamps with, the present, and the timers that are running. -/
structure LiveCache (α : Type) where
  cache : Cache α
  clock : Clock
  time : Time := {}
  timers : List Timer := []
  /-- Whether timers can be started at all. -/
  timed : Bool := true
  deriving DecidableEq

/-- What can happen to a live cache. `storeUnless` carries an epoch and stores nothing at
another; `advance` lets time pass; `fire` is the timer of a generation. -/
inductive CacheEvent (α : Type) where
  | get (key : String)
  | store (key : String) (value : α)
  | storeUnless (key : String) (value : α) (epoch : Nat)
  | clear
  | expire
  | advance (amount : Nat)
  | fire (number : Nat)

namespace LiveCache

variable {α : Type}

def now (live : LiveCache α) : Nat := live.time.now

def get (key : String) (live : LiveCache α) : Option (Hit α) × LiveCache α :=
  let (hit, cache) := live.cache.get live.now key
  (hit, {live with cache := cache})

def expire (live : LiveCache α) : LiveCache α :=
  {live with cache := live.cache.expire live.now}

/-- Stores a value in a cache whose generation, if there is one, is valid. Opening a
generation reads the clock and starts a timer. -/
def put (key : String) (value : α) (live : LiveCache α) : LiveCache α :=
  if live.cache.opens then
    let (stamp, clock) := live.clock.read
    let cache := live.cache.store live.now stamp key value
    if live.timed then
      let (wait, time) := live.time.wait (live.now + live.cache.ttl)
      {live with
        cache := cache, clock := clock, time := time
        timers := live.timers ++ [⟨wait, cache.opened⟩]}
    else {live with cache := cache, clock := clock}
  else {live with cache := live.cache.store live.now live.clock.now key value}

/-- Whatever becomes of clock and timers, the cache stores the value, stamped by the clock. -/
theorem cache_put (key : String) (value : α) (live : LiveCache α) :
    (live.put key value).cache = live.cache.store live.now live.clock.now key value := by
  unfold put
  by_cases hopens : live.cache.opens <;> by_cases htimed : live.timed <;>
    simp [hopens, htimed, Clock.read]

theorem now_put (key : String) (value : α) (live : LiveCache α) :
    (live.put key value).now = live.now := by
  unfold put now
  by_cases hopens : live.cache.opens <;> by_cases htimed : live.timed <;>
    simp [hopens, htimed, Time.wait]

/-- The clock is read only for a generation that is opened. -/
theorem clock_put (key : String) (value : α) (live : LiveCache α) :
    (live.put key value).clock = if live.cache.opens then live.clock.read.2 else live.clock := by
  unfold put
  by_cases hopens : live.cache.opens <;> by_cases htimed : live.timed <;> simp [hopens, htimed]

def store (key : String) (value : α) (live : LiveCache α) : LiveCache α :=
  live.expire.put key value

/-- Stores a value that was fetched at an epoch, unless the cache has been flushed since;
says whether it was stored. -/
def storeUnless (key : String) (value : α) (epoch : Nat) (live : LiveCache α) :
    Bool × LiveCache α :=
  if epoch = live.cache.epoch then (true, live.store key value) else (false, live)

def clear (live : LiveCache α) : LiveCache α := {live with cache := live.cache.clear}

def size (live : LiveCache α) : Nat × LiveCache α :=
  let live := live.expire
  (live.cache.size, live)

/-- When the valid generation was opened, as the clock showed it. -/
def startedAt (live : LiveCache α) : Option Int64 × LiveCache α :=
  let live := live.expire
  (live.cache.generation.map (·.startedAt), live)

/-- Lets time pass; no timer fires by that alone. -/
def advance (amount : Nat) (live : LiveCache α) : LiveCache α :=
  {live with time := live.time.passTo (live.now + amount)}

/-- Fires the timer of a generation, if it is running and due. -/
def fire (number : Nat) (live : LiveCache α) : LiveCache α :=
  if live.timers.any fun t => t.number == number && decide (t.wait.due ≤ live.now) then
    {live with
      cache := live.cache.flushNumber number
      timers := live.timers.filter (·.number != number)}
  else live

theorem now_fire (number : Nat) (live : LiveCache α) : (live.fire number).now = live.now := by
  unfold fire now
  split <;> rfl

/-- Fires all timers that are due. -/
def settle (live : LiveCache α) : LiveCache α :=
  live.timers.foldl (fun live timer => live.fire timer.number) live

def step (live : LiveCache α) : CacheEvent α → LiveCache α
  | .get key => (live.get key).2
  | .store key value => live.store key value
  | .storeUnless key value epoch => (live.storeUnless key value epoch).2
  | .clear => live.clear
  | .expire => live.expire
  | .advance amount => live.advance amount
  | .fire number => live.fire number

def run (live : LiveCache α) : List (CacheEvent α) → LiveCache α
  | [] => live
  | event :: rest => run (live.step event) rest

/-- A new, empty cache in place of the old one, whose timers go with it. -/
def renew (live : LiveCache α) : LiveCache α :=
  {live with cache := .make live.cache.ttl, timers := []}

end LiveCache

end VersionStore
