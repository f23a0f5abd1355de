import VersionStore.Number.Double
import VersionStore.Table
import VersionStore.Time

/-! A cache that forgets everything at once.

The cache is empty or holds one generation. The first entry stored in an empty cache
opens a generation, later ones join it without prolonging it, and when its time has come
it is dropped whole. Each operation that looks at the entries first drops a generation
whose time has come, so no operation depends on when that is noticed otherwise.

The epoch grows with every drop. A value that was fetched while the cache was at one
epoch is not stored at another: it may be older than what the drop was meant to forget. -/
namespace VersionStore

/-- The entries stored since the cache was last empty. -/
structure Generation (α : Type) where
  number : Nat
  /-- What the clock showed when the generation was opened. -/
  startedAt : Int64
  /-- The instant from which the generation is no longer valid. -/
  expiresAt : Nat
  entries : Table α
  deriving DecidableEq

/-- A cache, with the counts of what has happened to it. The counts, the epoch and the numbers of
generations are natural numbers without a bound, not words of 64 bits. -/
structure Cache (α : Type) where
  /-- How long a generation lives. -/
  ttl : Nat
  generation : Option (Generation α) := none
  /-- How many lookups have found something. -/
  hits : Nat := 0
  /-- How many have not. -/
  misses : Nat := 0
  /-- How many generations have been opened. -/
  opened : Nat := 0
  /-- How many generations have been dropped. -/
  flushes : Nat := 0
  /-- Grows with every drop and every clearing. -/
  epoch : Nat := 0
  deriving DecidableEq

/-- A value found in the cache, with the generation it was found in. -/
structure Hit (α : Type) where
  value : α
  generation : Nat
  startedAt : Int64
  deriving DecidableEq

namespace Hit

variable {α β : Type}

/-- The time since the generation was opened, as a clock shows it; never negative. -/
def age (hit : Hit α) (now : Int64) : Int64 :=
  Int64.ofInt (max 0 (min 0x7fffffffffffffff (now.toInt - hit.startedAt.toInt)))

def map (f : α → β) (hit : Hit α) : Hit β := ⟨f hit.value, hit.generation, hit.startedAt⟩

end Hit

namespace Cache

variable {α : Type}

/-- The longest time that a generation of any cache may live: a day. -/
def maxTtl : Nat := 86400 * second

/-- An empty cache whose generations live for a given time, a day at most. -/
def make (ttl : Nat) : Cache α := {ttl := min ttl maxTtl}

def flush (cache : Cache α) : Cache α :=
  match cache.generation with
  | none => cache
  | some _ =>
    {cache with generation := none, flushes := cache.flushes + 1, epoch := cache.epoch + 1}

def flushNumber (number : Nat) (cache : Cache α) : Cache α :=
  match cache.generation with
  | none => cache
  | some g => if g.number = number then cache.flush else cache

def expire (now : Nat) (cache : Cache α) : Cache α :=
  match cache.generation with
  | none => cache
  | some g => if g.expiresAt ≤ now then cache.flush else cache

/-- Drops the generation at once; the epoch grows even if there is none. -/
def clear (cache : Cache α) : Cache α := {cache with epoch := cache.epoch + 1}.flush

/-- What the generation at hand holds under a key. -/
def find? (key : String) (cache : Cache α) : Option (Hit α) :=
  cache.generation.bind fun g =>
    (g.entries.get? key).map fun value => ⟨value, g.number, g.startedAt⟩

def get (now : Nat) (key : String) (cache : Cache α) : Option (Hit α) × Cache α :=
  let cache := cache.expire now
  match cache.find? key with
  | some hit => (some hit, {cache with hits := cache.hits + 1})
  | none => (none, {cache with misses := cache.misses + 1})

/-- Whether storing opens a generation: there is none to join. -/
def opens (cache : Cache α) : Bool := cache.generation.isNone

/-- Stores a value under a key. `stamp` is what the clock shows; it is looked at only when a
generation is opened. -/
def store (now : Nat) (stamp : Int64) (key : String) (value : α) (cache : Cache α) : Cache α :=
  match cache.generation with
  | some g => {cache with generation := some {g with entries := g.entries.put key value}}
  | none =>
    {cache with
      generation := some ⟨cache.opened + 1, stamp, now + cache.ttl, [(key, value)]⟩
      opened := cache.opened + 1}

def entries (cache : Cache α) : Table α :=
  match cache.generation with
  | some g => g.entries
  | none => []

def size (cache : Cache α) : Nat := cache.entries.length

/-- The share of lookups that found something; zero before the first. -/
def hitRate (cache : Cache α) : Double :=
  let lookups := cache.hits + cache.misses
  if lookups = 0 then Double.ofInt 0
  else ((Double.ofInt cache.hits).div (Double.ofInt lookups)).getD (Double.ofInt 0)

end Cache

end VersionStore
