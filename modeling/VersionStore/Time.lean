/-! Time that moves only when it is told to.

Instants and durations are nanoseconds. Whoever waits draws a ticket, so that of several
waits that are over at one instant the one that began first comes first. -/
namespace VersionStore

/-- Nanoseconds in a millisecond. -/
def millisecond : Nat := 1000000

/-- Nanoseconds in a second. -/
def second : Nat := 1000 * millisecond

/-- The present, and how many tickets have been drawn. -/
structure Time where
  now : Nat := 0
  tickets : Nat := 0
  deriving DecidableEq

/-- A wait: when it is over, and its ticket. -/
structure Wait where
  due : Nat
  ticket : Nat
  deriving DecidableEq

/-- Whether a wait comes before another. -/
def Wait.precedes (a b : Wait) : Bool :=
  decide (a.due < b.due) || (a.due == b.due && decide (a.ticket ≤ b.ticket))

namespace Time

/-- Begins a wait that is over at an instant. -/
def wait (time : Time) (due : Nat) : Wait × Time :=
  (⟨due, time.tickets⟩, {time with tickets := time.tickets + 1})

/-- Lets time pass until an instant; it never goes back. -/
def passTo (time : Time) (instant : Nat) : Time := {time with now := max time.now instant}

theorem now_le_passTo (time : Time) (instant : Nat) : time.now ≤ (time.passTo instant).now :=
  Nat.le_max_left ..

end Time

end VersionStore
