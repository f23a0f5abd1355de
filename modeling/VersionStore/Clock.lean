/-! Clocks that stamp records.

A clock shows a time in nanoseconds since the Unix epoch as a signed word, and moves on
by a fixed tick after each reading. Its arithmetic wraps. -/
namespace VersionStore

/-- A clock: the time it shows, and what a reading adds to it. -/
structure Clock where
  now : Int64
  tick : Int64 := 0
  deriving DecidableEq

namespace Clock

/-- The time shown, and the clock after it was read. -/
def read (clock : Clock) : Int64 × Clock := (clock.now, {clock with now := clock.now + clock.tick})

def set (clock : Clock) (time : Int64) : Clock := {clock with now := time}

def advance (clock : Clock) (amount : Int64) : Clock := {clock with now := clock.now + amount}

end Clock

end VersionStore
