import VersionStore.Cache

/-! A line that describes a cache to whoever debugs it. -/
namespace VersionStore

/-- A number of digits after the point, without trailing zeros. -/
def fractionDigits (places fraction : Nat) : List Char :=
  let ds := Nat.toDigits 10 fraction
  let padded := List.replicate (places - ds.length) '0' ++ ds
  (padded.reverse.dropWhile (· == '0')).reverse

/-- A whole number and a fraction of so many decimal places, with a unit. -/
def withUnit (whole places fraction : Nat) (unit : String) : String :=
  toString whole ++
    (if fraction = 0 then "" else "." ++ String.ofList (fractionDigits places fraction)) ++ unit

/-- A duration in the largest unit of which it holds at least one. -/
def durationText (d : Nat) : String :=
  if second ≤ d then withUnit (d / second) 9 (d % second) "s"
  else if millisecond ≤ d then withUnit (d / millisecond) 6 (d % millisecond) "ms"
  else if 1000 ≤ d then withUnit (d / 1000) 3 (d % 1000) "µs"
  else withUnit d 0 0 "ns"

/-- Names and texts of fields behind the name of a structure. -/
def structText (name : String) (fields : List (String × String)) : String :=
  name ++ " \x7b " ++ ", ".intercalate (fields.map fun (field, text) => field ++ ": " ++ text) ++
    " \x7d"

namespace Cache

variable {α : Type}

/-- The description of a cache: its time to live and its counts. -/
def summary (cache : Cache α) : String :=
  structText "GenerationCache"
    [("ttl", durationText cache.ttl),
     ("stats", structText "CacheStats"
      [("hits", toString cache.hits), ("misses", toString cache.misses),
       ("generations", toString cache.opened), ("flushes", toString cache.flushes),
       ("entry_count", toString cache.size)])]

end Cache

end VersionStore
