import PresenceTracker.Decimal.Digits

/-!
# Moments and durations

Moments are milliseconds since the epoch in signed 64-bit words, as records and messages carry
them. A distance between two moments that does not fit is held at the end of the range, so that
comparing it with a window still gives the answer that unbounded integers give. Durations are spans
of time in whole microseconds. In their short written form they have the largest unit of seconds,
milliseconds and microseconds that gives at least one, with the digits behind the point that are
needed.
-/

namespace PresenceTracker

/-- Milliseconds since the epoch, or a number of milliseconds. -/
abbrev Moment := Int64

namespace Moment

/-- The time from `earlier` to `later`, held at the ends of the 64-bit range. -/
def since (later earlier : Moment) : Moment := Int64.ofIntClamp (later.toInt - earlier.toInt)

/-- A natural number of milliseconds, held at the upper end of the 64-bit range. -/
def ofNatClamp (count : Nat) : Moment := Int64.ofIntClamp count

end Moment

/-- A span of time, in microseconds. -/
abbrev Duration := Nat

namespace Duration

/-- A number of milliseconds. -/
def ofMillis (count : Nat) : Duration := count * 1000

/-- A number of seconds. -/
def ofSeconds (count : Nat) : Duration := count * 1000000

/-- The whole milliseconds of a span. -/
def wholeMillis (duration : Duration) : Nat := duration / 1000

theorem wholeMillis_ofMillis (count : Nat) : wholeMillis (ofMillis count) = count := by
  simp [wholeMillis, ofMillis]

/-- The digits of a number below `10 ^ places` behind a point, without trailing zeros. -/
def fractionText : Nat → Nat → String
  | 0, _ => ""
  | places + 1, value =>
    if value = 0 then ""
    else
      Decimal.natText (value / Nat.pow 10 places) ++
        fractionText places (value % Nat.pow 10 places)

/-- A quotient by `10 ^ places`, with the digits behind the point that are needed. -/
def quotientText (value places : Nat) : String :=
  let fraction := fractionText places (value % Nat.pow 10 places)
  Decimal.natText (value / Nat.pow 10 places) ++
    if fraction.isEmpty then "" else "." ++ fraction

/-- The written form of a span. -/
def text (duration : Duration) : String :=
  if duration = 0 then "0ns"
  else if duration < 1000 then Decimal.natText duration ++ "µs"
  else if duration < 1000000 then quotientText duration 3 ++ "ms"
  else quotientText duration 6 ++ "s"

end Duration

end PresenceTracker
