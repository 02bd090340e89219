import ListingFilter.Instant.Calendar

/-!
# Instant — points in time

An instant is a number of whole seconds since the start of 1970 and the nanoseconds beyond them. A
leap second, 23:59:60, is written as its predecessor with a thousand million nanoseconds or more.
-/

namespace ListingFilter

/-- A point in time. -/
structure Instant where
  seconds : Int
  nanos : Nat
deriving DecidableEq, Repr

/-- A time of day. A leap second has the second 60. -/
structure Clock where
  hour : Nat
  minute : Nat
  second : Nat
  nanos : Nat := 0
deriving DecidableEq, Repr

/-- The nanoseconds in a second. -/
def nanosPerSecond : Nat :=
  1000000000

/-- The seconds in a day. -/
def secondsPerDay : Nat :=
  86400

namespace Clock

/-- The time exists. -/
def isValid (clock : Clock) : Bool :=
  clock.hour ≤ 23 && clock.minute ≤ 59 && clock.second ≤ 60 && clock.nanos < nanosPerSecond

/-- The seconds since midnight; a leap second counts as the one before it. -/
def toSeconds (clock : Clock) : Nat :=
  clock.hour * 3600 + clock.minute * 60 + min clock.second 59

/-- The nanoseconds beyond those seconds. -/
def excess (clock : Clock) : Nat :=
  (if clock.second = 60 then nanosPerSecond else 0) + clock.nanos

end Clock

namespace Instant

/-- The instant of a date and time that are `offset` seconds ahead of universal time. -/
def ofCivil (date : Date) (clock : Clock) (offset : Int) : Instant :=
  ⟨date.toDays * secondsPerDay + clock.toSeconds - offset, clock.excess⟩

/-- The date of the instant in universal time. -/
def date (instant : Instant) : Date :=
  Date.ofDays (instant.seconds / secondsPerDay)

/-- The time of day of the instant in universal time. -/
def clock (instant : Instant) : Clock :=
  let rest := (instant.seconds % secondsPerDay).toNat
  let leap := instant.nanos / nanosPerSecond
  ⟨rest / 3600, rest / 60 % 60, rest % 60 + leap, instant.nanos % nanosPerSecond⟩

/-- Earlier or later: by the seconds, then by the nanoseconds. -/
def compare (a b : Instant) : Ordering :=
  (Ord.compare a.seconds b.seconds).then (Ord.compare a.nanos b.nanos)

end Instant

end ListingFilter
