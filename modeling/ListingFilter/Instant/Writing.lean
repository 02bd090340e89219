import ListingFilter.Instant.Basic
import ListingFilter.Text.Basic

/-!
# Instant writing — the full form in universal time

`2025-03-01T09:30:00.250+00:00`: years outside of 0 to 9999 carry a sign, and the fraction has the
least of 0, 3, 6 or 9 digits that loses nothing.
-/

namespace ListingFilter

/-- A number in at least `width` digits. -/
def Text.ofNatPadded (width n : Nat) : Text :=
  let digits := Text.ofNat n
  List.replicate (width - digits.length) '0' ++ digits

namespace Date

/-- A year in at least four digits, with a sign where they do not suffice or it is negative. -/
def yearText (year : Int) : Text :=
  if 0 ≤ year && year ≤ 9999 then Text.ofNatPadded 4 year.toNat
  else (if year < 0 then '-' else '+') :: Text.ofNatPadded 4 year.natAbs

/-- The date as `YYYY-MM-DD`. -/
def text (date : Date) : Text :=
  yearText date.year ++ '-' :: Text.ofNatPadded 2 date.month ++ '-' :: Text.ofNatPadded 2 date.day

end Date

namespace Clock

/-- The fraction of a second. -/
def fractionText (nanos : Nat) : Text :=
  if nanos = 0 then []
  else if nanos % 1000000 = 0 then '.' :: Text.ofNatPadded 3 (nanos / 1000000)
  else if nanos % 1000 = 0 then '.' :: Text.ofNatPadded 6 (nanos / 1000)
  else '.' :: Text.ofNatPadded 9 nanos

/-- The time as `hh:mm:ss` and the fraction. -/
def text (clock : Clock) : Text :=
  Text.ofNatPadded 2 clock.hour ++ ':' :: Text.ofNatPadded 2 clock.minute ++
    ':' :: Text.ofNatPadded 2 clock.second ++ fractionText clock.nanos

end Clock

/-- The instant in universal time. -/
def Instant.text (instant : Instant) : Text :=
  instant.date.text ++ 'T' :: instant.clock.text ++ "+00:00".toList

end ListingFilter
