/-!
# Calendar — days and civil dates

The Gregorian calendar extended to all years, with a year zero. Days are counted from the first of
January 1970.
-/

namespace ListingFilter

/-- A year, month and day. -/
structure Date where
  year : Int
  month : Nat
  day : Nat
deriving DecidableEq, Repr

/-- The years with a 29th of February. -/
def isLeapYear (year : Int) : Bool :=
  year % 4 == 0 && (year % 100 != 0 || year % 400 == 0)

/-- The lengths of the months of a year. -/
def monthLengths (year : Int) : List Nat :=
  [31, if isLeapYear year then 29 else 28, 31, 30, 31, 30, 31, 31, 30, 31, 30, 31]

/-- The days from the start of year zero to the start of a year. -/
def daysBeforeYear (year : Int) : Int :=
  365 * year + (year + 3) / 4 - (year + 99) / 100 + (year + 399) / 400

/-- The days from the start of year zero to the first of January 1970. -/
def epochDay : Int :=
  719528

/-- The years for which there are dates. -/
def calendarYears (year : Int) : Bool :=
  -262143 ≤ year && year ≤ 262142

/-- The year that holds the day counted from the start of year zero: near the average, and at most
one year from it. -/
def yearOfDay (day : Int) : Int :=
  let year := day * 400 / 146097
  if day < daysBeforeYear year then year - 1
  else if day < daysBeforeYear (year + 1) then year
  else year + 1

/-- On average a year has 146097 / 400 days, and the days before a year follow that closely. -/
theorem daysBeforeYear_bounds (year : Int) :
    146097 * year ≤ 400 * daysBeforeYear year + 400 ∧
      400 * daysBeforeYear year ≤ 146097 * year + 800 := by
  rw [daysBeforeYear]
  constructor <;> omega

/-- The year found for a day holds it. -/
theorem yearOfDay_bounds (day : Int) :
    daysBeforeYear (yearOfDay day) ≤ day ∧ day < daysBeforeYear (yearOfDay day + 1) := by
  have average := Int.mul_ediv_self_le (x := day * 400) (k := 146097) (by decide)
  have rest := Int.lt_mul_ediv_self_add (x := day * 400) (k := 146097) (by decide)
  simp only [yearOfDay]
  generalize day * 400 / 146097 = year at *
  have before := daysBeforeYear_bounds (year - 1)
  have beyond := daysBeforeYear_bounds (year + 1 + 1)
  split
  · -- the year before the estimate
    rw [Int.sub_add_cancel]
    omega
  · -- the estimate or the year after it
    split <;> omega

/-- The month, counted from `month` on, and the day in it that are `day` days after the start of
the first of the months with these lengths. -/
def monthOfDay (month : Nat) : List Nat → Nat → Nat × Nat
  | [], day => (month, day + 1)
  | length :: lengths, day =>
    if day < length then (month, day + 1) else monthOfDay (month + 1) lengths (day - length)

/-- The days of the first `count` months with these lengths. -/
def daysOfMonths : Nat → List Nat → Nat
  | count + 1, length :: lengths => length + daysOfMonths count lengths
  | _, _ => 0

namespace Date

/-- The date exists. -/
def isValid (date : Date) : Bool :=
  calendarYears date.year && 1 ≤ date.month && 1 ≤ date.day &&
    (monthLengths date.year)[date.month - 1]?.any (date.day ≤ ·)

/-- The days from the first of January 1970 to the date. -/
def toDays (date : Date) : Int :=
  daysBeforeYear date.year - epochDay +
    (daysOfMonths (date.month - 1) (monthLengths date.year) + (date.day - 1) : Nat)

/-- The date that many days after the first of January 1970. -/
def ofDays (days : Int) : Date :=
  let day := days + epochDay
  let year := yearOfDay day
  let (month, day) := monthOfDay 1 (monthLengths year) (day - daysBeforeYear year).toNat
  ⟨year, month, day⟩

end Date

end ListingFilter
