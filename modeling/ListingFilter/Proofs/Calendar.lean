import ListingFilter.Instant.Basic
import Mathlib.Data.List.Basic

/-!
# Calendar — instants as dates and times, and back

Every day has its date: counting the days of the date found for a day gives the day again
(`Date.toDays_ofDays`). An instant that reading can give, where only the last second of a minute may
be a leap second, is the instant of its own date and time (`Instant.ofCivil_date_clock`).
-/

namespace ListingFilter

/-! ## Days and dates -/

/-- A year is as long as its months together. -/
theorem daysBeforeYear_succ (year : Int) :
    daysBeforeYear (year + 1) = daysBeforeYear year + daysOfMonths 12 (monthLengths year) := by
  have hleap : isLeapYear year ↔ year % 4 = 0 ∧ (year % 100 ≠ 0 ∨ year % 400 = 0) := by
    simp [isLeapYear]
  by_cases h : isLeapYear year
  · -- a day more than 365
    have hlength : daysOfMonths 12 (monthLengths year) = 366 := by
      rw [monthLengths, if_pos h]
      rfl
    have hrule := hleap.1 h
    rw [hlength, daysBeforeYear, daysBeforeYear]
    omega
  · have hlength : daysOfMonths 12 (monthLengths year) = 365 := by
      rw [monthLengths, if_neg h]
      rfl
    have hrule : ¬ (year % 4 = 0 ∧ (year % 100 ≠ 0 ∨ year % 400 = 0)) := fun hboth => h (hleap.2 hboth)
    rw [hlength, daysBeforeYear, daysBeforeYear]
    omega

/-- A day within the months is a day of one of them, behind all days of the months before it. -/
theorem exists_monthOfDay {lengths : List Nat} {day : Nat}
    (h : day < daysOfMonths lengths.length lengths) (month : Nat) :
    ∃ index length dayOfMonth, monthOfDay month lengths day = (month + index, dayOfMonth) ∧
      lengths[index]? = some length ∧ 1 ≤ dayOfMonth ∧ dayOfMonth ≤ length ∧
      daysOfMonths index lengths + (dayOfMonth - 1) = day := by
  induction lengths generalizing month day with
  | nil => exact absurd h (Nat.not_lt_zero day)
  | cons length lengths ih =>
    rw [List.length_cons, daysOfMonths] at h
    unfold monthOfDay
    by_cases hhere : day < length
    · -- the first month holds the day
      refine ⟨0, length, day + 1, if_pos hhere, rfl, by omega, by omega, ?_⟩
      change 0 + (day + 1 - 1) = day
      omega
    · have hlater : day - length < daysOfMonths lengths.length lengths := by omega
      rcases ih hlater (month + 1) with
        ⟨index, found, dayOfMonth, hmonth, hfound, hpos, hle, hday⟩
      refine ⟨index + 1, found, dayOfMonth, ?_, by simpa using hfound, hpos, hle, ?_⟩
      · rw [if_neg hhere, hmonth, Nat.add_right_comm, Nat.add_assoc]
      · unfold daysOfMonths
        omega

namespace Date

/-- The date of a day: a day of a month of the year that holds it. -/
theorem exists_ofDays (days : Int) :
    ∃ year index length dayOfMonth, ofDays days = ⟨year, 1 + index, dayOfMonth⟩ ∧
      (monthLengths year)[index]? = some length ∧ 1 ≤ dayOfMonth ∧ dayOfMonth ≤ length ∧
      daysBeforeYear year + (daysOfMonths index (monthLengths year) + (dayOfMonth - 1) : Nat) =
        days + epochDay := by
  rcases yearOfDay_bounds (days + epochDay) with ⟨hstart, hend⟩
  rw [daysBeforeYear_succ] at hend
  generalize hyear : yearOfDay (days + epochDay) = year at hstart hend
  have hday : (days + epochDay - daysBeforeYear year).toNat <
      daysOfMonths (monthLengths year).length (monthLengths year) := by
    change (days + epochDay - daysBeforeYear year).toNat < daysOfMonths 12 (monthLengths year)
    omega
  rcases exists_monthOfDay hday 1 with ⟨index, length, dayOfMonth, hmonth, hlength, hpos, hle, hsum⟩
  refine ⟨year, index, length, dayOfMonth, ?_, hlength, hpos, hle, ?_⟩
  · simp only [ofDays]
    rw [hyear, hmonth]
  · rw [hsum]
    omega

/-- The days of the date of a day. -/
theorem toDays_ofDays (days : Int) : (ofDays days).toDays = days := by
  rcases exists_ofDays days with ⟨year, index, length, dayOfMonth, hdate, -, -, -, hsum⟩
  have hindex : 1 + index - 1 = index := Nat.add_sub_cancel_left 1 index
  simp only [hdate, toDays, hindex]
  omega

/-- The date of a day exists, if its year does. -/
theorem isValid_ofDays {days : Int} (h : calendarYears (ofDays days).year) :
    (ofDays days).isValid := by
  rcases exists_ofDays days with ⟨year, index, length, dayOfMonth, hdate, hlength, hpos, hle, -⟩
  rw [hdate] at h ⊢
  simp [isValid, h, hlength, hpos, hle]

end Date

/-! ## Instants -/

namespace Instant

/-- An instant as reading gives it: there is no more than one leap second, and it is the last second
of a minute. -/
structure Regular (instant : Instant) : Prop where
  nanos_lt : instant.nanos < 2 * nanosPerSecond
  leap : nanosPerSecond ≤ instant.nanos → instant.seconds % 60 = 59

theorem regular_ofCivil {clock : Clock} (h : clock.isValid) (date : Date) {offset : Int}
    (hoffset : offset % 60 = 0) : (ofCivil date clock offset).Regular := by
  simp only [Clock.isValid, Bool.and_eq_true, decide_eq_true_eq] at h
  rcases h with ⟨⟨⟨-, -⟩, hsecond⟩, hnanos⟩
  constructor
  · simp only [ofCivil, Clock.excess, nanosPerSecond] at hnanos ⊢
    split <;> omega
  · -- the nanoseconds exceed a second only in the second 60
    intro hleap
    have hsixty : clock.second = 60 := by
      by_contra hother
      simp only [ofCivil, Clock.excess, if_neg hother] at hleap
      omega
    simp only [ofCivil, Clock.toSeconds, secondsPerDay, hsixty]
    omega

/-- The seconds and the leap seconds in the time of day of an instant. -/
theorem second_clock (instant : Instant) :
    instant.clock.second =
      (instant.seconds % secondsPerDay).toNat % 60 + instant.nanos / nanosPerSecond := rfl

variable {instant : Instant}

/-- The time of day of an instant exists. -/
theorem Regular.isValid_clock (h : instant.Regular) : instant.clock.isValid := by
  rcases h with ⟨hnanos, hleap⟩
  have hhour : instant.clock.hour ≤ 23 := by
    change (instant.seconds % (86400 : Nat)).toNat / 3600 ≤ 23
    omega
  have hminute : instant.clock.minute ≤ 59 := by
    change (instant.seconds % (86400 : Nat)).toNat / 60 % 60 ≤ 59
    omega
  have hsecond : instant.clock.second ≤ 60 := by
    rw [second_clock]
    simp only [secondsPerDay, nanosPerSecond] at *
    omega
  have hrest : instant.clock.nanos < nanosPerSecond := Nat.mod_lt instant.nanos (by decide)
  simp [Clock.isValid, hhour, hminute, hsecond, hrest]

/-- The seconds since midnight; a leap second does not count. -/
theorem Regular.toSeconds_clock (h : instant.Regular) :
    (instant.clock.toSeconds : Int) = instant.seconds % secondsPerDay := by
  rcases h with ⟨hnanos, hleap⟩
  have hminutes : instant.clock.hour * 3600 + instant.clock.minute * 60 =
      (instant.seconds % (86400 : Nat)).toNat / 60 * 60 := by
    change (instant.seconds % (86400 : Nat)).toNat / 3600 * 3600 +
      (instant.seconds % (86400 : Nat)).toNat / 60 % 60 * 60 = _
    omega
  rw [Clock.toSeconds, hminutes, second_clock]
  simp only [secondsPerDay, nanosPerSecond] at *
  omega

theorem Regular.excess_clock (h : instant.Regular) : instant.clock.excess = instant.nanos := by
  rcases h with ⟨hnanos, hleap⟩
  have hsecond : instant.clock.second = 60 ↔ nanosPerSecond ≤ instant.nanos := by
    rw [second_clock]
    simp only [secondsPerDay, nanosPerSecond] at *
    omega
  have hrest : instant.clock.nanos = instant.nanos % nanosPerSecond := rfl
  rw [Clock.excess, hrest]
  by_cases hsixty : instant.clock.second = 60
  · have hover := hsecond.1 hsixty
    rw [if_pos hsixty]
    simp only [nanosPerSecond] at *
    omega
  · have hunder := mt hsecond.2 hsixty
    rw [if_neg hsixty]
    simp only [nanosPerSecond] at *
    omega

/-- An instant is the one of its own date and time. -/
theorem Regular.ofCivil_date_clock (h : instant.Regular) :
    ofCivil instant.date instant.clock 0 = instant := by
  rw [ofCivil, date, Date.toDays_ofDays, h.toSeconds_clock, h.excess_clock]
  have hdays := Int.ediv_mul_add_emod instant.seconds secondsPerDay
  rw [hdays, Int.sub_zero]

end Instant

end ListingFilter
