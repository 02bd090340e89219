import ListingFilter.Proofs.Calendar
import ListingFilter.Instant.Reading

/-!
# Instant reading — what texts of points in time are made of

A character that a reader does not take is left over in the text behind what it reads. As nothing
may be left over in the end, a text that stands for a point in time holds only the characters of
dates and times (`isDated_of_ofText?`), and one in a loose form only some of these
(`isLoose_of_ofDateAndTime?`, `isLoose_of_ofDate?`).

Times are checked and offsets are whole minutes, so every instant that is read is regular
(`regular_of_ofText?`).
-/

namespace ListingFilter

/-- A character that the loose forms of dates and times are written in. -/
def isLoose (c : Char) : Bool :=
  c.isDigit || isSpace c || ['-', '+', ':'].contains c

/-- A character that dates and times are written in. -/
def isDated (c : Char) : Bool :=
  isLoose c || ['.', 'T', 't', 'Z', 'z', '\u2212'].contains c

/-! ## Characters left over -/

namespace Text

variable {c : Char} {text rest : Text} {width n : Nat}

theorem not_isLoose_iff :
    ¬ isLoose c ↔ ¬ c.isDigit ∧ ¬ isSpace c ∧ c ≠ '-' ∧ c ≠ '+' ∧ c ≠ ':' := by
  simp [isLoose, and_assoc]

theorem mem_trimStart (hc : ¬ isSpace c) (h : c ∈ text) : c ∈ text.trimStart := by
  rcases exists_append_trimStart text with ⟨before, hbefore, hjoin⟩
  rw [← hjoin, List.mem_append] at h
  rcases h with hspace | hrest
  · exact absurd (List.all_eq_true.1 hbefore c hspace) hc
  · exact hrest

theorem mem_of_expect? {mark : Char} (hread : expect? mark text = some rest) (hc : c ≠ mark)
    (h : c ∈ text) : c ∈ rest := by
  cases text with
  | nil => cases h
  | cons d tail =>
    rw [expect?] at hread
    split at hread
    · rename_i hmark
      cases hread
      rcases List.mem_cons.1 h with rfl | htail
      · exact absurd hmark hc
      · exact htail
    · cases hread

/-- Behind digits that were taken, every other character is left over. -/
theorem mem_drop_of_digits {digits : Text} (hdigits : ∀ d ∈ digits, d.isDigit)
    (hstart : digits <+: text) (hc : ¬ c.isDigit) (h : c ∈ text) :
    c ∈ text.drop digits.length := by
  rcases hstart with ⟨tail, rfl⟩
  rw [List.drop_left]
  rcases List.mem_append.1 h with hdigit | htail
  · exact absurd (hdigits c hdigit) hc
  · exact htail

theorem mem_of_fixedNumber? (hread : fixedNumber? width text = some (n, rest)) (hc : ¬ c.isDigit)
    (h : c ∈ text) : c ∈ rest := by
  simp only [fixedNumber?] at hread
  split at hread
  · rename_i hdigits
    rw [Bool.and_eq_true, decide_eq_true_eq] at hdigits
    cases hread
    have hleft := mem_drop_of_digits (List.all_eq_true.1 hdigits.2) (List.take_prefix width text) hc h
    rwa [hdigits.1] at hleft
  · cases hread

theorem mem_of_leadingNumber? (hread : leadingNumber? width text = some (n, rest))
    (hc : ¬ c.isDigit) (h : c ∈ text) : c ∈ rest := by
  simp only [leadingNumber?] at hread
  split at hread
  · cases hread
  · cases hread
    refine mem_drop_of_digits (List.all_eq_true.1 List.all_takeWhile) ?_ hc h
    exact (List.takeWhile_prefix _).trans (List.take_prefix width text)

theorem mem_of_looseNumber? (hread : looseNumber? text = some (n, rest)) (hc : ¬ isLoose c)
    (h : c ∈ text) : c ∈ rest := by
  rcases not_isLoose_iff.1 hc with ⟨hdigit, hspace, -⟩
  exact mem_of_leadingNumber? hread hdigit (mem_trimStart hspace h)

theorem mem_of_looseYear? {year : Int} (hread : looseYear? text = some (year, rest))
    (hc : ¬ isLoose c) (h : c ∈ text) : c ∈ rest := by
  rcases not_isLoose_iff.1 hc with ⟨hdigit, hspace, hminus, hplus, -⟩
  have htrim := mem_trimStart hspace h
  unfold looseYear? at hread
  split at hread
  · cases hread
  · rename_i d tail hstart
    rw [hstart] at htrim
    -- only the sign and digits are taken
    split at hread
    · rename_i hsign
      rcases Option.map_eq_some_iff.1 hread with ⟨⟨n, left⟩, hnumber, hsame⟩
      cases hsame
      have htail := (List.mem_cons.1 htrim).resolve_left (hsign ▸ hminus)
      exact mem_of_leadingNumber? hnumber hdigit htail
    · split at hread
      · rename_i hsign
        rcases Option.map_eq_some_iff.1 hread with ⟨⟨n, left⟩, hnumber, hsame⟩
        cases hsame
        have htail := (List.mem_cons.1 htrim).resolve_left (hsign ▸ hplus)
        exact mem_of_leadingNumber? hnumber hdigit htail
      · rcases Option.map_eq_some_iff.1 hread with ⟨⟨n, left⟩, hnumber, hsame⟩
        cases hsame
        exact mem_of_leadingNumber? hnumber hdigit htrim

end Text

open Text

theorem Date.mem_of_ofLooseForm? {c : Char} {text rest : Text} {date : Date}
    (hread : ofLooseForm? text = some (date, rest)) (hc : ¬ isLoose c) (h : c ∈ text) : c ∈ rest := by
  rcases not_isLoose_iff.1 hc with ⟨-, -, hminus, -, -⟩
  simp only [ofLooseForm?, Option.bind_eq_bind, Option.bind_eq_some_iff, Prod.exists] at hread
  rcases hread with ⟨year, behindYear, hyear, beforeMonth, hfirst, month, behindMonth, hmonth,
    beforeDay, hsecond, day, behindDay, hday, hvalid⟩
  split at hvalid
  · cases hvalid
    have hbehindYear := mem_of_looseYear? hyear hc h
    have hbehindMonth := mem_of_looseNumber? hmonth hc (mem_of_expect? hfirst hminus hbehindYear)
    exact mem_of_looseNumber? hday hc (mem_of_expect? hsecond hminus hbehindMonth)
  · cases hvalid

/-- A time that is read in the loose form exists, and what its numbers and colons do not take is left
over. -/
theorem Clock.of_ofLooseForm? {text rest : Text} {clock : Clock}
    (hread : ofLooseForm? text = some (clock, rest)) :
    clock.isValid ∧ ∀ c, ¬ isLoose c → c ∈ text → c ∈ rest := by
  simp only [ofLooseForm?, Option.bind_eq_bind, Option.bind_eq_some_iff, Prod.exists] at hread
  rcases hread with ⟨hour, behindHour, hhour, beforeMinute, hfirst, minute, behindMinute, hminute,
    beforeSecond, hlast, second, behindSecond, hsecond, hvalid⟩
  split at hvalid
  · rename_i hclock
    cases hvalid
    refine ⟨hclock, ?_⟩
    intro c hc h
    rcases not_isLoose_iff.1 hc with ⟨-, -, -, -, hcolon⟩
    have hbehindHour := mem_of_looseNumber? hhour hc h
    have hbehindMinute := mem_of_looseNumber? hminute hc (mem_of_expect? hfirst hcolon hbehindHour)
    exact mem_of_looseNumber? hsecond hc (mem_of_expect? hlast hcolon hbehindMinute)
  · cases hvalid

theorem Date.mem_of_ofFullForm? {c : Char} {text rest : Text} {date : Date}
    (hread : ofFullForm? text = some (date, rest)) (hc : ¬ isLoose c) (h : c ∈ text) : c ∈ rest := by
  rcases not_isLoose_iff.1 hc with ⟨hdigit, -, hminus, -, -⟩
  simp only [ofFullForm?, Option.bind_eq_bind, Option.bind_eq_some_iff, Prod.exists] at hread
  rcases hread with ⟨year, behindYear, hyear, beforeMonth, hfirst, month, behindMonth, hmonth,
    beforeDay, hsecond, day, behindDay, hday, hvalid⟩
  split at hvalid
  · cases hvalid
    have hbehindYear := mem_of_fixedNumber? hyear hdigit h
    have hbehindMonth := mem_of_fixedNumber? hmonth hdigit (mem_of_expect? hfirst hminus hbehindYear)
    exact mem_of_fixedNumber? hday hdigit (mem_of_expect? hsecond hminus hbehindMonth)
  · cases hvalid

namespace Clock

variable {c : Char} {text rest : Text}

theorem mem_of_readFraction? {nanos : Nat} (hread : readFraction? text = some (nanos, rest))
    (hdigit : ¬ c.isDigit) (hpoint : c ≠ '.') (h : c ∈ text) : c ∈ rest := by
  cases text with
  | nil => cases h
  | cons d tail =>
    simp only [readFraction?] at hread
    split at hread
    · rename_i hmark
      split at hread
      · cases hread
      · cases hread
        have htail := (List.mem_cons.1 h).resolve_left (hmark ▸ hpoint)
        exact mem_drop_of_digits (List.all_eq_true.1 List.all_takeWhile) (List.takeWhile_prefix _)
          hdigit htail
    · cases hread
      exact h

theorem mem_of_readOffset? {offset : Int} (hread : readOffset? text = some (offset, rest))
    (hc : ¬ isDated c) (h : c ∈ text) : c ∈ rest := by
  rw [isDated, Bool.or_eq_true, not_or, not_isLoose_iff] at hc
  rcases hc with ⟨⟨hdigit, -, hminus, hplus, hcolon⟩, hletters⟩
  simp only [List.contains_cons, List.contains_nil, Bool.or_eq_true, beq_iff_eq, not_or] at hletters
  rcases hletters with ⟨-, -, -, hZ, hz, hsign, -⟩
  cases text with
  | nil => cases h
  | cons d tail =>
    rw [readOffset?] at hread
    split at hread
    · -- universal time
      rename_i hmark
      cases hread
      apply (List.mem_cons.1 h).resolve_left
      rintro rfl
      simp [hZ, hz] at hmark
    · split at hread
      · rename_i hmark
        have htail : c ∈ tail := by
          apply (List.mem_cons.1 h).resolve_left
          rintro rfl
          simp [hplus, hminus, hsign] at hmark
        simp only [Option.bind_eq_bind, Option.bind_eq_some_iff, Prod.exists] at hread
        rcases hread with ⟨hours, behindHours, hhours, beforeMinutes, hmiddle, minutes,
          behindMinutes, hminutes, hvalid⟩
        split at hvalid
        · cases hvalid
          have hbehindHours := mem_of_fixedNumber? hhours hdigit htail
          exact mem_of_fixedNumber? hminutes hdigit (mem_of_expect? hmiddle hcolon hbehindHours)
        · cases hvalid
      · cases hread

/-- A time that is read in the full form exists, and what its numbers and marks do not take is left
over. -/
theorem of_ofFullForm? {clock : Clock} (hread : ofFullForm? text = some (clock, rest)) :
    clock.isValid ∧ ∀ c, ¬ isLoose c → c ≠ '.' → c ∈ text → c ∈ rest := by
  simp only [ofFullForm?, Option.bind_eq_bind, Option.bind_eq_some_iff, Prod.exists] at hread
  rcases hread with ⟨hour, behindHour, hhour, beforeMinute, hfirst, minute, behindMinute, hminute,
    beforeSecond, hlast, second, behindSecond, hsecond, nanos, behindNanos, hnanos, hvalid⟩
  split at hvalid
  · rename_i hclock
    cases hvalid
    refine ⟨hclock, ?_⟩
    intro c hc hpoint h
    rcases not_isLoose_iff.1 hc with ⟨hdigit, -, -, -, hcolon⟩
    have hbehindHour := mem_of_fixedNumber? hhour hdigit h
    have hbehindMinute :=
      mem_of_fixedNumber? hminute hdigit (mem_of_expect? hfirst hcolon hbehindHour)
    have hbehindSecond :=
      mem_of_fixedNumber? hsecond hdigit (mem_of_expect? hlast hcolon hbehindMinute)
    exact mem_of_readFraction? hnanos hdigit hpoint hbehindSecond
  · cases hvalid

/-- Offsets are whole minutes. -/
theorem emod_of_readOffset? {offset : Int} (hread : readOffset? text = some (offset, rest)) :
    offset % 60 = 0 := by
  cases text with
  | nil => cases hread
  | cons d tail =>
    rw [readOffset?] at hread
    split at hread
    · cases hread
      rfl
    · split at hread
      · simp only [Option.bind_eq_bind, Option.bind_eq_some_iff, Prod.exists] at hread
        rcases hread with ⟨hours, behindHours, -, beforeMinutes, -, minutes, behindMinutes, -, hvalid⟩
        split at hvalid
        · cases hvalid
          split <;> omega
        · cases hvalid
      · cases hread

end Clock

namespace Instant

variable {c : Char} {text : Text} {instant : Instant}

/-- A date and a time make up the whole of a text in the loose form. -/
theorem exists_of_ofDateAndTime? (hread : ofDateAndTime? text = some instant) :
    ∃ (date : Date) (behindDate : Text) (clock : Clock),
      Date.ofLooseForm? text = some (date, behindDate) ∧
        Clock.ofLooseForm? behindDate = some (clock, []) ∧ instant = ofCivil date clock 0 := by
  simp only [ofDateAndTime?, Option.bind_eq_bind, Option.bind_eq_some_iff, Prod.exists] at hread
  rcases hread with ⟨date, behindDate, hdate, clock, behindClock, hclock, hend⟩
  split at hend
  · rename_i hempty
    cases hend
    rw [List.isEmpty_iff.1 hempty] at hclock
    exact ⟨date, behindDate, clock, hdate, hclock, rfl⟩
  · cases hend

/-- A date makes up the whole of a text without a time. -/
theorem exists_of_ofDate? (hread : ofDate? text = some instant) :
    ∃ date : Date, Date.ofLooseForm? text = some (date, []) ∧
      instant = ofCivil date ⟨0, 0, 0, 0⟩ 0 := by
  simp only [ofDate?, Option.bind_eq_bind, Option.bind_eq_some_iff, Prod.exists] at hread
  rcases hread with ⟨date, behindDate, hdate, hend⟩
  split at hend
  · rename_i hempty
    cases hend
    rw [List.isEmpty_iff.1 hempty] at hdate
    exact ⟨date, hdate, rfl⟩
  · cases hend

/-- A date, a separator, a time and an offset make up the whole of a text in the full form. -/
theorem exists_of_ofFullForm? (hread : ofFullForm? text = some instant) :
    ∃ (date : Date) (behindDate beforeClock : Text) (clock : Clock) (behindClock : Text)
      (offset : Int), Date.ofFullForm? text = some (date, behindDate) ∧
        readSeparator? behindDate = some beforeClock ∧
        Clock.ofFullForm? beforeClock = some (clock, behindClock) ∧
        Clock.readOffset? behindClock = some (offset, []) ∧ instant = ofCivil date clock offset := by
  simp only [ofFullForm?, Option.bind_eq_bind, Option.bind_eq_some_iff, Prod.exists] at hread
  rcases hread with ⟨date, behindDate, hdate, beforeClock, hseparator, clock, behindClock, hclock,
    offset, behindOffset, hoffset, hend⟩
  split at hend
  · rename_i hempty
    cases hend
    rw [List.isEmpty_iff.1 hempty] at hoffset
    exact ⟨date, behindDate, beforeClock, clock, behindClock, offset, hdate, hseparator, hclock,
      hoffset, rfl⟩
  · cases hend

/-- The loose forms hold no other characters. -/
theorem isLoose_of_ofDateAndTime? (hread : ofDateAndTime? text = some instant) (h : c ∈ text) :
    isLoose c := by
  rcases exists_of_ofDateAndTime? hread with ⟨date, behindDate, clock, hdate, hclock, -⟩
  by_contra hc
  have hbehindDate := Date.mem_of_ofLooseForm? hdate hc h
  exact absurd ((Clock.of_ofLooseForm? hclock).2 c hc hbehindDate) List.not_mem_nil

theorem isLoose_of_ofDate? (hread : ofDate? text = some instant) (h : c ∈ text) : isLoose c := by
  rcases exists_of_ofDate? hread with ⟨date, hdate, -⟩
  by_contra hc
  exact absurd (Date.mem_of_ofLooseForm? hdate hc h) List.not_mem_nil

theorem mem_of_readSeparator? {rest : Text} (hread : readSeparator? text = some rest)
    (hc : ¬ isDated c) (hblank : c ≠ ' ') (h : c ∈ text) : c ∈ rest := by
  cases text with
  | nil => cases h
  | cons d tail =>
    rw [readSeparator?] at hread
    split at hread
    · rename_i hmark
      cases hread
      apply (List.mem_cons.1 h).resolve_left
      rintro rfl
      simp only [Bool.or_eq_true, decide_eq_true_eq, hblank, or_false] at hmark
      rcases hmark with rfl | rfl <;> exact hc rfl
    · cases hread

theorem isDated_of_ofFullForm? (hread : ofFullForm? text = some instant) (h : c ∈ text) :
    isDated c := by
  rcases exists_of_ofFullForm? hread with
    ⟨date, behindDate, beforeClock, clock, behindClock, offset, hdate, hseparator, hclock, hoffset, -⟩
  by_contra hc
  have hloose : ¬ isLoose c := by
    intro hloose
    exact hc (by simp [isDated, hloose])
  have hmarks : c ≠ '.' ∧ c ≠ ' ' := by
    constructor <;> rintro rfl <;> exact hc (by decide)
  -- so each part leaves the character over to the next one, and the last one to nothing
  have hbehindDate := Date.mem_of_ofFullForm? hdate hloose h
  have hbeforeClock := mem_of_readSeparator? hseparator hc hmarks.2 hbehindDate
  have hbehindClock := (Clock.of_ofFullForm? hclock).2 c hloose hmarks.1 hbeforeClock
  exact absurd (Clock.mem_of_readOffset? hoffset hc hbehindClock) List.not_mem_nil

theorem ofText?_eq_some_iff : ofText? text = some instant ↔
    ofFullForm? text = some instant ∨ ofFullForm? text = none ∧
      (ofDateAndTime? text = some instant ∨
        ofDateAndTime? text = none ∧ ofDate? text = some instant) := by
  simp [ofText?, Option.or_eq_some_iff]

/-- A text that stands for a point in time holds no other characters. -/
theorem isDated_of_ofText? (hread : ofText? text = some instant) (h : c ∈ text) : isDated c := by
  rcases ofText?_eq_some_iff.1 hread with hfull | ⟨-, hloose | ⟨-, hloose⟩⟩
  · exact isDated_of_ofFullForm? hfull h
  · rw [isDated, isLoose_of_ofDateAndTime? hloose h]
    rfl
  · rw [isDated, isLoose_of_ofDate? hloose h]
    rfl

/-! ## Regular instants -/

/-- What is read as a point in time is regular. -/
theorem regular_of_ofText? (hread : ofText? text = some instant) : instant.Regular := by
  rcases ofText?_eq_some_iff.1 hread with hfull | ⟨-, hloose | ⟨-, hloose⟩⟩
  · rcases exists_of_ofFullForm? hfull with
      ⟨date, _, _, clock, _, offset, -, -, hclock, hoffset, rfl⟩
    exact regular_ofCivil (Clock.of_ofFullForm? hclock).1 date (Clock.emod_of_readOffset? hoffset)
  · rcases exists_of_ofDateAndTime? hloose with ⟨date, _, clock, -, hclock, rfl⟩
    exact regular_ofCivil (Clock.of_ofLooseForm? hclock).1 date rfl
  · rcases exists_of_ofDate? hloose with ⟨date, -, rfl⟩
    exact regular_ofCivil (by decide) date rfl

end Instant

end ListingFilter
