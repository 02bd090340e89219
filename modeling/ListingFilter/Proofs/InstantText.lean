import ListingFilter.Proofs.InstantReading
import ListingFilter.Proofs.Lettering

/-!
# Instant text — instants written and read again

An instant is written in the full form in universal time. Years from 0 to 9999 are written in four
digits there, and the instant is read again (`ofText?_text`). All other years are written with a
sign, which the full form does not admit, and the loose forms do not admit the `T` behind the date;
so the text of such an instant is not read at all (`ofText?_text_eq_none`).
-/

namespace ListingFilter

/-! ## Digits of a fixed width -/

namespace Text

theorem length_ofNatPadded {width n : Nat} (hwidth : 0 < width) (h : n < tenTo width) :
    (ofNatPadded width n).length = width := by
  have hdigits : (ofNat n).length ≤ width := (Nat.length_toDigits_le_iff (by decide) hwidth).2 h
  simp only [ofNatPadded, List.length_append, List.length_replicate]
  omega

theorem digitsValue_ofNatPadded (width n : Nat) : digitsValue (ofNatPadded width n) = n := by
  simp [digitsValue, ofNatPadded, ofNat, Nat.ofDigitChars_append]

/-- A number written in the width that it is read in is read again. -/
theorem fixedNumber?_ofNatPadded {width n : Nat} (hwidth : 0 < width) (h : n < tenTo width)
    (rest : Text) : fixedNumber? width (ofNatPadded width n ++ rest) = some (n, rest) := by
  have hlength := length_ofNatPadded hwidth h
  have htake : (ofNatPadded width n ++ rest).take width = ofNatPadded width n :=
    List.take_left' hlength
  have hdrop : (ofNatPadded width n ++ rest).drop width = rest := List.drop_left' hlength
  have hdigits : (ofNatPadded width n).all Char.isDigit :=
    List.all_eq_true.2 fun c hc => isDigit_of_mem_ofNatPadded hc
  simp only [fixedNumber?, htake, hdrop, hlength, hdigits, digitsValue_ofNatPadded]
  rfl

/-- A number of two digits is read again. -/
theorem fixedNumber?_two {n : Nat} (h : n < 100) (rest : Text) :
    fixedNumber? 2 (ofNatPadded 2 n ++ rest) = some (n, rest) :=
  fixedNumber?_ofNatPadded Nat.two_pos h rest

end Text

open Text

/-! ## Dates and times -/

theorem Date.bounds_of_isValid {date : Date} (h : date.isValid) : date.month ≤ 12 ∧ date.day ≤ 31 := by
  simp only [isValid, Bool.and_eq_true, decide_eq_true_eq] at h
  rcases h with ⟨⟨⟨-, hmonth⟩, -⟩, hlength⟩
  rcases (Option.any_eq_true _ _).1 hlength with ⟨length, hfound, hday⟩
  -- the table of lengths says how many months there are and that none is longer than 31 days
  have hindex : date.month - 1 < 12 := (List.getElem?_eq_some_iff.1 hfound).1
  have hle : length ≤ 31 := by
    have hmem := List.mem_of_getElem? hfound
    simp only [monthLengths, List.mem_cons, List.not_mem_nil, or_false] at hmem
    split at hmem <;> omega
  have hday' : date.day ≤ length := by simpa using hday
  exact ⟨by omega, by omega⟩

/-- A date in a year of four digits is read again. -/
theorem Date.ofFullForm?_text {date : Date} (h : date.isValid) (hyear : 0 ≤ date.year)
    (hfour : date.year ≤ 9999) (rest : Text) :
    ofFullForm? (date.text ++ rest) = some (date, rest) := by
  rcases date with ⟨year, month, day⟩
  rcases bounds_of_isValid h with ⟨hmonth, hday⟩
  simp only at hyear hfour hmonth hday
  have hyearText : yearText year = ofNatPadded 4 year.toNat := if_pos (by simp [hyear, hfour])
  have htoNat : (year.toNat : Int) = year := Int.toNat_of_nonneg hyear
  have hlt : year.toNat < tenTo 4 := by
    change year.toNat < 10000
    omega
  have hmonthLt : month < 100 := by omega
  have hdayLt : day < 100 := by omega
  simp only [ofFullForm?, text, hyearText, List.append_assoc, List.cons_append,
    fixedNumber?_ofNatPadded (Nat.succ_pos 3) hlt, fixedNumber?_two hmonthLt,
    fixedNumber?_two hdayLt, expect?, Option.bind_eq_bind, Option.bind_some, htoNat, h, if_true]
  rfl

namespace Clock

/-- A fraction of so many digits is read as the nanoseconds that it stands for. -/
theorem readFraction?_digits {width value : Nat} (hwidth : 0 < width) (hnine : width ≤ 9)
    (h : value < tenTo width) {rest : Text} (hrest : ∀ c, rest.head? = some c → ¬ c.isDigit) :
    readFraction? ('.' :: ofNatPadded width value ++ rest) =
      some (value * tenTo (9 - width), rest) := by
  have hdigits : ∀ c ∈ ofNatPadded width value, c.isDigit := by
    intro c hc
    exact isDigit_of_mem_ofNatPadded hc
  have htake := (takeWhile_isDigit_append hdigits rest hrest).1
  have hlength := length_ofNatPadded hwidth h
  have hzeros : (ofNatPadded width value ++ List.replicate 9 '0').take 9 =
      ofNatPadded width value ++ List.replicate (9 - width) '0' := by
    rw [List.take_append, hlength, List.take_of_length_le (by omega), List.take_replicate,
      Nat.min_eq_left (by omega)]
  have hvalue : digitsValue (ofNatPadded width value ++ List.replicate (9 - width) '0') =
      value * tenTo (9 - width) := by
    have hread := digitsValue_ofNatPadded width value
    rw [digitsValue] at hread ⊢
    rw [Nat.ofDigitChars_append, hread, Nat.ofDigitChars_replicate_zero, Nat.mul_comm]
    rfl
  have hne : (ofNatPadded width value).isEmpty = false := by
    simpa using (plain_ofNatPadded width value).ne_nil
  rw [List.cons_append, readFraction?]
  simp only [if_true, htake, hne, hzeros, hvalue, List.drop_left]
  rfl

/-- A fraction of a second is read again. -/
theorem readFraction?_fractionText {nanos : Nat} (h : nanos < nanosPerSecond) {rest : Text}
    (hrest : ∀ c, rest.head? = some c → ¬ c.isDigit ∧ c ≠ '.') :
    readFraction? (fractionText nanos ++ rest) = some (nanos, rest) := by
  have hdigit : ∀ c, rest.head? = some c → ¬ c.isDigit := by
    intro c hc
    exact (hrest c hc).1
  unfold nanosPerSecond at h
  unfold fractionText
  split
  · -- no fraction at all
    rename_i hzero
    subst hzero
    cases rest with
    | nil => rfl
    | cons c rest => exact if_neg (hrest c rfl).2
  · -- three, six or nine digits
    split
    · have hthree : nanos / 1000000 < tenTo 3 := by
        change nanos / 1000000 < 1000
        omega
      rw [readFraction?_digits (by omega) (by omega) hthree hdigit]
      congr 2
      change nanos / 1000000 * 1000000 = nanos
      omega
    · split
      · have hsix : nanos / 1000 < tenTo 6 := by
          change nanos / 1000 < 1000000
          omega
        rw [readFraction?_digits (by omega) (by omega) hsix hdigit]
        congr 2
        change nanos / 1000 * 1000 = nanos
        omega
      · have hnine : nanos < tenTo 9 := h
        rw [readFraction?_digits (by omega) (by omega) hnine hdigit]
        congr 2
        exact Nat.mul_one nanos

/-- A time is read again. -/
theorem ofFullForm?_text {clock : Clock} (h : clock.isValid) {rest : Text}
    (hrest : ∀ c, rest.head? = some c → ¬ c.isDigit ∧ c ≠ '.') :
    ofFullForm? (clock.text ++ rest) = some (clock, rest) := by
  rcases clock with ⟨hour, minute, second, nanos⟩
  have hbounds := h
  simp only [isValid, Bool.and_eq_true, decide_eq_true_eq] at hbounds
  rcases hbounds with ⟨⟨⟨hhour, hminute⟩, hsecond⟩, hnanos⟩
  have hhourLt : hour < 100 := by omega
  have hminuteLt : minute < 100 := by omega
  have hsecondLt : second < 100 := by omega
  simp only [ofFullForm?, text, List.append_assoc, List.cons_append, fixedNumber?_two hhourLt,
    fixedNumber?_two hminuteLt, fixedNumber?_two hsecondLt, expect?, Option.bind_eq_bind,
    Option.bind_some, readFraction?_fractionText hnanos hrest, h, if_true]
  rfl

end Clock

/-! ## Instants -/

namespace Instant

variable {instant : Instant}

/-- An instant in a year of four digits is read again. -/
theorem ofText?_text (h : instant.Regular) (hyear : 0 ≤ instant.date.year)
    (hfour : instant.date.year ≤ 9999) : ofText? instant.text = some instant := by
  have hcalendar : calendarYears instant.date.year := by
    simp only [calendarYears, Bool.and_eq_true, decide_eq_true_eq]
    omega
  have hdate : ∀ rest, Date.ofFullForm? (instant.date.text ++ rest) = some (instant.date, rest) :=
    Date.ofFullForm?_text (Date.isValid_ofDays hcalendar) hyear hfour
  have hseparator : ∀ rest, readSeparator? ('T' :: rest) = some rest := fun _ => rfl
  have hplus : ∀ c, "+00:00".toList.head? = some c → ¬ c.isDigit ∧ c ≠ '.' := by
    intro c hc
    obtain rfl : '+' = c := Option.some.inj hc
    decide
  have hclock := Clock.ofFullForm?_text h.isValid_clock hplus
  have hoffset : Clock.readOffset? "+00:00".toList = some (0, []) := by decide
  have hfull : ofFullForm? instant.text = some (ofCivil instant.date instant.clock 0) := by
    simp only [ofFullForm?, text, List.append_assoc, List.cons_append, hdate, hseparator, hclock,
      hoffset, Option.bind_eq_bind, Option.bind_some]
    rfl
  rw [ofText?, hfull, h.ofCivil_date_clock]
  rfl

/-- An instant in any other year is written as a text that is not read. -/
theorem ofText?_text_eq_none (h : ¬ (0 ≤ instant.date.year ∧ instant.date.year ≤ 9999)) :
    ofText? instant.text = none := by
  have hT : 'T' ∈ instant.text := by simp [text]
  -- the text begins with a sign
  have hsign : ∃ sign rest, instant.text = sign :: rest ∧ ¬ sign.isDigit := by
    rw [text, Date.text, Date.yearText, if_neg (by simpa using h)]
    refine ⟨_, _, rfl, ?_⟩
    split <;> decide
  rcases hsign with ⟨sign, rest, htext, hdigit⟩
  have hfixed : fixedNumber? 4 instant.text = none := by
    rw [htext]
    simp [fixedNumber?, hdigit]
  have hfull : ofFullForm? instant.text = none := by
    rw [ofFullForm?, Date.ofFullForm?, hfixed]
    rfl
  rw [Option.eq_none_iff_forall_ne_some]
  intro read hread
  rcases ofText?_eq_some_iff.1 hread with hfull' | ⟨-, hloose | ⟨-, hloose⟩⟩
  · rw [hfull] at hfull'
    cases hfull'
  · exact absurd (isLoose_of_ofDateAndTime? hloose hT) (by decide)
  · exact absurd (isLoose_of_ofDate? hloose hT) (by decide)

/-- Exactly the instants in years of four digits are read again, as they are. -/
theorem ofText?_text_eq_some_iff (h : instant.Regular) {read : Instant} :
    ofText? instant.text = some read ↔
      read = instant ∧ 0 ≤ instant.date.year ∧ instant.date.year ≤ 9999 := by
  by_cases hyear : 0 ≤ instant.date.year ∧ instant.date.year ≤ 9999
  · rw [ofText?_text h hyear.1 hyear.2, Option.some.injEq, and_iff_left hyear]
    exact eq_comm
  · rw [ofText?_text_eq_none hyear]
    simp [hyear]

end Instant

end ListingFilter
