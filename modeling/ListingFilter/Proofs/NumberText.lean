import ListingFilter.Proofs.Lettering

/-!
# Number text — numbers written and read again

The nearest number to a ratio does not change when both sides of the ratio are multiplied, so zeros
at the end of a decimal fraction do not matter. Hence a decimal written and read again has the same
nearest number, and a finite number, written as its shortest decimal, is read as itself
(`ofText?_text`).
-/

namespace ListingFilter

namespace Rank

/-- A common factor does not change the nearest whole number. -/
theorem nearestEven_mul_right {a b factor : Nat} (h : 0 < factor) :
    nearestEven (a * factor) (b * factor) = nearestEven a b := by
  have hrest : a * factor % (b * factor) = a % b * factor := Nat.mul_mod_mul_right ..
  have hlt : 2 * (a % b * factor) < b * factor ↔ 2 * (a % b) < b := by
    rw [← Nat.mul_assoc]
    exact Nat.mul_lt_mul_right h
  have heq : 2 * (a % b * factor) = b * factor ↔ 2 * (a % b) = b := by
    rw [← Nat.mul_assoc]
    exact Nat.mul_right_cancel_iff h
  simp only [nearestEven, Nat.mul_div_mul_right a b h, hrest, hlt, beq_eq_decide, heq]

/-- A common factor does not change the nearest number. -/
theorem ofRatio_mul_right {a b factor : Nat} (h : 0 < factor) :
    ofRatio (a * factor) (b * factor) = ofRatio a b := by
  have hunits : a * factor * one = a * one * factor := Nat.mul_right_comm ..
  simp only [ofRatio, hunits, Nat.mul_div_mul_right (a * one) b h]
  rw [Nat.mul_right_comm b factor, nearestEven_mul_right h]

end Rank

namespace Decimal

/-- Zeros at the end do not matter. -/
theorem rank_zeros (units places zeros : Nat) :
    (Decimal.mk (units * tenTo zeros) (places + zeros)).rank = (Decimal.mk units places).rank := by
  rw [rank, rank, tenTo_add, Rank.ofRatio_mul_right (tenTo_pos zeros)]

theorem twoTo_dvd_tenTo (n : Nat) : twoTo n ∣ tenTo n := by
  cases n with
  | zero => exact Nat.dvd_refl 1
  | succ n => exact (Nat.pow_dvd_pow_iff (Nat.succ_ne_zero n)).2 (by decide)

/-- The number of this rank in full has this rank. -/
theorem rank_exact (rank : Nat) : (exact rank).rank = rank := by
  rcases twoTo_dvd_tenTo Rank.unitPlaces with ⟨factor, hfactor⟩
  change tenTo Rank.unitPlaces = Rank.one * factor at hfactor
  have hpos : 0 < factor := by
    apply Nat.pos_of_ne_zero
    rintro rfl
    exact absurd (tenTo_pos Rank.unitPlaces) (by rw [hfactor, Nat.mul_zero]; decide)
  rw [exact, Decimal.rank, hfactor, Nat.mul_div_cancel_left factor Rank.one_pos,
    Rank.ofRatio_mul_right hpos, Rank.ofRatio_units]

theorem rank_shortest (rank : Nat) : (shortest rank).rank = rank := by
  unfold shortest
  cases hfound : (Grid.candidates rank).findSome? (Grid.hit? · rank) with
  | none => exact rank_exact rank
  | some decimal =>
    rcases List.exists_of_findSome?_eq_some hfound with ⟨grid, -, hhit⟩
    exact Grid.rank_of_hit? hhit

/-! ## Reading what was written -/

theorem readDigits?_eq_some {text : Text} (hne : text ≠ []) (h : ∀ c ∈ text, c.isDigit) :
    readDigits? text = some (Nat.ofDigitChars 10 text 0) := by
  have hall : text.all Char.isDigit := List.all_eq_true.2 h
  simp [readDigits?, hne, hall]

theorem readPoint_whole {whole : Text} (h : ∀ c ∈ whole, c.isDigit) :
    readPoint whole = (whole, [], []) := by
  rcases Text.takeWhile_isDigit_append h [] (by simp) with ⟨htake, hdrop⟩
  rw [List.append_nil] at htake hdrop
  simp [readPoint, htake, hdrop]

theorem readPoint_point {whole fraction : Text} (hwhole : ∀ c ∈ whole, c.isDigit)
    (hfraction : ∀ c ∈ fraction, c.isDigit) :
    readPoint (whole ++ '.' :: fraction) = (whole, fraction, []) := by
  have hpoint : ∀ c, ('.' :: fraction).head? = some c → ¬ c.isDigit := by
    intro c hc
    obtain rfl : '.' = c := Option.some.inj hc
    decide
  rcases Text.takeWhile_isDigit_append hwhole _ hpoint with ⟨htake, hdrop⟩
  rcases Text.takeWhile_isDigit_append hfraction [] (by simp) with ⟨htakeRest, hdropRest⟩
  rw [List.append_nil] at htakeRest hdropRest
  simp [readPoint, htake, hdrop, htakeRest, hdropRest]

/-- Digits with a point among them are read as the fraction with as many places as there are digits
behind the point. -/
theorem ofText?_of_readPoint {text whole fraction : Text}
    (h : readPoint text = (whole, fraction, [])) (hne : whole ++ fraction ≠ [])
    (hdigits : ∀ c ∈ whole ++ fraction, c.isDigit) :
    ofText? text = some ⟨Nat.ofDigitChars 10 (whole ++ fraction) 0, fraction.length⟩ := by
  have hscaled : scaled (Nat.ofDigitChars 10 (whole ++ fraction) 0)
      (max (-(400 + (whole ++ fraction).length : Int)) (min 400 (0 - fraction.length : Int))) =
        ⟨Nat.ofDigitChars 10 (whole ++ fraction) 0, fraction.length⟩ := by
    have hpower : max (-(400 + (whole ++ fraction).length : Int))
        (min 400 (0 - fraction.length : Int)) = -(fraction.length : Int) := by
      simp only [List.length_append]
      omega
    rw [hpower, scaled]
    cases fraction with
    | nil => simp [tenTo]
    | cons c fraction =>
      have hnegative : -((c :: fraction).length : Int) < 0 := by
        rw [List.length_cons]
        omega
      rw [if_pos hnegative]
      simp
  simp only [ofText?, h, readDigits?_eq_some hne hdigits, readExponent?]
  exact congrArg some hscaled

/-- Only zeros are left out at the end of a text. -/
theorem exists_append_zeros (text : Text) :
    ∃ zeros, (text.reverse.dropWhile (· == '0')).reverse ++ List.replicate zeros '0' = text := by
  have hzeros : text.reverse.takeWhile (· == '0') =
      List.replicate (text.reverse.takeWhile (· == '0')).length '0' := by
    rw [List.eq_replicate_iff]
    refine ⟨rfl, ?_⟩
    intro c hc
    simpa using List.all_eq_true.1 List.all_takeWhile c hc
  refine ⟨(text.reverse.takeWhile (· == '0')).length, ?_⟩
  rw [← List.reverse_replicate, ← hzeros, ← List.reverse_append, List.takeWhile_append_dropWhile,
    List.reverse_reverse]

/-- The digits behind the point are those of the fraction up to the zeros at its end. -/
theorem exists_zeros {part places : Nat} (h : part < tenTo places) :
    ∃ zeros, Nat.ofDigitChars 10 (fractionText part places) 0 * tenTo zeros = part ∧
      (fractionText part places).length + zeros = places := by
  cases places with
  | zero =>
    obtain rfl : part = 0 := Nat.lt_one_iff.1 h
    exact ⟨0, rfl, rfl⟩
  | succ places =>
    have hdigits : (Text.ofNat part).length ≤ places + 1 :=
      (Nat.length_toDigits_le_iff (by decide) (Nat.succ_pos places)).2 h
    rcases exists_append_zeros (List.replicate (places + 1 - (Text.ofNat part).length) '0' ++
      Text.ofNat part) with ⟨zeros, hpadded⟩
    change fractionText part (places + 1) ++ List.replicate zeros '0' = _ at hpadded
    refine ⟨zeros, ?_, ?_⟩
    · -- both sides have the same value
      have hvalue := congrArg (Nat.ofDigitChars 10 · 0) hpadded
      simp only [Nat.ofDigitChars_append, Nat.ofDigitChars_replicate_zero, Text.ofNat,
        Nat.ofDigitChars_ten_toDigits, Nat.mul_zero] at hvalue
      rw [Nat.mul_comm]
      exact hvalue
    · -- and the same length
      have hlength := congrArg List.length hpadded
      simp only [List.length_append, List.length_replicate] at hlength
      omega

theorem readPoint_text (decimal : Decimal) :
    readPoint decimal.text = (Text.ofNat (decimal.units / tenTo decimal.places),
      fractionText (decimal.units % tenTo decimal.places) decimal.places, []) := by
  have hwhole : ∀ c ∈ Text.ofNat (decimal.units / tenTo decimal.places), c.isDigit := by
    intro c hc
    exact Text.isDigit_of_mem_ofNat hc
  unfold text
  split
  · rename_i hnil
    rw [hnil]
    exact readPoint_whole hwhole
  · apply readPoint_point hwhole
    intro c hc
    exact isDigit_of_mem_fractionText hc

/-- The digits before and behind the point, with the zeros left out, make up the units. -/
theorem ofDigitChars_append {whole part places zeros : Nat} {fraction : Text}
    (hvalue : Nat.ofDigitChars 10 fraction 0 * tenTo zeros = part)
    (hlength : fraction.length + zeros = places) :
    Nat.ofDigitChars 10 (Text.ofNat whole ++ fraction) 0 * tenTo zeros =
      tenTo places * whole + part := by
  have hread : Nat.ofDigitChars 10 (Text.ofNat whole ++ fraction) 0 =
      tenTo fraction.length * whole + Nat.ofDigitChars 10 fraction 0 := by
    rw [Nat.ofDigitChars_append, Nat.ofDigitChars_eq_ofDigitChars_zero, Text.ofNat,
      Nat.ofDigitChars_ten_toDigits]
    rfl
  calc
    _ = tenTo (fraction.length + zeros) * whole + Nat.ofDigitChars 10 fraction 0 * tenTo zeros := by
      rw [hread, Nat.add_mul, tenTo_add, Nat.mul_right_comm]
    _ = tenTo places * whole + part := by
      rw [hlength, hvalue]

/-- A decimal written and read again keeps its nearest number. -/
theorem exists_ofText?_text (decimal : Decimal) :
    ∃ read, ofText? decimal.text = some read ∧ read.rank = decimal.rank := by
  have hne : Text.ofNat (decimal.units / tenTo decimal.places) ++
      fractionText (decimal.units % tenTo decimal.places) decimal.places ≠ [] := by
    simp [(Text.plain_ofNat _).ne_nil]
  have hdigits : ∀ c ∈ Text.ofNat (decimal.units / tenTo decimal.places) ++
      fractionText (decimal.units % tenTo decimal.places) decimal.places, c.isDigit := by
    intro c hc
    rcases List.mem_append.1 hc with hwhole | hfraction
    · exact Text.isDigit_of_mem_ofNat hwhole
    · exact isDigit_of_mem_fractionText hfraction
  refine ⟨_, ofText?_of_readPoint (readPoint_text decimal) hne hdigits, ?_⟩
  -- the decimal that is read has no zeros at its end, and they do not matter
  rcases exists_zeros (Nat.mod_lt decimal.units (tenTo_pos decimal.places)) with
    ⟨zeros, hvalue, hlength⟩
  rw [← rank_zeros _ _ zeros, ofDigitChars_append hvalue hlength, hlength, Nat.div_add_mod]

theorem readSign_text (decimal : Decimal) : readSign decimal.text = (false, decimal.text) := by
  have hdigit : ∀ c, decimal.text.head? = some c → c.isDigit := by
    intro c hc
    have hne := (Text.plain_ofNat (decimal.units / tenTo decimal.places)).ne_nil
    have hhead : (Text.ofNat (decimal.units / tenTo decimal.places)).head? = some c := by
      unfold text at hc
      split at hc
      · exact hc
      · rwa [Text.head?_append_of_ne_nil hne] at hc
    exact Text.isDigit_of_mem_ofNat (List.mem_of_head? hhead)
  cases htext : decimal.text with
  | nil => rfl
  | cons c rest =>
    have hc := hdigit c (by rw [htext]; rfl)
    -- a digit is no sign
    rw [readSign, if_neg, if_neg]
    · rintro rfl
      exact absurd hc (by decide)
    · rintro rfl
      exact absurd hc (by decide)

end Decimal

/-- A finite number is read again from its text. -/
theorem Number.ofText?_text {number : Number} (h : number.isFinite) :
    ofText? number.text = some number := by
  have htrim : number.text.trim = number.text := number.plain_text.tight.trim_eq
  cases number with
  | nan => cases h
  | signed negative rank rank_le =>
    have hfinite : rank < Rank.infinite := by simpa [isFinite] using h
    rcases Decimal.exists_ofText?_text (Decimal.shortest rank) with ⟨decimal, hread, hrank⟩
    have hsign : Decimal.readSign (Number.signed negative rank rank_le).text =
        (negative, (Decimal.shortest rank).text) := by
      rw [text, if_neg (Nat.ne_of_lt hfinite)]
      cases negative with
      | false => exact Decimal.readSign_text _
      | true => rfl
    have hnumber : ofRank negative decimal.rank = .signed negative rank rank_le := by
      rw [hrank, Decimal.rank_shortest, ofRank_rank]
    simp only [ofText?, htrim, hsign, hread, hnumber]
    rw [if_pos h]

end ListingFilter
