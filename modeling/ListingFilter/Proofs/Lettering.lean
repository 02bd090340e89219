import ListingFilter.Proofs.Trimming
import ListingFilter.Value.Basic

/-!
# Lettering — the characters of written scalars

Numbers, truth values and points in time are written in digits, a few letters, signs, points and
colons alone. So nothing in them is white space, a parenthesis, a comma or the start of an operator,
and they stay in one piece wherever they stand.
-/

namespace ListingFilter

/-- A character that scalars other than texts are written in. -/
def isPlain (c : Char) : Bool :=
  c.isDigit || c.isLower || ['N', 'T', '+', '-', '.', ':'].contains c

/-- What a plain character is not. -/
theorem not_special_of_isPlain {c : Char} (h : isPlain c) :
    isSpace c = false ∧ c ∉ ['(', ')', ',', '=', '!', '<', '>', 'L', 'I', 'H', 'E'] := by
  have hsmall : c.toNat < 123 := by
    simp only [isPlain, Bool.or_eq_true, List.contains_iff_mem, List.mem_cons, List.not_mem_nil,
      or_false] at h
    rcases h with (hdigit | hlower) | rfl | rfl | rfl | rfl | rfl | rfl
    · have hnine : c.toNat ≤ 57 := of_decide_eq_true (Bool.and_eq_true_iff.1 hdigit).2
      omega
    · have hz : c.toNat ≤ 122 := of_decide_eq_true (Bool.and_eq_true_iff.1 hlower).2
      omega
    all_goals decide
  -- few characters are left to go through
  have hall : ∀ n < 123, isPlain (Char.ofNat n) → isSpace (Char.ofNat n) = false ∧
      Char.ofNat n ∉ ['(', ')', ',', '=', '!', '<', '>', 'L', 'I', 'H', 'E'] := by
    decide
  rw [← Char.ofNat_toNat c] at h ⊢
  exact hall c.toNat hsmall h

namespace Text

/-- The text is not empty, and all its characters are plain. -/
structure Plain (text : Text) : Prop where
  ne_nil : text ≠ []
  all : text.all isPlain

theorem Plain.isPlain {text : Text} (h : text.Plain) {c : Char} (hc : c ∈ text) : isPlain c :=
  List.all_eq_true.1 h.all c hc

theorem Plain.tight {text : Text} (h : text.Plain) : text.Tight := by
  apply tight_of_forall
  intro c hc
  rw [(not_special_of_isPlain (h.isPlain hc)).1]
  exact Bool.false_ne_true

theorem Plain.append {a b : Text} (ha : a.Plain) (hb : b.all ListingFilter.isPlain) :
    Plain (a ++ b) := by
  refine ⟨by simp [ha.ne_nil], ?_⟩
  rw [List.all_append, ha.all, hb]
  rfl

/-- A plain text behind a plain mark. -/
theorem Plain.all_cons {text : Text} (h : text.Plain) {mark : Char}
    (hmark : ListingFilter.isPlain mark) :
    List.all (mark :: text) ListingFilter.isPlain := by
  rw [List.all_cons, hmark, h.all]
  rfl

/-! ## Numbers -/

theorem plain_of_digits {text : Text} (hne : text ≠ []) (h : ∀ c ∈ text, c.isDigit) : text.Plain := by
  refine ⟨hne, List.all_eq_true.2 ?_⟩
  intro c hc
  simp [isPlain, h c hc]

theorem isDigit_of_mem_ofNat {n : Nat} {c : Char} (h : c ∈ ofNat n) : c.isDigit :=
  Nat.isDigit_of_mem_toDigits (by decide) (by decide) h

theorem plain_ofNat (n : Nat) : (ofNat n).Plain :=
  plain_of_digits Nat.toDigits_ne_nil fun _ hc => isDigit_of_mem_ofNat hc

theorem isDigit_of_mem_ofNatPadded {width n : Nat} {c : Char} (h : c ∈ ofNatPadded width n) :
    c.isDigit := by
  rcases List.mem_append.1 h with hzero | hdigit
  · obtain rfl : c = '0' := List.eq_of_mem_replicate hzero
    rfl
  · exact isDigit_of_mem_ofNat hdigit

theorem plain_ofNatPadded (width n : Nat) : (ofNatPadded width n).Plain := by
  refine plain_of_digits ?_ fun _ hc => isDigit_of_mem_ofNatPadded hc
  simp [ofNatPadded, (plain_ofNat n).ne_nil]

/-- Digits are read up to the first other character. -/
theorem takeWhile_isDigit_append {digits : Text} (hdigits : ∀ c ∈ digits, c.isDigit) (rest : Text)
    (hrest : ∀ c, rest.head? = some c → ¬ c.isDigit) :
    (digits ++ rest).takeWhile Char.isDigit = digits ∧
      (digits ++ rest).dropWhile Char.isDigit = rest := by
  rw [List.takeWhile_append_of_pos hdigits, List.dropWhile_append_of_pos hdigits]
  cases rest with
  | nil => simp
  | cons c rest => simp [hrest c rfl]

end Text

theorem Decimal.isDigit_of_mem_fractionText {part places : Nat} {c : Char}
    (h : c ∈ fractionText part places) : c.isDigit := by
  rw [fractionText, List.mem_reverse] at h
  have hpadded := (List.dropWhile_suffix _).subset h
  rw [List.mem_reverse, List.mem_append] at hpadded
  rcases hpadded with hzero | hdigit
  · obtain rfl : c = '0' := List.eq_of_mem_replicate hzero
    rfl
  · exact Text.isDigit_of_mem_ofNat hdigit

theorem Decimal.plain_text (decimal : Decimal) : decimal.text.Plain := by
  have hwhole := Text.plain_ofNat (decimal.units / tenTo decimal.places)
  unfold text
  split
  · exact hwhole
  · rename_i hne
    have hfraction := Text.plain_of_digits hne fun c hc => isDigit_of_mem_fractionText hc
    exact hwhole.append (hfraction.all_cons rfl)

theorem Number.plain_text (number : Number) : number.text.Plain := by
  cases number with
  | nan => exact ⟨by simp [text], by decide⟩
  | signed negative rank rank_le =>
    have hvalue : Text.Plain (if rank = Rank.infinite then "inf".toList
        else (Decimal.shortest rank).text) := by
      split
      · exact ⟨by simp, by decide⟩
      · exact Decimal.plain_text _
    unfold text
    cases negative with
    | false => exact hvalue
    | true => exact Text.Plain.append ⟨by simp, by decide⟩ hvalue.all

/-! ## Points in time -/

theorem Date.plain_text (date : Date) : date.text.Plain := by
  have hyear : (yearText date.year).Plain := by
    unfold yearText
    split
    · exact Text.plain_ofNatPadded ..
    · refine ⟨by simp, (Text.plain_ofNatPadded ..).all_cons ?_⟩
      split <;> rfl
  exact (hyear.append ((Text.plain_ofNatPadded ..).all_cons rfl)).append
    ((Text.plain_ofNatPadded ..).all_cons rfl)

theorem Clock.all_fractionText (nanos : Nat) : (fractionText nanos).all isPlain := by
  unfold fractionText
  split
  · rfl
  · split
    · exact (Text.plain_ofNatPadded ..).all_cons rfl
    · split
      · exact (Text.plain_ofNatPadded ..).all_cons rfl
      · exact (Text.plain_ofNatPadded ..).all_cons rfl

theorem Clock.plain_text (clock : Clock) : clock.text.Plain := by
  have hpart : ∀ n : Nat, List.all (':' :: Text.ofNatPadded 2 n) isPlain := by
    intro n
    exact (Text.plain_ofNatPadded 2 n).all_cons rfl
  have hhour := Text.plain_ofNatPadded 2 clock.hour
  exact ((hhour.append (hpart clock.minute)).append (hpart clock.second)).append
    (all_fractionText clock.nanos)

theorem Instant.plain_text (instant : Instant) : instant.text.Plain :=
  (instant.date.plain_text.append (instant.clock.plain_text.all_cons rfl)).append (by decide)

/-! ## Scalars -/

/-- Scalars other than texts are written in plain characters. -/
theorem Scalar.plain_written {scalar : Scalar} (h : scalar.asText? = none) : scalar.written.Plain := by
  cases scalar with
  | text content => cases h
  | number value => exact value.plain_text
  | boolean flag => cases flag <;> exact ⟨by simp [written], by decide⟩
  | instant value => exact value.plain_text

end ListingFilter
