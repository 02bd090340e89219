import ListingFilter.Text.Space
import Mathlib.Data.List.Basic

/-!
# Trimming — texts without white space at their ends

A text is tight when it neither begins nor ends with white space. Trimming leaves a tight text alone
(`Tight.trim_eq`), it always gives one (`tight_trim`), and that is the one between the white space
(`Tight.trim_pad`).
-/

namespace ListingFilter

namespace Text

/-- The text neither begins nor ends with white space. -/
structure Tight (text : Text) : Prop where
  head : ∀ c, text.head? = some c → ¬ isSpace c
  last : ∀ c, text.getLast? = some c → ¬ isSpace c

/-! ## Single characters -/

theorem isSpace_blank : isSpace ' ' := by decide

theorem isBlank_blank : isBlank [' '] := by
  rw [isBlank, List.all_cons, isSpace_blank]
  rfl

/-- White space is no parenthesis. -/
theorem ne_parenthesis_of_isSpace {c : Char} (h : isSpace c) : c ≠ '(' ∧ c ≠ ')' := by
  have hparens : ¬ isSpace '(' ∧ ¬ isSpace ')' := by decide
  constructor
  · intro hopen
    exact hparens.1 (hopen ▸ h)
  · intro hclose
    exact hparens.2 (hclose ▸ h)

/-! ## One end -/

theorem trimStart_append {before : Text} (h : before.isBlank) (text : Text) :
    trimStart (before ++ text) = trimStart text := by
  rw [trimStart, List.dropWhile_append_of_pos (List.all_eq_true.1 h)]
  rfl

theorem trimEnd_append {after : Text} (h : after.isBlank) (text : Text) :
    trimEnd (text ++ after) = trimEnd text := by
  have hreverse : isBlank after.reverse := by rwa [isBlank_reverse]
  have := trimStart_append hreverse text.reverse
  rw [trimEnd, List.reverse_append]
  exact congrArg List.reverse this

theorem trimStart_eq_self {text : Text} (h : ∀ c, text.head? = some c → ¬ isSpace c) :
    trimStart text = text := by
  cases text with
  | nil => rfl
  | cons c rest => simp [trimStart, h c rfl]

theorem trimEnd_eq_self {text : Text} (h : ∀ c, text.getLast? = some c → ¬ isSpace c) :
    trimEnd text = text := by
  have hstart : trimStart text.reverse = text.reverse :=
    trimStart_eq_self (by simpa [List.head?_reverse] using h)
  have := congrArg List.reverse hstart
  rwa [List.reverse_reverse] at this

theorem head?_trimStart {text : Text} {c : Char} (h : (trimStart text).head? = some c) :
    ¬ isSpace c := by
  induction text with
  | nil => simp [trimStart] at h
  | cons d rest ih =>
    by_cases hd : isSpace d
    · rw [trimStart, List.dropWhile_cons_of_pos hd] at h
      exact ih h
    · rw [trimStart, List.dropWhile_cons_of_neg hd] at h
      obtain rfl : d = c := by simpa using h
      exact hd

theorem getLast?_trimEnd {text : Text} {c : Char} (h : (trimEnd text).getLast? = some c) :
    ¬ isSpace c := by
  rw [trimEnd, List.getLast?_reverse] at h
  exact head?_trimStart h

/-! ## Both ends -/

theorem head?_append_of_ne_nil {a : Text} (h : a ≠ []) (b : Text) : (a ++ b).head? = a.head? := by
  cases a with
  | nil => exact absurd rfl h
  | cons c rest => rfl

theorem getLast?_append_of_ne_nil (a : Text) {b : Text} (h : b ≠ []) :
    (a ++ b).getLast? = b.getLast? := by
  rw [List.getLast?_append, List.getLast?_eq_some_getLast h]
  rfl

@[simp] theorem tight_nil : Tight [] := by
  constructor <;> simp

theorem tight_of_forall {text : Text} (h : ∀ c ∈ text, ¬ isSpace c) : text.Tight := by
  constructor
  · intro c hc
    exact h c (List.mem_of_head? hc)
  · intro c hc
    exact h c (List.mem_of_getLast? hc)

/-- Only the ends count. -/
theorem Tight.append {a b : Text} (ha : a.Tight) (hane : a ≠ []) (between : Text) (hb : b.Tight)
    (hbne : b ≠ []) : Tight (a ++ between ++ b) := by
  constructor
  · intro c hc
    rw [List.append_assoc, head?_append_of_ne_nil hane] at hc
    exact ha.head c hc
  · intro c hc
    rw [getLast?_append_of_ne_nil _ hbne] at hc
    exact hb.last c hc

/-- Parentheses are not white space. -/
theorem tight_group (inner : Text) : Tight ('(' :: inner ++ [')']) := by
  constructor
  · intro c hc hspace
    obtain rfl : '(' = c := by simpa using hc
    exact (ne_parenthesis_of_isSpace hspace).1 rfl
  · intro c hc hspace
    obtain rfl : ')' = c := by rwa [List.getLast?_concat, Option.some.injEq] at hc
    exact (ne_parenthesis_of_isSpace hspace).2 rfl

theorem Tight.trim_eq {text : Text} (h : text.Tight) : text.trim = text := by
  rw [trim, trimStart_eq_self h.head, trimEnd_eq_self h.last]

/-- White space around a tight text is taken off. -/
theorem Tight.trim_pad {before text after : Text} (h : text.Tight) (hbefore : before.isBlank)
    (hafter : after.isBlank) : trim (before ++ text ++ after) = text := by
  rw [trim, List.append_assoc, trimStart_append hbefore]
  cases text with
  | nil => rw [List.nil_append, trimEnd_eq_nil_iff, isBlank_trimStart, hafter]
  | cons c rest =>
    rw [trimStart_eq_self (by simpa using h.head c rfl), trimEnd_append hafter,
      trimEnd_eq_self h.last]

theorem tight_trim (text : Text) : text.trim.Tight := by
  refine ⟨?_, fun c hc => getLast?_trimEnd hc⟩
  -- the first character is not taken off at the end
  intro c hc
  obtain ⟨after, -, hjoin⟩ := exists_trimEnd_append (trimStart text)
  obtain ⟨rest, hrest⟩ := List.head?_eq_some_iff.1 hc
  have hstart : (trimStart text).head? = some c := by
    rw [← hjoin, show trimEnd (trimStart text) = c :: rest from hrest]
    rfl
  exact head?_trimStart hstart

@[simp] theorem trim_trim (text : Text) : text.trim.trim = text.trim :=
  (tight_trim text).trim_eq

@[simp] theorem isBlank_trim (text : Text) : text.trim.isBlank = text.isBlank := by
  rw [Bool.eq_iff_iff, ← trim_eq_nil_iff, ← trim_eq_nil_iff, trim_trim]

/-- White space around a text does not matter to what is left of it. -/
theorem trim_pad {before after : Text} (hbefore : before.isBlank) (hafter : after.isBlank)
    (text : Text) : trim (before ++ text ++ after) = text.trim := by
  rcases exists_append_trim_append text with ⟨start, rest, hstart, hrest, hjoin⟩
  have hpads : isBlank (before ++ start) ∧ isBlank (rest ++ after) := by
    simp [hbefore, hstart, hrest, hafter]
  have htrim := (tight_trim text).trim_pad hpads.1 hpads.2
  rw [← htrim]
  conv_lhs => rw [← hjoin]
  simp only [List.append_assoc]

/-- A character at the start that is no white space stays there. -/
theorem head?_trim {text : Text} {c : Char} (h : text.head? = some c) (hc : ¬ isSpace c) :
    text.trim.head? = some c := by
  rcases exists_append_trim_append text with ⟨before, after, hbefore, hafter, hjoin⟩
  have hnil : before = [] := by
    cases before with
    | nil => rfl
    | cons d before =>
      rw [← hjoin] at h
      rw [← Option.some.inj h] at hc
      exact absurd (List.all_eq_true.1 hbefore d (by simp)) hc
  rw [hnil, List.nil_append] at hjoin
  have hne : text.trim ≠ [] := by
    intro htrim
    rw [htrim, List.nil_append] at hjoin
    rw [← hjoin] at h
    exact hc (List.all_eq_true.1 hafter c (List.mem_of_head? h))
  rw [← hjoin, head?_append_of_ne_nil hne] at h
  exact h

theorem length_trim_le (text : Text) : text.trim.length ≤ text.length := by
  rcases exists_append_trim_append text with ⟨before, after, -, -, hjoin⟩
  have := congrArg List.length hjoin
  simp only [List.length_append] at this
  omega

end Text

end ListingFilter
