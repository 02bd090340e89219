import ListingFilter.Operator
import ListingFilter.Proofs.Trimming
import Mathlib.Data.List.Induction

/-!
# Occurrence — where an operator stands alone

`Operator.Stands` says that an operator stands alone between two texts, `Operator.StandsIn` that it
does so somewhere in a text. A condition is cut at the first such place (`cut?_eq_some_iff`), and its
operator is the first in the order of search that stands in it (`find?_eq_some_iff`).

An operator ignores a character that neither belongs to it nor touches it. It stands in a text with
such a character exactly if it stands on one side of it (`standsIn_gap_iff`). A gap is a character
that all operators ignore, so white space, parentheses and commas may be put in or taken out around
an operator.
-/

namespace ListingFilter

namespace Operator

/-- The operator stands alone between the two texts, where `previous` is the character before the
first of them. -/
structure Stands (operator : Operator) (previous : Option Char) (before after : Text) : Prop where
  before : ¬ (before.getLast?.or previous).any operator.clings
  after : ¬ after.head?.any operator.clings

/-- The operator stands alone somewhere in the text. -/
def StandsIn (operator : Operator) (text : Text) : Prop :=
  ∃ before after : Text, text = before ++ (operator.symbol ++ after) ∧
    operator.Stands none before after

theorem symbol_ne_nil (operator : Operator) : operator.symbol ≠ [] := by
  cases operator <;> decide

/-- Operators are spelled in characters of one kind. -/
theorem letter_of_mem_symbol {operator : Operator} {c : Char} (h : c ∈ operator.symbol) :
    isWordChar c = operator.isWord ∧ isSymbolChar c = !operator.isWord := by
  have hletters : operator.symbol.all fun c =>
      (isWordChar c == operator.isWord) && (isSymbolChar c == !operator.isWord) := by
    cases operator <;> decide
  have hletter := List.all_eq_true.1 hletters c h
  rwa [Bool.and_eq_true, beq_iff_eq, beq_iff_eq] at hletter

/-! ## The first place -/

theorem after?_eq_some_iff {operator : Operator} {previous : Option Char} {text after : Text} :
    operator.after? previous text = some after ↔
      text = operator.symbol ++ after ∧ operator.Stands previous [] after := by
  unfold after?
  cases hstart : operator.symbol.afterStart? text with
  | none =>
    constructor
    · intro h
      cases h
    · rintro ⟨htext, -⟩
      rw [Text.afterStart?_eq_some_iff.2 htext] at hstart
      cases hstart
  | some rest =>
    have htext := Text.afterStart?_eq_some_iff.1 hstart
    have hstands : operator.Stands previous [] rest ↔
        ¬ (previous.any operator.clings || rest.head?.any operator.clings) := by
      rw [Bool.or_eq_true, not_or]
      constructor
      · rintro ⟨hbefore, hafter⟩
        exact ⟨by simpa using hbefore, hafter⟩
      · rintro ⟨hbefore, hafter⟩
        exact ⟨by simpa using hbefore, hafter⟩
    dsimp only
    constructor
    · intro h
      by_cases hclings : previous.any operator.clings || rest.head?.any operator.clings
      · rw [if_pos hclings] at h
        cases h
      · rw [if_neg hclings] at h
        cases h
        exact ⟨htext, hstands.2 hclings⟩
    · rintro ⟨htext', hstands'⟩
      obtain rfl : rest = after := List.append_cancel_left (htext.symm.trans htext')
      rw [if_neg (hstands.1 hstands')]

/-- The character before a place, one character further on. -/
theorem stands_cons_iff {operator : Operator} {previous : Option Char} {c : Char}
    {before after : Text} :
    operator.Stands previous (c :: before) after ↔ operator.Stands (some c) before after := by
  have hlast : (c :: before).getLast?.or previous = before.getLast?.or (some c) := by
    cases hbefore : before.getLast? <;> simp [List.getLast?_cons, hbefore]
  constructor
  · rintro ⟨hbefore, hafter⟩
    exact ⟨hlast ▸ hbefore, hafter⟩
  · rintro ⟨hbefore, hafter⟩
    exact ⟨hlast ▸ hbefore, hafter⟩

/-- Where a text is cut, the operator stands alone. -/
theorem stands_of_cutAfter? {operator : Operator} {previous : Option Char}
    {text before after : Text} (h : operator.cutAfter? previous text = some (before, after)) :
    text = before ++ (operator.symbol ++ after) ∧ operator.Stands previous before after := by
  induction text generalizing previous before with
  | nil =>
    unfold cutAfter? at h
    split at h
    · rename_i rest hafter
      cases h
      exact after?_eq_some_iff.1 hafter
    · cases h
  | cons c text ih =>
    unfold cutAfter? at h
    split at h
    · rename_i rest hafter
      cases h
      exact after?_eq_some_iff.1 hafter
    · rcases Option.map_eq_some_iff.1 h with ⟨⟨start, rest⟩, hlater, hsame⟩
      cases hsame
      rcases ih hlater with ⟨htext, hstands⟩
      exact ⟨by rw [htext, List.cons_append], stands_cons_iff.2 hstands⟩

/-- A text is cut no later than at any place where the operator stands alone. -/
theorem exists_cutAfter? {operator : Operator} {previous : Option Char} {text before after : Text}
    (htext : text = before ++ (operator.symbol ++ after))
    (hstands : operator.Stands previous before after) :
    ∃ start rest : Text, operator.cutAfter? previous text = some (start, rest) ∧
      start.length ≤ before.length := by
  induction before generalizing previous text with
  | nil =>
    refine ⟨[], after, ?_, Nat.le_refl _⟩
    have hafter := after?_eq_some_iff.2 ⟨htext, hstands⟩
    cases text <;> rw [cutAfter?, hafter]
  | cons c before ih =>
    subst htext
    rw [List.cons_append, cutAfter?]
    cases hhere : operator.after? previous (c :: (before ++ (operator.symbol ++ after))) with
    | some rest => exact ⟨[], rest, rfl, Nat.zero_le _⟩
    | none =>
      rcases ih rfl (stands_cons_iff.1 hstands) with ⟨start, rest, hlater, hle⟩
      refine ⟨c :: start, rest, ?_, Nat.succ_le_succ hle⟩
      simp only [hlater, Option.map_some]

/-- A text is cut at the first place where the operator stands alone. -/
theorem cut?_eq_some_iff {operator : Operator} {text before after : Text} :
    operator.cut? text = some (before, after) ↔
      text = before ++ (operator.symbol ++ after) ∧ operator.Stands none before after ∧
        ∀ start rest : Text, text = start ++ (operator.symbol ++ rest) →
          operator.Stands none start rest → before.length ≤ start.length := by
  constructor
  · intro h
    rcases stands_of_cutAfter? h with ⟨htext, hstands⟩
    refine ⟨htext, hstands, ?_⟩
    intro start rest hsame hother
    rcases exists_cutAfter? hsame hother with ⟨first, last, hcut, hle⟩
    rw [show operator.cutAfter? none text = some (before, after) from h] at hcut
    cases hcut
    exact hle
  · rintro ⟨htext, hstands, hfirst⟩
    rcases exists_cutAfter? htext hstands with ⟨start, rest, hcut, hle⟩
    rcases stands_of_cutAfter? hcut with ⟨htext', hstands'⟩
    have hlength : start.length = before.length :=
      Nat.le_antisymm hle (hfirst start rest htext' hstands')
    rcases List.append_inj (htext'.symm.trans htext) hlength with ⟨rfl, hsame⟩
    obtain rfl : rest = after := List.append_cancel_left hsame
    exact hcut

theorem isSome_cut?_iff {operator : Operator} {text : Text} :
    (operator.cut? text).isSome ↔ operator.StandsIn text := by
  constructor
  · intro h
    rcases Option.isSome_iff_exists.1 h with ⟨⟨before, after⟩, hcut⟩
    rcases stands_of_cutAfter? hcut with ⟨htext, hstands⟩
    exact ⟨before, after, htext, hstands⟩
  · rintro ⟨before, after, htext, hstands⟩
    rcases exists_cutAfter? htext hstands with ⟨start, rest, hcut, -⟩
    exact Option.isSome_iff_exists.2 ⟨_, hcut⟩

/-- The operator found is the first in the order of search that stands alone somewhere. -/
theorem find?_eq_some_iff {operator : Operator} {text : Text} :
    find? text = some operator ↔
      operator.StandsIn text ∧ ∃ earlier later : List Operator,
        searchOrder = earlier ++ operator :: later ∧
          ∀ other ∈ earlier, ¬ other.StandsIn text := by
  rw [find?, List.find?_eq_some_iff_append]
  simp only [isSome_cut?_iff, Bool.not_eq_true', ← Bool.not_eq_true]

/-! ## Gaps -/

/-- The character does not belong to the operator and does not touch it. -/
structure Ignores (operator : Operator) (c : Char) : Prop where
  notMem : c ∉ operator.symbol
  free : ¬ operator.clings c

/-- The character belongs to no operator and touches none. -/
structure Gap (c : Char) : Prop where
  notMem : ∀ operator : Operator, c ∉ operator.symbol
  free : ∀ operator : Operator, ¬ operator.clings c

theorem Gap.ignores {c : Char} (h : Gap c) (operator : Operator) : operator.Ignores c :=
  ⟨h.notMem operator, h.free operator⟩

/-- Symbols ignore all characters that no symbol is made of. -/
theorem ignores_of_not_isSymbolChar {operator : Operator} (hsymbol : ¬ operator.isWord) {c : Char}
    (h : ¬ isSymbolChar c) : operator.Ignores c := by
  rw [Bool.not_eq_true] at hsymbol
  constructor
  · intro hmem
    have hletter := (letter_of_mem_symbol hmem).2
    rw [hsymbol] at hletter
    exact h hletter
  · rwa [clings, hsymbol, if_neg Bool.false_ne_true]

/-- White space is neither a letter nor a numeral. -/
theorem not_isAlphanumeric_of_isSpace {c : Char} (h : isSpace c) : ¬ isAlphanumeric c := by
  rcases Ranges.exists_of_hasCode h with ⟨range, hmem, hlow, hhigh⟩
  -- the code points of white space are few
  have hall : spaceRanges.all fun range =>
      (List.range' range.1 (range.2 + 1 - range.1)).all fun n => !alphanumericRanges.hasCode n := by
    decide +kernel
  have hcode := List.all_eq_true.1 (List.all_eq_true.1 hall range hmem) c.toNat
    (List.mem_range'_1.2 (by omega))
  simpa [isAlphanumeric, Ranges.has] using hcode

theorem gap_of_not_letter {c : Char} (hword : ¬ isWordChar c) (hsymbol : ¬ isSymbolChar c) :
    Gap c := by
  constructor
  · intro operator hmem
    rcases letter_of_mem_symbol hmem with ⟨hkind, hother⟩
    rw [← hkind, Bool.eq_false_iff.2 hword] at hother
    exact hsymbol hother
  · intro operator
    unfold clings
    split
    · exact hword
    · exact hsymbol

theorem gap_of_isSpace {c : Char} (h : isSpace c) : Gap c := by
  have hnot : ∀ d, ¬ isSpace d → c ≠ d := by
    rintro d hd rfl
    exact hd h
  refine gap_of_not_letter ?_ ?_
  · simp [isWordChar, not_isAlphanumeric_of_isSpace h, hnot '_' (by decide), hnot ':' (by decide)]
  · simp [isSymbolChar, hnot '!' (by decide), hnot '<' (by decide), hnot '>' (by decide),
      hnot '=' (by decide)]

/-- A symbol has no white space. -/
theorem tight_symbol (operator : Operator) : operator.symbol.Tight := by
  apply Text.tight_of_forall
  intro c hc hspace
  exact (gap_of_isSpace hspace).notMem operator hc

theorem gap_open : Gap '(' := gap_of_not_letter (by decide) (by decide)

theorem gap_close : Gap ')' := gap_of_not_letter (by decide) (by decide)

theorem gap_comma : Gap ',' := gap_of_not_letter (by decide) (by decide)

theorem gap_space : Gap ' ' := gap_of_isSpace Text.isSpace_blank

/-- A piece without the character lies on one side of it. -/
theorem append_eq_append_cons {before piece after x y : Text} {d : Char} (hd : d ∉ piece)
    (h : before ++ (piece ++ after) = x ++ d :: y) :
    (∃ rest, x = before ++ (piece ++ rest) ∧ after = rest ++ d :: y) ∨
      ∃ start, before = x ++ d :: start ∧ y = start ++ (piece ++ after) := by
  rw [← List.append_assoc, List.append_eq_append_iff] at h
  rcases h with ⟨rest, hx, hafter⟩ | ⟨middle, hpiece, hy⟩
  · exact .inl ⟨rest, by rw [hx, List.append_assoc], hafter⟩
  · cases middle with
    | nil =>
      rw [List.append_nil] at hpiece
      exact .inl ⟨[], by rw [← hpiece, List.append_nil], hy.symm⟩
    | cons c middle =>
      obtain ⟨rfl, rfl⟩ : d = c ∧ y = middle ++ after := by simpa using hy
      rcases List.append_eq_append_iff.1 hpiece with ⟨inside, hx, hpiece'⟩ | ⟨start, hbefore, hpiece'⟩
      · exact absurd (by simp [hpiece']) hd
      · cases start with
        | nil =>
          rw [List.nil_append] at hpiece'
          exact absurd (hpiece' ▸ List.mem_cons_self) hd
        | cons c start =>
          obtain ⟨rfl, rfl⟩ : d = c ∧ middle = start ++ piece := by simpa using hpiece'
          exact .inr ⟨start, hbefore, by rw [List.append_assoc]⟩

variable {operator : Operator}

theorem stands_gap_right_iff {previous : Option Char} {before rest y : Text} {d : Char}
    (hd : operator.Ignores d) :
    operator.Stands previous before (rest ++ d :: y) ↔ operator.Stands previous before rest := by
  have hhead : (rest ++ d :: y).head?.any operator.clings ↔ rest.head?.any operator.clings := by
    cases rest <;> simp [hd.free]
  constructor
  · rintro ⟨hbefore, hafter⟩
    exact ⟨hbefore, fun h => hafter (hhead.2 h)⟩
  · rintro ⟨hbefore, hafter⟩
    exact ⟨hbefore, fun h => hafter (hhead.1 h)⟩

theorem stands_gap_left_iff {x start after : Text} {d : Char} (hd : operator.Ignores d) :
    operator.Stands none (x ++ d :: start) after ↔ operator.Stands none start after := by
  have hlast : ((x ++ d :: start).getLast?.or none).any operator.clings ↔
      (start.getLast?.or none).any operator.clings := by
    cases hstart : start.getLast? <;>
      simp [List.getLast?_append, List.getLast?_cons, hstart, hd.free]
  constructor
  · rintro ⟨hbefore, hafter⟩
    exact ⟨fun h => hbefore (hlast.2 h), hafter⟩
  · rintro ⟨hbefore, hafter⟩
    exact ⟨fun h => hbefore (hlast.1 h), hafter⟩

/-- An operator stands in a text with a gap exactly if it stands on one side of the gap. -/
theorem standsIn_gap_iff {x y : Text} {d : Char} (hd : operator.Ignores d) :
    operator.StandsIn (x ++ d :: y) ↔ operator.StandsIn x ∨ operator.StandsIn y := by
  constructor
  · rintro ⟨before, after, htext, hstands⟩
    rcases append_eq_append_cons (hd.notMem) htext.symm with
      ⟨rest, hx, rfl⟩ | ⟨start, rfl, hy⟩
    · exact .inl ⟨before, rest, hx, (stands_gap_right_iff hd).1 hstands⟩
    · exact .inr ⟨start, after, hy, (stands_gap_left_iff hd).1 hstands⟩
  · rintro (⟨before, after, rfl, hstands⟩ | ⟨before, after, rfl, hstands⟩)
    · exact ⟨before, after ++ d :: y, by simp only [List.append_assoc],
        (stands_gap_right_iff hd).2 hstands⟩
    · exact ⟨x ++ d :: before, after, by simp only [List.append_assoc, List.cons_append],
        (stands_gap_left_iff hd).2 hstands⟩

theorem not_standsIn_nil : ¬ operator.StandsIn [] := by
  rintro ⟨before, after, htext, -⟩
  simp [operator.symbol_ne_nil] at htext

theorem standsIn_cons_gap_iff {text : Text} {d : Char} (hd : operator.Ignores d) :
    operator.StandsIn (d :: text) ↔ operator.StandsIn text := by
  have hgap : operator.StandsIn ([] ++ d :: text) ↔ _ := standsIn_gap_iff hd
  rwa [or_iff_right not_standsIn_nil] at hgap

theorem standsIn_append_gap_iff {text : Text} {d : Char} (hd : operator.Ignores d) :
    operator.StandsIn (text ++ [d]) ↔ operator.StandsIn text := by
  rw [standsIn_gap_iff hd, or_iff_left not_standsIn_nil]

theorem standsIn_append_left_iff {pad text : Text} (h : ∀ d ∈ pad, operator.Ignores d) :
    operator.StandsIn (pad ++ text) ↔ operator.StandsIn text := by
  induction pad with
  | nil => rfl
  | cons c pad ih =>
    rw [List.forall_mem_cons] at h
    rw [List.cons_append, standsIn_cons_gap_iff h.1, ih h.2]

theorem standsIn_append_right_iff {pad text : Text} (h : ∀ d ∈ pad, operator.Ignores d) :
    operator.StandsIn (text ++ pad) ↔ operator.StandsIn text := by
  cases pad with
  | nil => rw [List.append_nil]
  | cons c pad =>
    rw [List.forall_mem_cons] at h
    have hpad : operator.StandsIn (pad ++ []) ↔ _ := standsIn_append_left_iff h.2
    rw [List.append_nil] at hpad
    rw [standsIn_gap_iff h.1, hpad, or_iff_left not_standsIn_nil]

theorem ignores_of_isBlank {pad : Text} (h : pad.isBlank) : ∀ d ∈ pad, operator.Ignores d :=
  fun d hd => (gap_of_isSpace (List.all_eq_true.1 h d hd)).ignores operator

theorem standsIn_blank_append_iff {pad text : Text} (h : pad.isBlank) :
    operator.StandsIn (pad ++ text) ↔ operator.StandsIn text :=
  standsIn_append_left_iff (ignores_of_isBlank h)

theorem standsIn_append_blank_iff {pad text : Text} (h : pad.isBlank) :
    operator.StandsIn (text ++ pad) ↔ operator.StandsIn text :=
  standsIn_append_right_iff (ignores_of_isBlank h)

/-- White space around a text does not matter to the operators in it. -/
theorem standsIn_trim_iff {text : Text} : operator.StandsIn text.trim ↔ operator.StandsIn text := by
  rcases Text.exists_append_trim_append text with ⟨before, after, hbefore, hafter, hjoin⟩
  conv_rhs => rw [← hjoin]
  rw [standsIn_append_blank_iff hafter, standsIn_blank_append_iff hbefore]

/-- Of texts with gaps between them, an operator stands in one. -/
theorem standsIn_intercalate_iff {texts : List Text} {d : Char} (hd : operator.Ignores d) :
    operator.StandsIn ([d].intercalate texts) ↔ ∃ text ∈ texts, operator.StandsIn text := by
  induction texts with
  | nil => simp [not_standsIn_nil]
  | cons first texts ih =>
    cases texts with
    | nil => simp
    | cons second texts =>
      have hjoin : [d].intercalate (first :: second :: texts) =
          first ++ d :: [d].intercalate (second :: texts) := by
        simp [List.intercalate]
      rw [hjoin, standsIn_gap_iff hd, ih]
      exact (List.exists_mem_cons_iff ..).symm

/-! ## An operator beside another -/

/-- All characters of an operator cling to it, and to no operator of the other kind. -/
theorem clings_iff_of_mem_symbol {other : Operator} {c : Char} (h : c ∈ other.symbol) :
    operator.clings c ↔ operator.isWord = other.isWord := by
  rcases letter_of_mem_symbol h with ⟨hword, hsymbol⟩
  unfold clings
  cases operator.isWord <;> cases hother : other.isWord <;> simp [hword, hsymbol, hother]

/-- What stands in the text before an operator still stands there: two operators that touch are of
different kinds. -/
theorem Stands.before_operator {other : Operator} {before after start rest : Text}
    (h : other.Stands none before after) (hbefore : before = start ++ (operator.symbol ++ rest))
    (hstands : operator.Stands none start rest) :
    operator.Stands none start (rest ++ (other.symbol ++ after)) := by
  refine ⟨hstands.before, ?_⟩
  cases rest with
  | cons c rest => exact hstands.after
  | nil =>
    intro hclings
    rcases List.exists_cons_of_ne_nil other.symbol_ne_nil with ⟨c, tail, hsymbol⟩
    have hc : operator.clings c := by simpa [hsymbol] using hclings
    have hkind := (clings_iff_of_mem_symbol (hsymbol ▸ List.mem_cons_self)).1 hc
    -- the last character of the operator would cling to the other one
    apply h.before
    rw [List.append_nil] at hbefore
    have hlast := operator.symbol.getLast_mem operator.symbol_ne_nil
    have hlastClings : other.clings _ := (clings_iff_of_mem_symbol hlast).2 hkind.symm
    rw [hbefore, List.getLast?_append, List.getLast?_eq_some_getLast operator.symbol_ne_nil]
    simpa using hlastClings

theorem Stands.after_operator {other : Operator} {before after start rest : Text}
    (h : other.Stands none before after) (hafter : after = start ++ (operator.symbol ++ rest))
    (hstands : operator.Stands none start rest) :
    operator.Stands none (before ++ (other.symbol ++ start)) rest := by
  refine ⟨?_, hstands.after⟩
  cases hstart : start.getLast? with
  | some c =>
    have hbefore := hstands.before
    rw [hstart] at hbefore
    simpa [List.getLast?_append, hstart] using hbefore
  | none =>
    intro hclings
    have hlast := other.symbol.getLast_mem other.symbol_ne_nil
    have hc : operator.clings (other.symbol.getLast other.symbol_ne_nil) := by
      simpa [List.getLast?_append, hstart, List.getLast?_eq_some_getLast other.symbol_ne_nil]
        using hclings
    have hkind := (clings_iff_of_mem_symbol hlast).1 hc
    -- the first character of the operator would cling to the other one
    apply h.after
    rcases List.exists_cons_of_ne_nil operator.symbol_ne_nil with ⟨d, tail, hsymbol⟩
    have hd : d ∈ operator.symbol := hsymbol ▸ List.mem_cons_self
    have hfirst : other.clings d := (clings_iff_of_mem_symbol hd).2 hkind.symm
    rw [hafter, List.getLast?_eq_none_iff.1 hstart, hsymbol]
    simpa using hfirst

/-- What stands on one side of an operator stands in the whole text. -/
theorem Stands.standsIn_of_before {other : Operator} {before after : Text}
    (h : other.Stands none before after) (hbefore : operator.StandsIn before) :
    operator.StandsIn (before ++ (other.symbol ++ after)) := by
  rcases hbefore with ⟨start, rest, rfl, hstands⟩
  exact ⟨start, _, by simp only [List.append_assoc], h.before_operator rfl hstands⟩

theorem Stands.standsIn_of_after {other : Operator} {before after : Text}
    (h : other.Stands none before after) (hafter : operator.StandsIn after) :
    operator.StandsIn (before ++ (other.symbol ++ after)) := by
  rcases hafter with ⟨start, rest, rfl, hstands⟩
  exact ⟨_, rest, by simp only [List.append_assoc], h.after_operator rfl hstands⟩

/-- Before the place of a cut the operator stands nowhere. -/
theorem not_standsIn_of_cut? {text before after : Text}
    (h : operator.cut? text = some (before, after)) : ¬ operator.StandsIn before := by
  rcases cut?_eq_some_iff.1 h with ⟨rfl, hstands, hfirst⟩
  rintro ⟨start, rest, hbefore, hother⟩
  have hle := hfirst start (rest ++ (operator.symbol ++ after))
    (by rw [hbefore]; simp only [List.append_assoc]) (hstands.before_operator hbefore hother)
  have hpos := List.length_pos_iff.2 operator.symbol_ne_nil
  rw [hbefore] at hle
  simp only [List.length_append] at hle
  omega

/-- Behind a gap before which it does not stand, an operator is cut off at once. -/
theorem cut?_gap {x after : Text} {d : Char} (hd : operator.Ignores d) (hx : ¬ operator.StandsIn x)
    (hafter : ¬ after.head?.any operator.clings) :
    operator.cut? (x ++ d :: (operator.symbol ++ after)) = some (x ++ [d], after) := by
  refine cut?_eq_some_iff.2 ⟨by simp, ⟨by simp [hd.free], hafter⟩, ?_⟩
  intro start rest htext hstands
  rcases append_eq_append_cons (hd.notMem) htext.symm with
    ⟨more, rfl, rfl⟩ | ⟨more, rfl, -⟩
  · exact absurd ⟨start, more, rfl, (stands_gap_right_iff hd).1 hstands⟩ hx
  · simp only [List.length_append, List.length_cons, List.length_nil]
    omega

/-- A gap in front of a text goes to what stands before the place of the cut. -/
theorem cut?_cons_gap {text before after : Text} {d : Char} (hd : operator.Ignores d)
    (h : operator.cut? text = some (before, after)) :
    operator.cut? (d :: text) = some (d :: before, after) := by
  rcases cut?_eq_some_iff.1 h with ⟨rfl, hstands, hfirst⟩
  refine cut?_eq_some_iff.2 ⟨rfl, (stands_gap_left_iff (x := []) hd).2 hstands, ?_⟩
  intro start rest hsame hother
  cases start with
  | nil =>
    -- the operator would begin with the gap
    rcases List.exists_cons_of_ne_nil operator.symbol_ne_nil with ⟨c, tail, hsymbol⟩
    rw [hsymbol] at hsame
    obtain rfl : d = c := (List.cons.inj hsame).1
    exact absurd (hsymbol ▸ List.mem_cons_self) (hd.notMem)
  | cons c start =>
    obtain ⟨rfl, hrest⟩ := List.cons.inj hsame
    exact Nat.succ_le_succ (hfirst start rest hrest ((stands_gap_left_iff (x := []) hd).1 hother))

/-- A gap at the end of a text goes to what stands behind the place of the cut. -/
theorem cut?_append_gap {text before after : Text} {d : Char} (hd : operator.Ignores d)
    (h : operator.cut? text = some (before, after)) :
    operator.cut? (text ++ [d]) = some (before, after ++ [d]) := by
  rcases cut?_eq_some_iff.1 h with ⟨rfl, hstands, hfirst⟩
  refine cut?_eq_some_iff.2 ⟨by simp only [List.append_assoc],
    (stands_gap_right_iff hd).2 hstands, ?_⟩
  intro start rest hsame hother
  rcases append_eq_append_cons (hd.notMem) hsame.symm with
    ⟨more, htext, rfl⟩ | ⟨more, rfl, -⟩
  · exact hfirst start more htext ((stands_gap_right_iff hd).1 hother)
  · simp only [List.length_append]
    omega

/-- Gaps around a text do not matter to where it is cut. -/
theorem cut?_gaps {text before after first last : Text} (hfirst : ∀ d ∈ first, operator.Ignores d)
    (hlast : ∀ d ∈ last, operator.Ignores d) (h : operator.cut? text = some (before, after)) :
    operator.cut? (first ++ (text ++ last)) = some (first ++ before, after ++ last) := by
  induction first with
  | nil =>
    induction last using List.reverseRecOn with
    | nil => simpa using h
    | append_singleton last d ih =>
      have hinner := ih fun c hc => hlast c (List.mem_append_left _ hc)
      have houter := cut?_append_gap (hlast d (by simp)) hinner
      simpa only [List.nil_append, List.append_assoc] using houter
  | cons d first ih =>
    exact cut?_cons_gap (hfirst d List.mem_cons_self)
      (ih fun c hc => hfirst c (List.mem_cons_of_mem _ hc))

end Operator

end ListingFilter
