import ListingFilter.Proofs.Clauses
import ListingFilter.Proofs.Grammar

/-!
# Phrases — conditions put together from their parts

A clause is written with a space on both sides of its operator. If nothing severs the field and the
value, and the field has no parentheses, the written clause is an atom (`Clause.isAtom_written`). If
no operator stands in the field or in the value, it is cut again at the operator between them
(`Clause.read_written`). What is left of reading it is to read the value, which is one equation for
lists and one for single items (`Value.read_list`, `Value.read_single`).
-/

namespace ListingFilter

/-! ## Whole texts with spaces between them -/

/-- Whole texts with a space between them are whole. -/
theorem Text.Whole.append_space {spelling : Spelling} {a b : Text} (ha : a.Whole spelling)
    (hb : b.Whole spelling) : Whole spelling (a ++ ' ' :: b) := by
  have hspaced : Whole spelling ([' '] ++ b) := (whole_append_left_iff isBlank_blank).2 hb
  refine ha.append hspaced (.inr ?_)
  intro c hc
  obtain rfl : ' ' = c := by simpa using hc
  exact Spelling.lacks_of_isSpace isSpace_blank

/-- A text that begins with another one is no group, if there is no parenthesis in the first. -/
theorem Text.append_ne_group {front rest inner : Text} (hne : front ≠ []) (hopen : '(' ∉ front) :
    front ++ rest ≠ '(' :: inner ++ [')'] := by
  rintro hgroup
  rcases List.exists_cons_of_ne_nil hne with ⟨c, tail, rfl⟩
  obtain rfl : c = '(' := (List.cons.inj hgroup).1
  exact hopen List.mem_cons_self

/-- No connective severs the symbol of an operator. -/
theorem Operator.whole_symbol (spelling : Spelling) (operator : Operator) :
    operator.symbol.Whole spelling := by
  have hsegments : operator.symbol.segments spelling = .ok ⟨operator.symbol, []⟩ := by
    cases spelling <;> cases operator <;> decide +kernel
  exact (Text.segments_self_iff.1 hsegments).whole

/-- Symbols do not stand in a text without their characters. -/
theorem Operator.not_standsIn_of_not_isSymbolChar {operator : Operator} {text : Text}
    (hword : ¬ operator.isWord) (h : ∀ c ∈ text, ¬ isSymbolChar c) : ¬ operator.StandsIn text := by
  have hignores : ∀ c ∈ text, operator.Ignores c := fun c hc =>
    ignores_of_not_isSymbolChar hword (h c hc)
  have hnil : operator.StandsIn (text ++ []) ↔ _ := standsIn_append_left_iff hignores
  rw [List.append_nil] at hnil
  exact mt hnil.1 not_standsIn_nil

/-- The text can stand beside an operator, since no operator stands in it and no connective severs
it. -/
structure Text.IsOperand (spelling : Spelling) (text : Text) : Prop where
  /-- The text has none of the characters that symbols are made of. -/
  no_symbol : ∀ c ∈ text, ¬ Operator.isSymbolChar c
  /-- No operator that is a word stands alone in it. -/
  no_word : ∀ operator : Operator, operator.isWord → ¬ operator.StandsIn text
  /-- The text is its own only segment, so it is balanced and tight and not empty. -/
  segments : text.segments spelling = .ok ⟨text, []⟩

namespace Text.IsOperand

variable {spelling : Spelling} {text : Text}

theorem isSegment (h : text.IsOperand spelling) : text.IsSegment spelling :=
  segments_self_iff.1 h.segments

theorem not_standsIn (h : text.IsOperand spelling) (operator : Operator) :
    ¬ operator.StandsIn text := by
  by_cases hword : operator.isWord
  · exact h.no_word operator hword
  · exact Operator.not_standsIn_of_not_isSymbolChar hword h.no_symbol

end Text.IsOperand

/-- A text is an operand if no operator is found in it, besides what is said of its characters. -/
theorem Text.isOperand_iff {spelling : Spelling} {text : Text} :
    text.IsOperand spelling ↔
      text.all (fun c => !Operator.isSymbolChar c) ∧ Operator.find? text = none ∧
        text.segments spelling = .ok ⟨text, []⟩ := by
  constructor
  · intro h
    exact ⟨by simpa using h.no_symbol, Operator.find?_eq_none_iff.2 h.not_standsIn, h.segments⟩
  · rintro ⟨hsymbol, hnone, hsegments⟩
    exact ⟨by simpa using hsymbol, fun operator _ => Operator.find?_eq_none_iff.1 hnone operator,
      hsegments⟩

instance (spelling : Spelling) (text : Text) : Decidable (text.IsOperand spelling) :=
  decidable_of_iff _ Text.isOperand_iff.symm

/-! ## Written clauses -/

namespace Clause

variable {spelling : Spelling} {clause : Clause}

/-- The written form, with a space on both sides of the operator. -/
def written (clause : Clause) : Text :=
  clause.field ++ ' ' :: (clause.operator.symbol ++ ' ' :: clause.value)

/-- A written clause is an atom, if its field and its value are segments and the field does not begin
with a parenthesis. -/
theorem isAtom_written (hfield : clause.field.IsSegment spelling) (hopen : '(' ∉ clause.field)
    (hvalue : clause.value.IsSegment spelling) : clause.written.IsAtom spelling := by
  refine ⟨⟨by simp [written], ?_, ?_⟩, ?_⟩
  · have hends := hfield.tight.append hfield.ne_nil (' ' :: clause.operator.symbol ++ [' '])
      hvalue.tight hvalue.ne_nil
    simpa [written] using hends
  · exact hfield.whole.append_space ((clause.operator.whole_symbol spelling).append_space hvalue.whole)
  · exact fun inner _ => Text.append_ne_group hfield.ne_nil hopen

/-- In a written clause stand the operators of its parts. -/
theorem standsIn_written_iff {operator : Operator} :
    operator.StandsIn clause.written ↔
      operator.StandsIn clause.field ∨ operator = clause.operator ∨
        operator.StandsIn clause.value := by
  have hsymbol : operator.StandsIn clause.operator.symbol ↔ operator = clause.operator := by
    constructor
    · exact Operator.eq_of_standsIn_symbol
    · rintro rfl
      exact Operator.standsIn_symbol _
  rw [written, Operator.standsIn_gap_iff (Operator.gap_space.ignores _),
    Operator.standsIn_gap_iff (Operator.gap_space.ignores _), hsymbol]

/-- A written clause is read again, if no operator stands in its field or in its value. -/
theorem read_written (hfield : clause.field.IsSegment spelling)
    (hvalue : clause.value.IsSegment spelling)
    (hnone : ∀ operator : Operator, ¬ operator.StandsIn clause.field)
    (hnone' : ∀ operator : Operator, ¬ operator.StandsIn clause.value) :
    Clause.read clause.written = .ok clause := by
  have hstands : ∀ operator : Operator,
      operator.StandsIn clause.written ↔ operator = clause.operator := by
    intro operator
    rw [standsIn_written_iff, or_iff_right (hnone operator), or_iff_left (hnone' operator)]
  have hfind : Operator.find? clause.written = some clause.operator := by
    obtain ⟨earlier, later, horder⟩ := List.append_of_mem (Operator.mem_searchOrder clause.operator)
    refine Operator.find?_eq_some_iff.2 ⟨(hstands _).2 rfl, earlier, later, horder, ?_⟩
    intro other hother hstandsOther
    rw [(hstands other).1 hstandsOther] at hother
    exact Operator.not_mem_earlier horder hother
  have hcut : clause.operator.cut? clause.written =
      some (clause.field ++ [' '], ' ' :: clause.value) :=
    Operator.cut?_gap (Operator.gap_space.ignores _) (hnone _) (by simp [Operator.gap_space.free])
  have hfieldTrim : (clause.field ++ [' ']).trim = clause.field :=
    hfield.tight.trim_pad Text.isBlank_nil Text.isBlank_blank
  have hvalueTrim : Text.trim ([' '] ++ clause.value ++ []) = clause.value :=
    hvalue.tight.trim_pad Text.isBlank_blank Text.isBlank_nil
  rw [List.append_nil] at hvalueTrim
  refine read_eq_ok_iff.2 ⟨hfind, _, _, hcut, ?_, .inr ?_, hfieldTrim.symm, hvalueTrim.symm⟩
  · intro hblank
    exact hfield.ne_nil (hfieldTrim.symm.trans (Text.trim_eq_nil_iff.2 hblank))
  · intro hblank
    exact hvalue.ne_nil (hvalueTrim.symm.trans (Text.trim_eq_nil_iff.2 hblank))

end Clause

/-! ## What is left to read -/

/-- A condition is read from its clause by reading the value. -/
theorem Condition.read_of_clause {text : Text} {clause : Clause}
    (h : Clause.read text = .ok clause)
    (hallows : (Field.ofToken clause.field).kind.allows clause.operator) :
    Condition.read text = do
      let value ← Value.read clause.value (Field.ofToken clause.field) clause.operator
      let proviso ← Proviso.find? (Field.ofToken clause.field) clause.operator value
      return ⟨Field.ofToken clause.field, clause.operator, value, proviso⟩ := by
  rw [Condition.read, h]
  show (if (!_) = true then _ else _) = _
  rw [hallows]
  rfl

namespace Value

variable {text : Text} {field : Field} {operator : Operator}

/-- A list is read item by item. Only `EXISTS` takes one without items. -/
theorem read_list (h : field.takesList operator) :
    Value.read text field operator =
      if operator ≠ .exists ∧ text.strip.listItems = [] then
        .error (.malformed text.trim .missingValue)
      else .list <$> text.strip.listItems.mapM (field.readItem operator) := by
  have hempty : text.strip = [] → text.strip.listItems = [] := by
    intro hstrip
    rw [hstrip]
    decide
  rw [read_eq, readStripped_eq, if_pos h]
  by_cases hexists : operator = .exists
  · simp only [hexists, ne_eq, not_true, false_and, if_false]
    cases text.strip.listItems.mapM (field.readItem .exists) <;> rfl
  · simp only [ne_eq, hexists, not_false_iff, true_and]
    cases hitems : text.strip.listItems.mapM (field.readItem operator) with
    | error fault =>
      have hne : text.strip.listItems ≠ [] := by
        intro hnil
        rw [hnil] at hitems
        cases hitems
      rw [if_neg hne, if_neg (mt hempty hne)]
      rfl
    | ok items =>
      have hlength : (list items).isEmpty ↔ text.strip.listItems = [] := by
        rw [isEmpty, List.isEmpty_iff, ← List.length_eq_zero_iff, ← List.length_eq_zero_iff,
          (mapM_eq_ok_iff.1 hitems).length_eq]
      show ite _ _ (if (list items).isEmpty then _ else _) = _
      by_cases hnil : text.strip.listItems = []
      · -- refused before the items are read, or as an empty value
        rw [if_pos hnil, if_pos (hlength.2 hnil), ite_self]
      · rw [if_neg hnil, if_neg (mt hempty hnil), if_neg (mt hlength.1 hnil)]
        rfl

/-- A single item is read as it is. Only `EXISTS` takes an empty one. -/
theorem read_single (h : ¬ field.takesList operator) :
    Value.read text field operator =
      if operator ≠ .exists ∧ text.strip = [] then .error (.malformed text.trim .missingValue)
      else .single <$> field.readItem operator text.strip := by
  rw [read_eq, readStripped_eq, if_neg h]
  by_cases hempty : operator ≠ .exists ∧ text.strip = []
  · rw [if_pos hempty, if_pos hempty]
  · rw [if_neg hempty, if_neg hempty]
    cases hitem : field.readItem operator text.strip with
    | error fault => rfl
    | ok scalar =>
      -- what is read is not empty, since the text is not
      have hscalar : ¬ (operator ≠ .exists ∧ (single scalar).isEmpty) := by
        rintro ⟨hexists, hblank⟩
        rcases field.readItem_cases operator with htexts | htyped
        · rw [htexts] at hitem
          cases hitem
          have htrim := Text.trim_eq_nil_iff.2 hblank
          rw [(Text.tight_strip text).trim_eq] at htrim
          exact hempty ⟨hexists, htrim⟩
        · have hnone := htyped _ _ hitem
          cases scalar <;> simp [isEmpty, Scalar.asText?] at hblank hnone
      show ite _ _ _ = _
      rw [if_neg hscalar]
      rfl

end Value

end ListingFilter
