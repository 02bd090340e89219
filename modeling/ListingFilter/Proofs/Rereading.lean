import ListingFilter.Proofs.Clauses

/-!
# Rereading — conditions written and read again

The written form of a condition that was read is cut into the same field and operator, so it is read
as the same condition exactly if the value comes back (`Condition.read_written`,
`Condition.enclosed_and_yearFits_of_read_written`).

Whatever becomes of the value, the written form of a condition that was read from a balanced text is
balanced (`Condition.balanced_written`): the parentheses that are lost are those of the value alone.
-/

namespace ListingFilter

/-! ## Reading the written form -/

theorem Value.written_of_scalars_eq_nil {value : Value} (h : value.scalars = []) :
    value.written = "()".toList := by
  cases value with
  | single scalar => cases h
  | list items =>
    obtain rfl : items = [] := h
    rfl

namespace Condition

variable {text : Text} {condition : Condition}

/-- A value that is not shown is read as if it were. -/
theorem read_shownValue_iff {read : Value} :
    Value.read condition.shownValue condition.field condition.operator = .ok read ↔
      Value.read condition.value.written condition.field condition.operator = .ok read := by
  by_cases hhidden : condition.operator = .exists && condition.value.scalars.isEmpty
  · have hshown : condition.shownValue = [] := if_pos hhidden
    rw [Bool.and_eq_true, decide_eq_true_eq, List.isEmpty_iff] at hhidden
    rcases hhidden with ⟨hexists, hscalars⟩
    -- nothing and a list of nothing are the same when they are stripped
    have hstrip : Text.strip "()".toList = Text.strip [] := by decide
    rw [hshown, Value.written_of_scalars_eq_nil hscalars, hexists, Value.read_eq_ok_iff,
      Value.read_eq_ok_iff, hstrip]
  · rw [show condition.shownValue = condition.value.written from if_neg hhidden]

/-- The written form is read as the field and the operator of the condition, with what is read of
the written value. -/
theorem read_written_eq_ok_iff (h : Condition.read text = .ok condition) {read : Condition} :
    Condition.read condition.written = .ok read ↔
      read.field = condition.field ∧ read.operator = condition.operator ∧
        Value.read condition.value.written condition.field condition.operator = .ok read.value ∧
        Proviso.find? condition.field condition.operator read.value = .ok read.proviso := by
  rcases read_eq_ok_iff.1 h with ⟨clause, -, hfield, -, hallows, -, -⟩
  have htoken : Field.ofToken condition.field.token = condition.field := by
    rw [hfield, Field.token_ofToken]
  rw [read_eq_ok_iff]
  simp only [clause_written h, Except.ok.injEq, exists_eq_left', htoken]
  constructor
  · rintro ⟨hfield', hoperator', -, hvalue, hproviso⟩
    rw [hfield', hoperator'] at hvalue hproviso
    exact ⟨hfield', hoperator', read_shownValue_iff.1 hvalue, hproviso⟩
  · rintro ⟨hfield', hoperator', hvalue, hproviso⟩
    rw [hfield', hoperator']
    exact ⟨rfl, rfl, hallows, read_shownValue_iff.2 hvalue, hproviso⟩

/-- A condition is read again from its written form, if the value is enclosed as it should be and
all years fit. -/
theorem read_written (h : Condition.read text = .ok condition) (hvalue : condition.value.Enclosed)
    (hyears : ∀ scalar ∈ condition.value.scalars, scalar.YearFits) :
    Condition.read condition.written = .ok condition := by
  rcases read_eq_ok_iff.1 h with ⟨clause, -, -, -, -, hread, hproviso⟩
  exact (read_written_eq_ok_iff h).2 ⟨rfl, rfl, Value.read_written hread hvalue hyears, hproviso⟩

/-- A condition that is the same when it is read again has a value that is written as it should
be. -/
theorem enclosed_and_yearFits_of_read_written (h : Condition.read text = .ok condition)
    {read : Condition} (hread : Condition.read condition.written = .ok read)
    (hsame : read.same condition) :
    condition.value.Enclosed ∧ ∀ scalar ∈ condition.value.scalars, scalar.YearFits := by
  rcases read_eq_ok_iff.1 h with ⟨clause, -, -, -, -, hvalue, -⟩
  rcases (read_written_eq_ok_iff h).1 hread with ⟨-, -, hagain, -⟩
  simp only [same, Bool.and_eq_true] at hsame
  exact Value.enclosed_and_yearFits_of_read_written hvalue hagain hsame.1.2

/-- A condition that was read equals itself. -/
theorem same_of_read (h : Condition.read text = .ok condition) : condition.same condition := by
  rcases read_eq_ok_iff.1 h with ⟨clause, -, -, -, -, hvalue, -⟩
  have hsame := Value.same_of_readStripped (Value.read_eq_ok_iff.1 hvalue).1
  simp [same, hsame]

end Condition

/-! ## Parentheses -/

theorem Operator.parentheses_symbol (operator : Operator) : operator.symbol.parentheses = [] := by
  apply Text.parentheses_eq_nil_iff.2
  intro c hc
  constructor
  · rintro rfl
    exact gap_open.notMem operator hc
  · rintro rfl
    exact gap_close.notMem operator hc

namespace Field

variable {field : Field} {operator : Operator}

/-- Where items are not texts, there are no parentheses in the field, or none in the items. -/
theorem parentheses_of_typed (htyped : ∀ text scalar,
    field.readItem operator text = .ok scalar → scalar.asText? = none) :
    field.token.parentheses = [] ∨
      ∀ text scalar, field.readItem operator text = .ok scalar → text.parentheses = [] := by
  rcases field.readItem_eq operator with htexts | ⟨name, rfl, hread⟩
  · have hnone := htyped [] (.text []) (by rw [htexts])
    cases hnone
  · rw [hread] at htyped ⊢
    unfold token
    cases htype : ScalarType.ofColumn name with
    | text =>
      have hnone := htyped [] (.text []) (by rw [Scalar.read, htype])
      cases hnone
    | instant =>
      right
      intro text scalar h
      rcases Scalar.read_eq_ok_iff.1 h with ⟨hscalar, hfrom⟩
      rw [htype] at hscalar
      cases scalar with
      | text | number | boolean => cases hscalar
      | instant value =>
        apply Text.parentheses_eq_nil_iff.2
        intro c hc
        have hdated := Instant.isDated_of_ofText? hfrom hc
        constructor <;> rintro rfl <;> exact absurd hdated (by decide)
    | number | boolean =>
      -- these columns have fixed names
      left
      unfold ScalarType.ofColumn at htype
      split at htype
      · rename_i hname
        rw [Bool.or_eq_true, decide_eq_true_eq, decide_eq_true_eq] at hname
        rcases hname with rfl | rfl <;> decide
      · split at htype
        · rename_i hname
          rw [hname]
          decide
        · split at htype <;> cases htype

end Field

namespace Value

variable {field : Field} {operator : Operator} {text : Text} {value : Value}

/-- Where items are not texts, there are no parentheses in the field, or none in the value. -/
theorem parentheses_of_typed (h : readStripped text field operator = .ok value)
    (htyped : ∀ text scalar, field.readItem operator text = .ok scalar → scalar.asText? = none) :
    field.token.parentheses = [] ∨ text.parentheses = [] := by
  refine (Field.parentheses_of_typed htyped).imp_right fun hitems => ?_
  by_cases hlist : field.takesList operator
  · rcases (readStripped_list_iff hlist).1 h with ⟨items, hread, -⟩
    rw [← Text.parentheses_listItems, Text.parentheses_intercalate, List.flatMap_eq_nil_iff]
    intro item hitem
    rcases exists_ok_of_mapM_eq_ok hread hitem with ⟨scalar, -, hscalar⟩
    exact hitems item scalar hscalar
  · rcases (readStripped_single_iff hlist).1 h with ⟨scalar, hscalar, -⟩
    exact hitems text scalar hscalar

/-- The field of a value whose items are not texts is balanced by itself. -/
theorem balanced_token_of_typed (h : readStripped text field operator = .ok value)
    (htyped : ∀ text scalar, field.readItem operator text = .ok scalar → scalar.asText? = none)
    (htext : Text.Balanced (field.token ++ text)) : field.token.Balanced := by
  rcases parentheses_of_typed h htyped with hfield | hvalue
  · exact Text.balanced_of_parentheses hfield
  · exact (Text.append_balanced_iff (Text.balanced_of_parentheses hvalue)).1 htext

/-- Scalars that are not texts bring no parentheses into the written form. -/
theorem balanced_written_of_typed (h : readStripped text field operator = .ok value)
    (htyped : ∀ text scalar, field.readItem operator text = .ok scalar → scalar.asText? = none) :
    value.written.Balanced := by
  have hplain := plain_of_typed h htyped
  cases value with
  | single scalar =>
    exact Text.balanced_of_parentheses (hplain scalar (List.mem_singleton.2 rfl)).parentheses
  | list items =>
    have hnil := Text.parentheses_intercalate_of_plain (List.forall_mem_map.2 hplain)
    exact (Text.balanced_of_parentheses hnil).group

/-- Behind the field, the written form of a value is balanced if the stripped text was. -/
theorem balanced_written (h : readStripped text field operator = .ok value)
    (htext : Text.Balanced (field.token ++ text)) :
    Text.Balanced (field.token ++ value.written) := by
  rcases field.readItem_cases operator with htexts | htyped
  · by_cases hlist : field.takesList operator
    · rcases (readStripped_list_iff hlist).1 h with ⟨items, hitems, rfl⟩
      rw [Field.mapM_readItem_of_texts htexts] at hitems
      cases hitems
      -- the items hold the parentheses of the text, and a pair is put around them
      refine (Text.balanced_iff_of_parentheses_eq ?_).2 (Text.balanced_append_group htext)
      rw [written_texts, List.append_assoc, Text.parentheses_append field.token,
        Text.parentheses_append field.token, Text.parentheses_group, Text.parentheses_group,
        Text.parentheses_listItems]
    · rcases (readStripped_single_iff hlist).1 h with ⟨scalar, hscalar, rfl⟩
      rw [htexts] at hscalar
      cases hscalar
      exact htext
  · exact (balanced_token_of_typed h htyped htext).append (balanced_written_of_typed h htyped)

end Value

namespace Condition

variable {text : Text} {condition : Condition}

/-- The parentheses of the written form are in the field and behind the operator. -/
theorem parentheses_written (condition : Condition) :
    condition.written.parentheses =
      condition.field.token.parentheses ++ condition.tail.parentheses := by
  have hspaced : Text.parentheses (' ' :: (condition.operator.symbol ++ condition.tail)) =
      Text.parentheses (condition.operator.symbol ++ condition.tail) := rfl
  rw [written_eq, Text.parentheses_append, hspaced, Text.parentheses_append,
    Operator.parentheses_symbol, List.nil_append]

/-- The written form of a condition that was read from a balanced text is balanced. -/
theorem balanced_written (h : Condition.read text = .ok condition) (htext : text.Balanced) :
    condition.written.Balanced := by
  rcases exists_of_read h with ⟨before, after, -, hcut, -, htoken, -, hvalue⟩
  -- the field and the stripped value have the parentheses of the text, but for one pair
  have hstripped : Text.Balanced (condition.field.token ++ after.trim.strip) := by
    refine Text.balanced_append_strip ((Text.balanced_iff_of_parentheses_eq ?_).1 htext)
    rw [Operator.eq_append_of_cut? hcut, htoken]
    simp [Operator.parentheses_symbol]
  have hread := (Value.read_eq_ok_iff.1 hvalue).1
  have hwritten := Value.balanced_written hread hstripped
  by_cases hhidden : condition.operator = .exists && condition.value.scalars.isEmpty
  · -- the value that is not shown is a pair of parentheses
    have htail : condition.tail = [] := if_pos hhidden
    rw [Bool.and_eq_true, List.isEmpty_iff] at hhidden
    have hpair : Text.Balanced "()".toList := Text.balanced_nil.group
    rw [Value.written_of_scalars_eq_nil hhidden.2, Text.append_balanced_iff hpair] at hwritten
    refine (Text.balanced_iff_of_parentheses_eq ?_).2 hwritten
    rw [parentheses_written, htail]
    exact List.append_nil _
  · have htail : condition.tail = ' ' :: condition.value.written := if_neg hhidden
    refine (Text.balanced_iff_of_parentheses_eq ?_).2 hwritten
    rw [parentheses_written, htail, Text.parentheses_append]
    rfl

end Condition

end ListingFilter
