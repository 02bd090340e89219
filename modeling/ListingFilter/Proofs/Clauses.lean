import ListingFilter.Proofs.Values

/-!
# Clauses — the written form of a condition is cut as the condition was

Reading a condition and writing it takes away white space, parentheses and commas, and puts in
others; none of them matters to where operators stand. So an operator stands in the written form only
if it stood in the text that was read, or is the operator of the condition, and the written form is
cut at that operator into the same field and the written value (`Condition.clause_written`).
-/

namespace ListingFilter

namespace Operator

variable {operator : Operator} {text : Text}

/-- Taking off white space and parentheses does not matter to the operators in a text. -/
theorem standsIn_strip_iff : operator.StandsIn text.strip ↔ operator.StandsIn text := by
  have htrimmed : operator.StandsIn text.trim ↔ operator.StandsIn text := standsIn_trim_iff
  rw [Text.strip, ← htrimmed]
  cases henclosed : text.trim.enclosed? with
  | none => rfl
  | some inner =>
    rcases Text.enclosed?_eq_some_iff_balanced.1 henclosed with ⟨htrim, -⟩
    rw [htrim, List.cons_append, standsIn_cons_gap_iff (gap_open.ignores _),
      standsIn_append_gap_iff (gap_close.ignores _)]
    exact standsIn_trim_iff

/-- What stands in an item of a list stands in the list. -/
theorem standsIn_of_mem_listItems {item : Text} (hitem : item ∈ text.listItems)
    (h : operator.StandsIn item) : operator.StandsIn text := by
  rcases Text.mem_listItems_iff.1 hitem with ⟨piece, hpiece, -, rfl⟩
  rw [← Text.intercalate_pieces ',' text, standsIn_intercalate_iff (gap_comma.ignores _)]
  exact ⟨piece, hpiece, standsIn_trim_iff.1 h⟩

/-- No operator stands in a text of plain characters. -/
theorem not_standsIn_of_plain (h : text.Plain) : ¬ operator.StandsIn text := by
  rintro ⟨before, after, rfl, -⟩
  have hletter : operator.symbol.any
      fun c => ['(', ')', ',', '=', '!', '<', '>', 'L', 'I', 'H', 'E'].contains c := by
    cases operator <;> decide
  rcases List.any_eq_true.1 hletter with ⟨c, hc, hspecial⟩
  apply (not_special_of_isPlain (h.isPlain (c := c) (by simp [hc]))).2
  simpa using hspecial

theorem mem_searchOrder (operator : Operator) : operator ∈ searchOrder := by
  cases operator <;> decide

/-- Nothing is searched for twice. -/
theorem not_mem_earlier {earlier later : List Operator}
    (h : searchOrder = earlier ++ operator :: later) : operator ∉ earlier := by
  have hnodup : searchOrder.Nodup := by decide
  rw [h, List.nodup_append] at hnodup
  exact fun hmem => hnodup.2.2 _ hmem _ List.mem_cons_self rfl

/-- No operator is found exactly if none stands in the text. -/
theorem find?_eq_none_iff : find? text = none ↔ ∀ operator : Operator, ¬ operator.StandsIn text := by
  rw [find?, List.find?_eq_none]
  constructor
  · intro h operator hstands
    exact h operator (mem_searchOrder operator) (isSome_cut?_iff.2 hstands)
  · intro h operator _ hsome
    exact h operator (isSome_cut?_iff.1 hsome)

theorem stands_alone (operator : Operator) : operator.Stands none [] [] := by
  constructor <;> simp

/-- An operator stands in its symbol. -/
theorem standsIn_symbol (operator : Operator) : operator.StandsIn operator.symbol :=
  ⟨[], [], (List.append_nil _).symm, operator.stands_alone⟩

/-- In the symbol of an operator no other operator stands. -/
theorem eq_of_standsIn_symbol {other : Operator} (h : operator.StandsIn other.symbol) :
    operator = other := by
  have hall : searchOrder.all fun p => searchOrder.all fun q =>
      !(p.cut? q.symbol).isSome || p == q := by
    decide +kernel
  have hpair := List.all_eq_true.1 (List.all_eq_true.1 hall operator (mem_searchOrder operator)) other
    (mem_searchOrder other)
  simpa [isSome_cut?_iff.2 h] using hpair

end Operator

/-! ## White space around a condition -/

/-- White space around a condition does not matter to where it is cut. -/
theorem Clause.read_trim_eq_ok_iff {text : Text} {clause : Clause} :
    Clause.read text.trim = .ok clause ↔ Clause.read text = .ok clause := by
  rcases Text.exists_append_trim_append text with ⟨first, last, hfirst, hlast, hjoin⟩
  have hfind : Operator.find? text.trim = Operator.find? text := by
    have hstands : ∀ operator : Operator,
        (operator.cut? text.trim).isSome = (operator.cut? text).isSome := by
      intro operator
      rw [Bool.eq_iff_iff, Operator.isSome_cut?_iff, Operator.isSome_cut?_iff,
        Operator.standsIn_trim_iff]
    simp only [Operator.find?, hstands]
  rw [read_eq_ok_iff, read_eq_ok_iff, hfind]
  refine and_congr_right fun hfound => ?_
  have hstands := (Operator.find?_eq_some_iff.1 hfound).1
  rw [← Operator.standsIn_trim_iff, ← Operator.isSome_cut?_iff] at hstands
  rcases Option.isSome_iff_exists.1 hstands with ⟨⟨before, after⟩, hcut⟩
  -- the white space goes to the field and to the value
  have hcut' := Operator.cut?_gaps (Operator.ignores_of_isBlank hfirst)
    (Operator.ignores_of_isBlank hlast) hcut
  rw [← List.append_assoc, hjoin] at hcut'
  have hfield := Text.trim_pad hfirst Text.isBlank_nil before
  have hvalue := Text.trim_pad Text.isBlank_nil hlast after
  rw [List.append_nil] at hfield
  rw [List.nil_append] at hvalue
  simp only [hcut, hcut', Option.some.injEq, Prod.mk.injEq, exists_and_left, and_assoc,
    exists_eq_left', Text.isBlank_append, hfirst, hlast, Bool.true_and, Bool.and_true, hfield, hvalue]

/-- Two texts that are cut into the same clauses are read as the same conditions. -/
theorem Condition.read_eq_ok_congr {text text' : Text} {condition : Condition}
    (h : ∀ clause, Clause.read text = .ok clause ↔ Clause.read text' = .ok clause) :
    Condition.read text = .ok condition ↔ Condition.read text' = .ok condition := by
  simp only [read_eq_ok_iff, h]

/-- What stands in a scalar as it is written stood in the text that it was read from. -/
theorem Field.standsIn_of_readItem {field : Field} {operator other : Operator} {text : Text}
    {scalar : Scalar} (h : field.readItem operator text = .ok scalar)
    (hstands : other.StandsIn scalar.written) : other.StandsIn text := by
  rcases field.readItem_cases operator with htexts | htyped
  · rw [htexts] at h
    cases h
    exact hstands
  · exact absurd hstands (Operator.not_standsIn_of_plain (Scalar.plain_written (htyped text scalar h)))

/-- What stands in a value as it is written stood in the text that it was read from. -/
theorem Value.standsIn_of_read {field : Field} {operator other : Operator} {text : Text}
    {value : Value} (h : Value.read text field operator = .ok value)
    (hstands : other.StandsIn value.written) : other.StandsIn text := by
  have hread := (read_eq_ok_iff.1 h).1
  rw [← Operator.standsIn_strip_iff]
  by_cases hlist : field.takesList operator
  · rcases (readStripped_list_iff hlist).1 hread with ⟨items, hitems, rfl⟩
    -- the outer parentheses and the commas are gaps
    rw [written, List.cons_append, Operator.standsIn_cons_gap_iff (Operator.gap_open.ignores _),
      Operator.standsIn_append_gap_iff (Operator.gap_close.ignores _),
      Operator.standsIn_intercalate_iff (Operator.gap_comma.ignores _)] at hstands
    rcases hstands with ⟨item, hitem, hstands⟩
    rcases List.mem_map.1 hitem with ⟨scalar, hscalar, rfl⟩
    rcases exists_of_mapM_eq_ok hitems hscalar with ⟨piece, hpiece, hscalarRead⟩
    exact Operator.standsIn_of_mem_listItems hpiece (Field.standsIn_of_readItem hscalarRead hstands)
  · rcases (readStripped_single_iff hlist).1 hread with ⟨scalar, hscalar, rfl⟩
    exact Field.standsIn_of_readItem hscalar hstands

namespace Condition

variable {text : Text} {condition : Condition}

/-- What a condition is read from: a field before the operator and a value behind it. -/
theorem exists_of_read (h : Condition.read text = .ok condition) :
    ∃ before after : Text, Operator.find? text = some condition.operator ∧
      condition.operator.cut? text = some (before, after) ∧ ¬ before.isBlank ∧
      condition.field.token = before.trim ∧ condition.field.kind.allows condition.operator ∧
      Value.read after.trim condition.field condition.operator = .ok condition.value := by
  rcases read_eq_ok_iff.1 h with ⟨clause, hclause, hfield, hoperator, hallows, hvalue, -⟩
  rcases Clause.read_eq_ok_iff.1 hclause with ⟨hfind, before, after, hcut, hbefore, -, htoken, hafter⟩
  rw [hafter] at hvalue
  refine ⟨before, after, hoperator ▸ hfind, hoperator ▸ hcut, hbefore, ?_, hallows, hvalue⟩
  rw [hfield, Field.token_ofToken, htoken]

/-- The value as it is shown in the written form. -/
def shownValue (condition : Condition) : Text :=
  if condition.operator = .exists && condition.value.scalars.isEmpty then []
  else condition.value.written

/-- What stands behind the operator in the written form. -/
def tail (condition : Condition) : Text :=
  if condition.operator = .exists && condition.value.scalars.isEmpty then []
  else ' ' :: condition.value.written

theorem written_eq (condition : Condition) :
    condition.written =
      condition.field.token ++ ' ' :: (condition.operator.symbol ++ condition.tail) := by
  rw [written, tail]
  split <;> simp

/-- An operator stands in the written form only in the field, as the operator, or in the value. -/
theorem standsIn_written {other : Operator} (h : other.StandsIn condition.written) :
    other.StandsIn condition.field.token ∨ other = condition.operator ∨
      other.StandsIn condition.value.written := by
  rw [written_eq, Operator.standsIn_gap_iff (Operator.gap_space.ignores _)] at h
  apply h.imp_right
  intro hrest
  unfold tail at hrest
  split at hrest
  · rw [List.append_nil] at hrest
    exact .inl (Operator.eq_of_standsIn_symbol hrest)
  · rw [Operator.standsIn_gap_iff (Operator.gap_space.ignores _)] at hrest
    exact hrest.imp_left Operator.eq_of_standsIn_symbol

theorem not_clings_tail (condition : Condition) :
    ¬ condition.tail.head?.any condition.operator.clings := by
  unfold tail
  split <;> simp [Operator.gap_space.free]

/-- The written form has the operator of the condition. -/
theorem find?_written (h : Condition.read text = .ok condition) :
    Operator.find? condition.written = some condition.operator := by
  rcases exists_of_read h with ⟨before, after, hfind, hcut, -, htoken, -, hvalue⟩
  rcases Operator.find?_eq_some_iff.1 hfind with ⟨-, earlier, later, horder, hearlier⟩
  rcases Operator.cut?_eq_some_iff.1 hcut with ⟨htext, hstands, -⟩
  refine Operator.find?_eq_some_iff.2 ⟨?_, earlier, later, horder, ?_⟩
  · refine ⟨condition.field.token ++ [' '], condition.tail, by simp [written_eq], ⟨?_, ?_⟩⟩
    · simp [Operator.gap_space.free]
    · exact condition.not_clings_tail
  · -- an operator that is searched for earlier would have stood in the text
    intro other hother hwritten
    apply hearlier other hother
    rw [htext]
    rcases standsIn_written hwritten with hfield | rfl | hshown
    · rw [htoken, Operator.standsIn_trim_iff] at hfield
      exact hstands.standsIn_of_before hfield
    · exact absurd hother (Operator.not_mem_earlier horder)
    · have hafter := Value.standsIn_of_read hvalue hshown
      exact hstands.standsIn_of_after (Operator.standsIn_trim_iff.1 hafter)

/-- The first place where the operator stands in the written form is behind the field. -/
theorem cut?_written (h : Condition.read text = .ok condition) :
    condition.operator.cut? condition.written =
      some (condition.field.token ++ [' '], condition.tail) := by
  rcases exists_of_read h with ⟨before, after, -, hcut, -, htoken, -, -⟩
  rw [written_eq]
  refine Operator.cut?_gap (Operator.gap_space.ignores _) ?_ condition.not_clings_tail
  rw [htoken, Operator.standsIn_trim_iff]
  exact Operator.not_standsIn_of_cut? hcut

/-- The written form is cut into the field, the operator and the written value. -/
theorem clause_written (h : Condition.read text = .ok condition) :
    Clause.read condition.written =
      .ok ⟨condition.field.token, condition.operator, condition.shownValue⟩ := by
  rcases exists_of_read h with ⟨before, after, -, -, hbefore, htoken, hallows, hvalue⟩
  rcases Value.tight_written hallows hvalue with ⟨hwrittenNe, hwrittenTight⟩
  have htight : condition.field.token.Tight := by
    rw [htoken]
    exact Text.tight_trim before
  have hfieldBlank : ¬ (condition.field.token ++ [' ']).isBlank := by
    rw [Text.isBlank_append, Text.isBlank_blank, Bool.and_true, htoken, Text.isBlank_trim]
    exact hbefore
  have hfieldTrim : condition.field.token = (condition.field.token ++ [' ']).trim :=
    (htight.trim_pad Text.isBlank_nil Text.isBlank_blank).symm
  have htail : (condition.operator = .exists ∨ ¬ condition.tail.isBlank) ∧
      condition.shownValue = condition.tail.trim := by
    rw [tail, shownValue]
    split
    · rename_i hhidden
      rw [Bool.and_eq_true, decide_eq_true_eq] at hhidden
      exact ⟨.inl hhidden.1, rfl⟩
    · have htrim : Text.trim ([' '] ++ condition.value.written ++ []) = condition.value.written :=
        hwrittenTight.trim_pad Text.isBlank_blank Text.isBlank_nil
      rw [List.append_nil] at htrim
      refine ⟨.inr fun hblank => hwrittenNe ?_, htrim.symm⟩
      exact htrim.symm.trans (Text.trim_eq_nil_iff.2 hblank)
  exact Clause.read_eq_ok_iff.2 ⟨find?_written h, _, _, cut?_written h, hfieldBlank, htail.1,
    hfieldTrim, htail.2⟩

end Condition

end ListingFilter
