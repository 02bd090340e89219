import ListingFilter.Proofs.Values
import ListingFilter.Segments

/-!
# Faults — what can be wrong with a text

Cutting a text at its connectives fails because of its parentheses or of a missing operand
(`Text.segments_eq_error`). Reading a condition fails because of the condition alone
(`Condition.ofCondition_of_read`). So the limits of a filter have no part in either.
-/

namespace ListingFilter

/-- The fault is one of a single condition: not of the parentheses of a filter, nor of its limits. -/
def Fault.OfCondition : Fault → Prop
  | .noOperator _ | .malformed _ _ | .unsupported _ _ | .notNumber _ _ | .notInstant _ _ => True
  | .empty | .unbalanced _ | .tooDeep _ | .tooLong _ _ => False

variable {text : Text} {field : Field} {operator : Operator} {fault : Fault}

theorem Text.segments_eq_error {spelling : Spelling} (h : text.segments spelling = .error fault) :
    fault = .malformed text .missingOperand ∨ fault = .unbalanced text := by
  unfold segments at h
  simp only [ite_error_eq_error_iff, reduceCtorEq, and_false, or_false] at h
  -- of the three checks, one has failed
  rcases h with ⟨-, rfl⟩ | ⟨-, ⟨-, rfl⟩ | ⟨-, -, rfl⟩⟩
  · exact .inl rfl
  · exact .inr rfl
  · exact .inl rfl

theorem Clause.ofCondition_of_read (h : Clause.read text = .error fault) : fault.OfCondition := by
  unfold Clause.read at h
  split at h
  · cases h
    trivial
  · unfold cutAt at h
    split at h
    · cases h
      trivial
    · simp only [ite_error_eq_error_iff, reduceCtorEq, and_false, or_false] at h
      rcases h with ⟨-, rfl⟩ | ⟨-, -, rfl⟩ <;> trivial

theorem Scalar.ofCondition_of_read {column : Text} (h : Scalar.read column text = .error fault) :
    fault.OfCondition := by
  unfold Scalar.read at h
  split at h
  · split at h <;> cases h
    trivial
  · cases h
  · split at h <;> cases h
    trivial
  · cases h

theorem Field.ofCondition_of_readItem (h : field.readItem operator text = .error fault) :
    fault.OfCondition := by
  rcases field.readItem_eq operator with htext | ⟨name, -, hread⟩
  · rw [htext] at h
    cases h
  · rw [hread] at h
    exact Scalar.ofCondition_of_read h

/-- What is wrong with a value is wrong with one of its items. -/
theorem Value.ofCondition_of_readStripped (h : readStripped text field operator = .error fault) :
    fault.OfCondition := by
  rw [readStripped_eq] at h
  split at h
  · rw [map_eq_error_iff, mapM_eq_error_iff] at h
    rcases h with ⟨before, item, after, -, -, hitem⟩
    exact Field.ofCondition_of_readItem hitem
  · rw [map_eq_error_iff] at h
    exact Field.ofCondition_of_readItem h

theorem Value.ofCondition_of_read (h : Value.read text field operator = .error fault) :
    fault.OfCondition := by
  simp only [read_eq, ite_error_eq_error_iff, bind_eq_error_iff] at h
  rcases h with ⟨-, rfl⟩ | ⟨-, hread | ⟨value, -, ⟨-, rfl⟩ | ⟨-, hok⟩⟩⟩
  · trivial
  · exact ofCondition_of_readStripped hread
  · trivial
  · cases hok

theorem Proviso.ofCondition_of_find? {value : Value}
    (h : Proviso.find? field operator value = .error fault) : fault.OfCondition := by
  unfold Proviso.find? at h
  split at h
  · cases h
  · split at h
    · split at h <;> cases h
      trivial
    · cases h
  · cases h

/-- What is wrong with the text of a condition has nothing to do with the filter around it. -/
theorem Condition.ofCondition_of_read (h : Condition.read text = .error fault) :
    fault.OfCondition := by
  unfold Condition.read at h
  simp only [throw_bind_eq_error, ite_error_eq_error_iff, bind_eq_error_iff] at h
  rcases h with hclause | ⟨clause, -, ⟨-, rfl⟩ | ⟨-, hvalue | ⟨value, -, hproviso | ⟨proviso, -, hpure⟩⟩⟩⟩
  · exact Clause.ofCondition_of_read hclause
  · trivial
  · exact Value.ofCondition_of_read hvalue
  · exact Proviso.ofCondition_of_find? hproviso
  · cases hpure

end ListingFilter
