import ListingFilter.Proofs.Lettering
import ListingFilter.Proofs.Occurrence
import ListingFilter.Proofs.Outcomes
import ListingFilter.Condition.Reading

/-!
# Conditions — what a condition that is read consists of

One statement for each step of reading: `Clause.read_eq_ok_iff`, `Value.read_eq_ok_iff` and
`Condition.read_eq_ok_iff` say what the text of a condition that goes through the step looks like.
From them, a condition that was read is written as a text that is not empty and has no white space
at its ends (`Condition.tight_written`).
-/

namespace ListingFilter

theorem Clause.cutAt_eq_ok_iff {text : Text} {operator : Operator} {clause : Clause} :
    cutAt text operator = .ok clause ↔
      ∃ before after : Text, operator.cut? text = some (before, after) ∧
        ¬ before.isBlank ∧ (operator = .exists ∨ ¬ after.isBlank) ∧
        clause = ⟨before.trim, operator, after.trim⟩ := by
  unfold cutAt
  cases operator.cut? text with
  | none => simp
  | some parts =>
    rcases parts with ⟨before, after⟩
    have hcheck : ¬ (after.isBlank && operator != .exists) ↔
        operator = .exists ∨ ¬ after.isBlank := by
      by_cases hexists : operator = .exists <;> simp [hexists]
    simp only [ite_error_eq_ok_iff, hcheck, Except.ok.injEq, Option.some.injEq, Prod.mk.injEq]
    constructor
    · rintro ⟨hbefore, hafter, rfl⟩
      exact ⟨before, after, ⟨rfl, rfl⟩, hbefore, hafter, rfl⟩
    · rintro ⟨_, _, ⟨rfl, rfl⟩, hbefore, hafter, rfl⟩
      exact ⟨hbefore, hafter, rfl⟩

theorem Clause.read_eq_ok_iff {text : Text} {clause : Clause} :
    Clause.read text = .ok clause ↔
      Operator.find? text = some clause.operator ∧
        ∃ before after : Text, clause.operator.cut? text = some (before, after) ∧
          ¬ before.isBlank ∧ (clause.operator = .exists ∨ ¬ after.isBlank) ∧
          clause.field = before.trim ∧ clause.value = after.trim := by
  rcases clause with ⟨field, operator, value⟩
  unfold Clause.read
  cases Operator.find? text with
  | none => simp
  | some found =>
    simp only [cutAt_eq_ok_iff, Clause.mk.injEq, Option.some.injEq]
    constructor
    · rintro ⟨before, after, hcut, hbefore, hafter, rfl, rfl, rfl⟩
      exact ⟨rfl, before, after, hcut, hbefore, hafter, rfl, rfl⟩
    · rintro ⟨rfl, before, after, hcut, hbefore, hafter, rfl, rfl⟩
      exact ⟨before, after, hcut, hbefore, hafter, rfl, rfl, rfl⟩

/-- The scalar is what the text means as the type of the scalar. -/
def Scalar.IsReadFrom (text : Text) : Scalar → Prop
  | .text content => content = text
  | .number value => Number.ofText? text = some value
  | .boolean flag => text.isTruthy = flag
  | .instant value => Instant.ofText? text = some value

/-- What is read as the type of a column has that type and is read from the text. -/
theorem Scalar.read_eq_ok_iff {column text : Text} {scalar : Scalar} :
    Scalar.read column text = .ok scalar ↔
      ScalarType.ofColumn column = scalar.type ∧ scalar.IsReadFrom text := by
  unfold Scalar.read
  cases ScalarType.ofColumn column with
  | text => cases scalar <;> simp [type, IsReadFrom, eq_comm]
  | boolean => cases scalar <;> simp [type, IsReadFrom]
  | number =>
    -- a text that is no number is an error
    cases hfound : Number.ofText? text <;> cases scalar <;> simp [type, IsReadFrom, hfound]
  | instant =>
    cases hfound : Instant.ofText? text <;> cases scalar <;> simp [type, IsReadFrom, hfound]

/-- A value is refused where it is empty before or after it is read, unless the operator is
`EXISTS`. -/
theorem Value.read_eq (text : Text) (field : Field) (operator : Operator) :
    Value.read text field operator =
      if operator ≠ .exists ∧ text.strip = [] then .error (.malformed text.trim .missingValue)
      else readStripped text.strip field operator >>= fun value =>
        if operator ≠ .exists ∧ value.isEmpty then .error (.malformed text.trim .missingValue)
        else .ok value := by
  have hbefore : (text.strip.isEmpty && operator != .exists) = true ↔
      operator ≠ .exists ∧ text.strip = [] := by
    simp [and_comm]
  have hbehind : ∀ value : Value, (operator != .exists && value.isEmpty) = true ↔
      operator ≠ .exists ∧ value.isEmpty := by
    simp
  unfold Value.read
  by_cases hempty : operator ≠ .exists ∧ text.strip = []
  · rw [if_pos (hbefore.2 hempty), if_pos hempty]
    rfl
  · rw [if_neg (mt hbefore.1 hempty), if_neg hempty]
    cases readStripped text.strip field operator with
    | error fault => rfl
    | ok value =>
      show (if (operator != .exists && value.isEmpty) = true then _ else _) = ite _ _ _
      simp only [hbehind]
      rfl

theorem Value.read_eq_ok_iff {text : Text} {field : Field} {operator : Operator} {value : Value} :
    Value.read text field operator = .ok value ↔
      readStripped text.strip field operator = .ok value ∧
        (operator = .exists ∨ text.strip ≠ [] ∧ ¬ value.isEmpty) := by
  simp only [read_eq, ite_error_eq_ok_iff, bind_eq_ok_iff, Except.ok.injEq]
  by_cases hexists : operator = .exists
  · simp [hexists]
  · simp only [ne_eq, hexists, not_false_iff, true_and, false_or]
    constructor
    · rintro ⟨hstrip, found, hread, hempty, rfl⟩
      exact ⟨hread, hstrip, hempty⟩
    · rintro ⟨hread, hstrip, hempty⟩
      exact ⟨hstrip, value, hread, hempty, rfl⟩

theorem Condition.read_eq_ok_iff {text : Text} {condition : Condition} :
    Condition.read text = .ok condition ↔
      ∃ clause, Clause.read text = .ok clause ∧ condition.field = Field.ofToken clause.field ∧
        condition.operator = clause.operator ∧
        condition.field.kind.allows condition.operator ∧
        Value.read clause.value condition.field condition.operator = .ok condition.value ∧
        Proviso.find? condition.field condition.operator condition.value =
          .ok condition.proviso := by
  rw [Condition.read, bind_eq_ok_iff]
  refine exists_congr fun clause => and_congr_right fun _ => ?_
  simp only [throw_bind_eq_error, ite_error_eq_ok_iff, bind_eq_ok_iff, pure_eq_ok_iff]
  rcases condition with ⟨field, operator, value, proviso⟩
  constructor
  · rintro ⟨hallows, value', hvalue, proviso', hproviso, hsame⟩
    cases hsame
    exact ⟨rfl, rfl, by simpa using hallows, hvalue, hproviso⟩
  · rintro ⟨rfl, rfl, hallows, hvalue, hproviso⟩
    exact ⟨by simpa using hallows, value, hvalue, proviso, hproviso, rfl⟩

/-! ## The written form has no white space at its ends -/

theorem Text.tight_strip (text : Text) : text.strip.Tight := by
  unfold Text.strip
  split
  · exact tight_trim _
  · exact tight_trim _

theorem Scalar.eq_text_or_of_read {column text : Text} {scalar : Scalar}
    (h : Scalar.read column text = .ok scalar) : scalar = .text text ∨ scalar.asText? = none := by
  rcases read_eq_ok_iff.1 h with ⟨-, hfrom⟩
  cases scalar with
  | text content => exact .inl (congrArg Scalar.text hfrom)
  | number value => exact .inr rfl
  | boolean flag => exact .inr rfl
  | instant value => exact .inr rfl

/-- A single scalar is the text that it was read from, or it is not a text. -/
theorem Value.eq_text_or_of_readStripped {text : Text} {field : Field} {operator : Operator}
    {scalar : Scalar} (h : readStripped text field operator = .ok (.single scalar)) :
    (∀ link, field ≠ .relationship link) ∧ (scalar = .text text ∨ scalar.asText? = none) := by
  cases field with
  | relationship link => cases h
  | «attribute» name =>
    refine ⟨nofun, ?_⟩
    rw [readStripped] at h
    split at h <;> cases h
    exact .inl rfl
  | standard name =>
    refine ⟨nofun, ?_⟩
    rw [readStripped] at h
    split at h
    · cases h
      exact .inl rfl
    · split at h
      · rcases bind_eq_ok_iff.1 h with ⟨items, -, hitems⟩
        cases hitems
      · rcases bind_eq_ok_iff.1 h with ⟨found, hfound, hsame⟩
        cases hsame
        exact Scalar.eq_text_or_of_read hfound

/-- A value is written in one piece, unless it is the missing value of a test for existence. -/
theorem Value.tight_written {text : Text} {field : Field} {operator : Operator} {value : Value}
    (hallows : field.kind.allows operator) (h : Value.read text field operator = .ok value) :
    value.written ≠ [] ∧ value.written.Tight := by
  rcases Value.read_eq_ok_iff.1 h with ⟨hread, hempty⟩
  cases value with
  | list items =>
    exact ⟨by simp [written], Text.tight_group _⟩
  | single scalar =>
    rcases eq_text_or_of_readStripped hread with ⟨hfield, rfl | hscalar⟩
    · have hoperator : operator ≠ .exists := by
        rintro rfl
        cases field with
        | relationship link => exact hfield link rfl
        | standard name => cases hallows
        | «attribute» name => cases hallows
      exact ⟨(hempty.resolve_left hoperator).1, Text.tight_strip text⟩
    · have hplain := Scalar.plain_written hscalar
      exact ⟨hplain.ne_nil, hplain.tight⟩

/-- A condition that was read is written without white space at its ends. -/
theorem Condition.tight_written {text : Text} {condition : Condition}
    (h : Condition.read text = .ok condition) :
    condition.written ≠ [] ∧ condition.written.Tight := by
  rcases read_eq_ok_iff.1 h with ⟨clause, hclause, hfield, -, hallows, hvalue, -⟩
  rcases Clause.read_eq_ok_iff.1 hclause with ⟨-, before, after, -, hbefore, -, htrim, -⟩
  -- the written form begins with the field
  have htoken : condition.field.token = before.trim := by rw [hfield, Field.token_ofToken, htrim]
  have hne : condition.field.token ≠ [] := by
    rw [htoken]
    exact fun hnil => hbefore (Text.trim_eq_nil_iff.1 hnil)
  have htight : condition.field.token.Tight := by
    rw [htoken]
    exact Text.tight_trim before
  unfold written
  split
  · -- and ends with the operator
    refine ⟨by simp, ?_⟩
    have hends := htight.append hne [' '] condition.operator.tight_symbol
      condition.operator.symbol_ne_nil
    simpa using hends
  · -- or with the value
    refine ⟨by simp, ?_⟩
    rcases Value.tight_written hallows hvalue with ⟨hvalueNe, hvalueTight⟩
    have hends :=
      htight.append hne (' ' :: condition.operator.symbol ++ [' ']) hvalueTight hvalueNe
    simpa using hends

end ListingFilter
