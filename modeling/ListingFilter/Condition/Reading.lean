import ListingFilter.Clause
import ListingFilter.Condition.Basic
import ListingFilter.Value.Typing

/-!
# Condition reading — from a text to a typed test

The text is cut at its operator, the field token is classified, the operator is checked against the
kind of the field, the value is read, and the proviso is added. The first step that fails gives
the fault.
-/

namespace ListingFilter

/-- Every scalar is a text that stands for a finite number. -/
def Value.isNumeric (value : Value) : Bool :=
  value.scalars.all fun scalar => (scalar.asText?.bind Number.ofText?).isSome

/-- What a condition needs beyond its plain comparison. An ordering of a free attribute is an
ordering of numbers, so its value must be numeric. -/
def Proviso.find? (field : Field) (operator : Operator) (value : Value) :
    Except Fault (Option Proviso) :=
  match field with
  | .relationship _ => .ok (if operator = .hasAny then some .countGuard else none)
  | .attribute name =>
    if operator.isOrdering then
      if value.isNumeric then .ok (some .numericCast) else .error (.notNumber name value.written)
    else .ok none
  | .standard _ => .ok none

/-- Reads one condition. -/
def Condition.read (text : Text) : Except Fault Condition := do
  let clause ← Clause.read text
  let field := Field.ofToken clause.field
  if !field.kind.allows clause.operator then
    throw (.unsupported field.kind clause.operator)
  let value ← Value.read clause.value field clause.operator
  let proviso ← Proviso.find? field clause.operator value
  return ⟨field, clause.operator, value, proviso⟩

end ListingFilter
