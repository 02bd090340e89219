import ListingFilter.Fault
import ListingFilter.Text.Space

/-!
# Clause — a condition cut into its three texts
-/

namespace ListingFilter

/-- A condition cut into the texts of its field and its value and the operator between them. -/
structure Clause where
  field : Text
  operator : Operator
  value : Text
deriving DecidableEq, Repr

namespace Clause

/-- Cuts a condition at the first standalone occurrence of the operator. Only `EXISTS` may go
without a value. -/
def cutAt (text : Text) (operator : Operator) : Except Fault Clause :=
  match operator.cut? text with
  | none => .error (.noOperator text)
  | some (before, after) =>
    if before.isBlank then .error (.malformed text .missingField)
    else if after.isBlank && operator != .exists then .error (.malformed text .missingValue)
    else .ok ⟨before.trim, operator, after.trim⟩

/-- Cuts a condition at its operator. -/
def read (text : Text) : Except Fault Clause :=
  match Operator.find? text with
  | none => .error (.noOperator text)
  | some operator => cutAt text operator

end Clause

end ListingFilter
