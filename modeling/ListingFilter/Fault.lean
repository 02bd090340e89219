import ListingFilter.Field

/-!
# Fault — why a filter is refused

The first fault met ends the reading of a filter. Each constructor is a cause with what is needed to
report it; `message` is the only place that words it.
-/

namespace ListingFilter

/-- What a malformed piece of text lacks. -/
inductive Flaw where
  | missingOperand
  | emptyGroup
  | missingField
  | missingValue
deriving DecidableEq, Repr

/-- The wording of a flaw. -/
def Flaw.message : Flaw → Text
  | .missingOperand => "missing operand around connective".toList
  | .emptyGroup => "empty group".toList
  | .missingField => "missing field".toList
  | .missingValue => "missing value".toList

/-- Why a filter is refused. -/
inductive Fault where
  /-- The filter is blank. -/
  | empty
  /-- A parenthesis has no partner in the text. -/
  | unbalanced (text : Text)
  /-- No operator stands alone in the condition. -/
  | noOperator (condition : Text)
  /-- A part of the text is missing. -/
  | malformed (text : Text) (flaw : Flaw)
  /-- Fields of this kind do not take the operator. -/
  | unsupported (kind : FieldKind) (operator : Operator)
  /-- The field needs a number. -/
  | notNumber (field value : Text)
  /-- The field needs a point in time. -/
  | notInstant (field value : Text)
  /-- Groups are nested more than `limit` deep. -/
  | tooDeep (limit : Nat)
  /-- The filter has more than `limit` octets. -/
  | tooLong (size limit : Nat)
deriving DecidableEq, Repr

/-- The wording of a fault. -/
def Fault.message : Fault → Text
  | .empty => "filter expression is empty".toList
  | .unbalanced text => "unbalanced parentheses in filter expression: ".toList ++ text
  | .noOperator condition => "invalid operator in condition: ".toList ++ condition
  | .malformed text flaw =>
    "malformed condition '".toList ++ text ++ "': ".toList ++ flaw.message
  | .unsupported kind operator =>
    "unsupported operator '".toList ++ operator.symbol ++ "' for ".toList ++ kind.name ++
      " field".toList
  | .notNumber field value =>
    "cannot cast '".toList ++ value ++ "' to a number for field '".toList ++ field ++ "'".toList
  | .notInstant field value =>
    "cannot parse '".toList ++ value ++ "' as a timestamp for field '".toList ++ field ++ "'".toList
  | .tooDeep limit =>
    "filter expression nests deeper than ".toList ++ Text.ofNat limit ++ " groups".toList
  | .tooLong size limit =>
    "filter expression is ".toList ++ Text.ofNat size ++ " bytes long, limit is ".toList ++
      Text.ofNat limit

end ListingFilter
