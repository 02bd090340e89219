import ListingFilter.Connective
import ListingFilter.Fault
import ListingFilter.Parentheses
import ListingFilter.Value.Basic

/-!
# Value typing — from the text of a value to the value

The field and the operator decide what the text of a value means. Labels of linked records and
values of free attributes stay texts; a column has a type, found from its name, and its values are
read as that type.
-/

namespace ListingFilter

/-- The type of a column's values: numbers for the two salaries, a truth value for the remote flag,
points in time for names that contain `_at`, and texts for all others. -/
def ScalarType.ofColumn (name : Text) : ScalarType :=
  if name = "salary_min".toList || name = "salary_max".toList then .number
  else if name = "is_remote".toList then .boolean
  else if Text.occursIn "_at".toList name then .instant
  else .text

namespace Text

/-- The words that mean true, in any mixture of capital and small letters. -/
def truthyWords : List Text :=
  ["true".toList, "1".toList, "yes".toList, "on".toList]

/-- The text means true; every other text means false. -/
def isTruthy (text : Text) : Bool :=
  truthyWords.any fun word => Spelling.anyCase.accepts text.trim word

/-- The trimmed texts between the commas, blank ones left out. -/
def listItems (text : Text) : List Text :=
  ((text.pieces ',').map trim).filter (!·.isEmpty)

end Text

/-- Reads a text as the type of a column. -/
def Scalar.read (column text : Text) : Except Fault Scalar :=
  match ScalarType.ofColumn column with
  | .number =>
    match Number.ofText? text with
    | some value => .ok (.number value)
    | none => .error (.notNumber column text)
  | .boolean => .ok (.boolean text.isTruthy)
  | .instant =>
    match Instant.ofText? text with
    | some value => .ok (.instant value)
    | none => .error (.notInstant column text)
  | .text => .ok (.text text)

namespace Value

/-- Reads a stripped text as the value that the field and the operator ask for. -/
def readStripped (text : Text) (field : Field) (operator : Operator) : Except Fault Value :=
  match field with
  | .relationship _ => .ok (.list (text.listItems.map .text))
  | .attribute _ =>
    if operator.expectsList then .ok (.list (text.listItems.map .text))
    else .ok (.single (.text text))
  | .standard name =>
    if operator = .like then .ok (.single (.text text))
    else if operator.expectsList then do
      return .list (← text.listItems.mapM (Scalar.read name))
    else do
      return .single (← Scalar.read name text)

/-- Reads the text of a value. White space and one pair of parentheses around it do not count. Only
`EXISTS` takes an empty value. -/
def read (text : Text) (field : Field) (operator : Operator) : Except Fault Value := do
  if text.strip.isEmpty && operator != .exists then
    throw (.malformed text.trim .missingValue)
  let value ← readStripped text.strip field operator
  if operator != .exists && value.isEmpty then
    throw (.malformed text.trim .missingValue)
  return value

end Value

end ListingFilter
