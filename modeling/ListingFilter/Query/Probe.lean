import ListingFilter.Tree.Basic

/-!
# Probe — the tests a query backend is asked for

A condition becomes one of three probes, by the kind of its field. A condition on linked records
needs an operator that tests membership; the reading of filters admits no others there, a tree
built by hand may hold them.
-/

namespace ListingFilter

/-- How linked records are tested. -/
inductive Membership where
  /-- Some linked record carries a listed label. With `countGuard` the matching ones are to be
  counted. -/
  | anyOf (countGuard : Bool)
  /-- No linked record carries a listed label. -/
  | noneOf
  /-- Some record is linked, whatever its label. -/
  | exists
deriving DecidableEq, Repr

/-- The test of linked records that a condition asks for. -/
def Membership.of? (condition : Condition) : Option Membership :=
  match condition.operator with
  | .equal | .isAny | .hasAny => some (.anyOf (condition.has .countGuard))
  | .notEqual => some .noneOf
  | .exists => some .exists
  | _ => none

/-- Why a tree cannot be turned into a query. -/
inductive QueryFault where
  /-- A group has no members. -/
  | emptyGroup
  /-- The operator does not test linked records. -/
  | noMembership (operator : Operator)
  /-- Listings have no such column. -/
  | unknownColumn (name : Text)
deriving DecidableEq, Repr

/-- The wording of a fault. -/
def QueryFault.message : QueryFault → Text
  | .emptyGroup => "cannot translate an empty group".toList
  | .noMembership operator =>
    "operator '".toList ++ operator.symbol ++ "' has no membership test".toList
  | .unknownColumn name => "unknown column '".toList ++ name ++ "'".toList

/-- One test that a backend makes. -/
inductive Probe where
  /-- Compares a column of the listing. -/
  | column (name : Text) (operator : Operator) (value : Value)
  /-- Tests the labels of linked records. -/
  | linked (link : Link) (membership : Membership) (labels : List Text)
  /-- Compares the rows of a free attribute, as numbers if `numeric`. -/
  | attribute (name : Text) (operator : Operator) (value : Value) (numeric : Bool)
deriving DecidableEq, Repr

/-- The probe that a condition asks for. -/
def Probe.of (condition : Condition) : Except QueryFault Probe :=
  match condition.field with
  | .standard name => .ok (.column name condition.operator condition.value)
  | .relationship link =>
    match Membership.of? condition with
    | some membership => .ok (.linked link membership condition.value.labels)
    | none => .error (.noMembership condition.operator)
  | .attribute name =>
    .ok (.attribute name condition.operator condition.value (condition.has .numericCast))

end ListingFilter
