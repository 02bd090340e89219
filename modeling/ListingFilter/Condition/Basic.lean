import ListingFilter.Field
import ListingFilter.Value.Basic

/-!
# Condition — one typed test

A condition is a field, an operator that the field takes, and a value of the type that both ask for.
-/

namespace ListingFilter

/-- What a condition needs beyond its plain comparison. -/
inductive Proviso where
  /-- The linked records that match are to be counted, so that a record linked twice cannot match
  twice. -/
  | countGuard
  /-- The stored texts are to be compared as numbers. -/
  | numericCast
deriving DecidableEq, Repr

/-- One typed test. -/
structure Condition where
  field : Field
  operator : Operator
  value : Value
  proviso : Option Proviso := none
deriving DecidableEq, Repr

namespace Condition

/-- The condition carries the proviso. -/
def has (condition : Condition) (proviso : Proviso) : Bool :=
  condition.proviso == some proviso

/-- The written form. A test for existence without a list shows no value. -/
def written (condition : Condition) : Text :=
  let test := condition.field.token ++ ' ' :: condition.operator.symbol
  if condition.operator = .exists && condition.value.scalars.isEmpty then test
  else test ++ ' ' :: condition.value.written

/-- Equality, with numbers compared numerically. -/
def same (a b : Condition) : Bool :=
  a.field == b.field && a.operator == b.operator && a.value.same b.value &&
    a.proviso == b.proviso

end Condition

end ListingFilter
