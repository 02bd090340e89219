import ListingFilter.Instant.Reading
import ListingFilter.Instant.Writing
import ListingFilter.Number.Shortest

/-!
# Value — what a condition compares with

A scalar is a text, a number, a truth value or a point in time. A value is one scalar or a list of
them. Scalars of different types never compare.
-/

namespace ListingFilter

/-- One typed item. -/
inductive Scalar where
  | text (content : Text)
  | number (value : Number)
  | boolean (flag : Bool)
  | instant (value : Instant)
deriving DecidableEq, Repr

/-- The types of scalars. -/
inductive ScalarType where
  | text
  | number
  | boolean
  | instant
deriving DecidableEq, Repr

namespace Scalar

/-- The type of the scalar. -/
def type : Scalar → ScalarType
  | .text _ => .text
  | .number _ => .number
  | .boolean _ => .boolean
  | .instant _ => .instant

/-- The characters of a text; nothing for the other types. -/
def asText? : Scalar → Option Text
  | .text content => some content
  | _ => none

/-- The written form. -/
def written : Scalar → Text
  | .text content => content
  | .number value => value.text
  | .boolean true => "true".toList
  | .boolean false => "false".toList
  | .instant value => value.text

/-- The order of two scalars of one type: texts by their characters, false before true. Scalars of
different types, and not-a-number, are not ordered. -/
def compare? : Scalar → Scalar → Option Ordering
  | .text a, .text b => some (compare a b)
  | .number a, .number b => a.compare? b
  | .boolean a, .boolean b => some (compare a b)
  | .instant a, .instant b => some (a.compare b)
  | _, _ => none

/-- Equality, with numbers compared numerically. -/
def same : Scalar → Scalar → Bool
  | .number a, .number b => a.equals b
  | a, b => a == b

end Scalar

/-- What a condition compares with. -/
inductive Value where
  | single (scalar : Scalar)
  | list (items : List Scalar)
deriving DecidableEq, Repr

namespace Value

/-- The scalars in order. -/
def scalars : Value → List Scalar
  | .single scalar => [scalar]
  | .list items => items

/-- The texts among the scalars, in order. -/
def labels (value : Value) : List Text :=
  value.scalars.filterMap Scalar.asText?

/-- No scalar at all, or a single blank text. -/
def isEmpty : Value → Bool
  | .single (.text content) => content.isBlank
  | .single _ => false
  | .list items => items.isEmpty

/-- The written form; a list stands in parentheses. -/
def written : Value → Text
  | .single scalar => scalar.written
  | .list items => '(' :: [','].intercalate (items.map Scalar.written) ++ [')']

/-- Equality, with numbers compared numerically. -/
def same : Value → Value → Bool
  | .single a, .single b => a.same b
  | .list as, .list bs => as.length == bs.length && (as.zip bs).all fun (a, b) => a.same b
  | _, _ => false

end Value

end ListingFilter
