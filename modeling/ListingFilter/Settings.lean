import ListingFilter.Connective

/-!
# Settings — how filters are read

The spelling of connectives, and limits on the nesting and the length of a filter.
-/

namespace ListingFilter

/-- How filters are read. -/
structure Settings where
  /-- Which spellings of `AND` and `OR` count. -/
  spelling : Spelling := .anyCase
  /-- How many groups may be nested in each other; any number without a limit. -/
  maxDepth : Option Nat := some 64
  /-- How many octets a filter may have; any number without a limit. -/
  maxLength : Option Nat := some 8192
deriving DecidableEq, Repr

/-- No limits at all. -/
def Settings.unbounded : Settings :=
  ⟨.anyCase, none, none⟩

end ListingFilter
