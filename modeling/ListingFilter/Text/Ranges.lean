import ListingFilter.Text.Basic

/-!
# Ranges — character classes as tables of code points
-/

namespace ListingFilter

/-- A class of characters: its code points as closed ranges in ascending order. -/
abbrev Ranges := List (Nat × Nat)

/-- The code point lies in one of the ranges. The search ends at the first range above it. -/
def Ranges.hasCode : Ranges → Nat → Bool
  | [], _ => false
  | (low, high) :: ranges, n =>
    if n < low then false else if n ≤ high then true else Ranges.hasCode ranges n

/-- The character belongs to the class. -/
def Ranges.has (ranges : Ranges) (c : Char) : Bool :=
  ranges.hasCode c.toNat

theorem Ranges.hasCode_cons (low high : Nat) (ranges : Ranges) (n : Nat) :
    Ranges.hasCode ((low, high) :: ranges) n =
      if n < low then false else if n ≤ high then true else ranges.hasCode n := rfl

/-- A code point that is found lies in one of the ranges. -/
theorem Ranges.exists_of_hasCode {ranges : Ranges} {n : Nat} (found : ranges.hasCode n) :
    ∃ range ∈ ranges, range.1 ≤ n ∧ n ≤ range.2 := by
  induction ranges with
  | nil => simp [hasCode] at found
  | cons range ranges ih =>
    obtain ⟨low, high⟩ := range
    rw [hasCode] at found
    split at found
    · simp at found
    · split at found
      · exact ⟨(low, high), by simp, by omega, by assumption⟩
      · obtain ⟨range, member, inside⟩ := ih found
        exact ⟨range, by simp [member], inside⟩

end ListingFilter
