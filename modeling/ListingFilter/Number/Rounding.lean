import ListingFilter.Number.Basic
import ListingFilter.Number.Powers

/-!
# Rounding — exact values and the nearest number

The smallest positive number is 2^-1074, and every finite number is a whole multiple of it.
`Rank.units` gives that multiple; `Rank.ofRatio` gives the rank of the number nearest to a ratio,
with halves going to the even rank. `Rank.ofRatio_units` says that an exact value keeps its rank.
-/

namespace ListingFilter

namespace Rank

/-- One unit is the power of two with this exponent below zero, and has as many decimal places. -/
def unitPlaces : Nat :=
  1074

/-- The number of units in the number one. -/
def one : Nat :=
  twoTo unitPlaces

/-- The number of units in the number of this rank. Ranks below 2^52 count the units
themselves; from there on each 2^52 ranks double the distance between neighbours. -/
def units (rank : Nat) : Nat :=
  if rank < binade then rank else (binade + rank % binade) * twoTo (rank / binade - 1)

/-- The whole number nearest to `a / b`; halves go to the even neighbour. -/
def nearestEven (a b : Nat) : Nat :=
  let quotient := a / b
  let twice := 2 * (a % b)
  if twice < b || (twice == b && quotient % 2 == 0) then quotient else quotient + 1

/-- The rank of the number nearest to `a / b`. With `s` the number of bits that the units of the
ratio have beyond 53, the neighbours there lie 2^s units apart, and the ranks grow accordingly. -/
def ofRatio (a b : Nat) : Nat :=
  let units := a * one
  let s := (units / b).log2 - 52
  s * binade + nearestEven units (b * twoTo s)

theorem one_pos : 0 < one :=
  twoTo_pos unitPlaces

theorem nearestEven_mul {m b : Nat} (positive : 0 < b) : nearestEven (m * b) b = m := by
  simp [nearestEven, Nat.mul_div_cancel m positive, positive]

theorem binade_eq : binade = twoTo 52 := by
  decide

/-- From the rank of the first full binade on, the units have as many bits as the rank says. -/
theorem log2_units {rank : Nat} (large : binade ≤ rank) :
    (units rank).log2 = 52 + (rank / binade - 1) := by
  have value : units rank = (binade + rank % binade) * twoTo (rank / binade - 1) :=
    if_neg (Nat.not_lt.2 large)
  have inside : rank % binade < binade := Nat.mod_lt rank (by decide)
  apply log2_eq_of_bounds
  · rw [value, twoTo_add, ← binade_eq]
    exact Nat.mul_le_mul_right _ (Nat.le_add_right ..)
  · rw [value, Nat.add_right_comm, twoTo_add]
    refine Nat.mul_lt_mul_of_pos_right ?_ (twoTo_pos _)
    rw [twoTo_add, ← binade_eq]
    change binade + rank % binade < binade * 2
    omega

/-- The number nearest to the exact value of a number is the number itself. -/
theorem ofRatio_units (rank : Nat) : ofRatio (units rank) one = rank := by
  rw [ofRatio, Nat.mul_div_cancel _ one_pos]
  by_cases small : rank < binade
  · -- the rank counts the units
    have value : units rank = rank := if_pos small
    have shift : rank.log2 - 52 = 0 := by
      by_cases zero : rank = 0
      · rw [zero]
        rfl
      · have : rank.log2 < 52 := (Nat.log2_lt zero).2 small
        omega
    rw [value, shift, twoTo_zero, Nat.mul_one, nearestEven_mul one_pos, Nat.zero_mul, Nat.zero_add]
  · -- neighbours lie a power of two apart
    have value : units rank = (binade + rank % binade) * twoTo (rank / binade - 1) := if_neg small
    have positive : 0 < one * twoTo (rank / binade - 1) := Nat.mul_pos one_pos (twoTo_pos _)
    have full : 1 ≤ rank / binade := Nat.div_pos (Nat.not_lt.1 small) (by decide)
    have parts := Nat.div_add_mod rank binade
    rw [log2_units (Nat.not_lt.1 small), Nat.add_sub_cancel_left, value, Nat.mul_assoc,
      Nat.mul_comm (twoTo (rank / binade - 1)), nearestEven_mul positive, ← Nat.add_assoc,
      ← Nat.succ_mul, Nat.succ_eq_add_one, Nat.sub_add_cancel full, Nat.mul_comm]
    exact parts

end Rank

end ListingFilter
