/-!
# Powers — powers of two and ten

The powers that binary and decimal fractions are counted in.
-/

namespace ListingFilter

/-- A power of two. -/
def twoTo (exponent : Nat) : Nat :=
  Nat.pow 2 exponent

/-- A power of ten. -/
def tenTo (exponent : Nat) : Nat :=
  Nat.pow 10 exponent

theorem twoTo_pos (exponent : Nat) : 0 < twoTo exponent :=
  Nat.pow_pos (by decide)

theorem tenTo_pos (exponent : Nat) : 0 < tenTo exponent :=
  Nat.pow_pos (by decide)

theorem twoTo_zero : twoTo 0 = 1 := rfl

theorem twoTo_add (m n : Nat) : twoTo (m + n) = twoTo m * twoTo n :=
  Nat.pow_add 2 m n

theorem tenTo_add (m n : Nat) : tenTo (m + n) = tenTo m * tenTo n :=
  Nat.pow_add 10 m n

/-- A number has as many bits beyond the first as the power of two that it lies at or above. -/
theorem log2_eq_of_bounds {n exponent : Nat} (least : twoTo exponent ≤ n)
    (most : n < twoTo (exponent + 1)) : n.log2 = exponent :=
  (Nat.log2_eq_iff (Nat.ne_of_gt (Nat.lt_of_lt_of_le (twoTo_pos exponent) least))).2 ⟨least, most⟩

end ListingFilter
