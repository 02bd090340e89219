/-!
# Number — binary64 numbers

A number is not-a-number, or a sign and a rank. The rank counts the non-negative numbers upwards
from zero, so the order of numbers is the order of their signed ranks. It is also what the lower 63
bits of the interchange word hold.
-/

namespace ListingFilter

/-- The number of ranks from one power of two to the next, 2^52. -/
def Rank.binade : Nat :=
  0x10000000000000

/-- The rank of infinity. -/
def Rank.infinite : Nat :=
  2047 * Rank.binade

/-- A binary64 number. Both signs have a zero, of rank 0, and an infinity. -/
inductive Number where
  | nan
  | signed (negative : Bool) (rank : Nat) (rank_le : rank ≤ Rank.infinite)
deriving DecidableEq, Repr

namespace Number

/-- The number with this sign and rank; ranks above infinity give infinity. -/
def ofRank (negative : Bool) (rank : Nat) : Number :=
  .signed negative (min rank Rank.infinite) (Nat.min_le_right ..)

/-- Neither infinite nor not-a-number. -/
def isFinite : Number → Bool
  | .nan => false
  | .signed _ rank _ => rank < Rank.infinite

/-- The place of the number on the line of all numbers; the two zeros share one. -/
def place? : Number → Option Int
  | .nan => none
  | .signed negative rank _ => some (if negative then -rank else rank)

/-- Numeric comparison. Not-a-number compares with nothing. -/
def compare? (a b : Number) : Option Ordering :=
  match a.place?, b.place? with
  | some m, some n => some (compare m n)
  | _, _ => none

/-- Numeric equality: the two zeros are equal, and not-a-number differs from itself. -/
def equals (a b : Number) : Bool :=
  a.compare? b == some .eq

/-- The bit of an interchange word that holds the sign, 2^63. -/
def signBit : Nat :=
  0x8000000000000000

/-- The number that an interchange word stands for. -/
def ofWord (word : Nat) : Number :=
  let rank := word % signBit
  if rank > Rank.infinite then .nan else ofRank (word / signBit % 2 == 1) rank

/-- The interchange word of the number; not-a-number has the quiet word without payload. -/
def word : Number → Nat
  | .nan => Rank.infinite + Rank.binade / 2
  | .signed negative rank _ => (if negative then signBit else 0) + rank

/-- A number is found again from its rank and its sign. -/
theorem ofRank_rank (negative : Bool) (rank : Nat) (rank_le : rank ≤ Rank.infinite) :
    ofRank negative rank = .signed negative rank rank_le := by
  simp only [ofRank, Nat.min_eq_left rank_le]

/-- A number is found again from its word. -/
theorem ofWord_word (number : Number) : ofWord number.word = number := by
  cases number with
  | nan => rfl
  | signed negative rank rank_le =>
    have small : rank < signBit := Nat.lt_of_le_of_lt rank_le (by decide)
    have finite : ¬ rank > Rank.infinite := Nat.not_lt.2 rank_le
    cases negative with
    | false =>
      have lower : (0 + rank) % signBit = rank := by simp [Nat.mod_eq_of_lt small]
      have upper : (0 + rank) / signBit % 2 = 0 := by simp [Nat.div_eq_of_lt small]
      change ofWord (0 + rank) = _
      rw [ofWord, lower, upper, if_neg finite]
      exact ofRank_rank false rank rank_le
    | true =>
      have lower : (signBit + rank) % signBit = rank := by simp [Nat.mod_eq_of_lt small]
      have upper : (signBit + rank) / signBit % 2 = 1 := by
        rw [Nat.add_div_left rank (by decide), Nat.div_eq_of_lt small]
      change ofWord (signBit + rank) = _
      rw [ofWord, lower, upper, if_neg finite]
      exact ofRank_rank true rank rank_le

/-- A number equals itself unless it is not-a-number. -/
theorem equals_self (number : Number) : number.equals number = (number != .nan) := by
  cases number <;> simp [equals, compare?, place?]

end Number

end ListingFilter
