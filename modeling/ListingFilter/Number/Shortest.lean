import ListingFilter.Number.Decimal

/-!
# Shortest — the text of a number

A number is written as the decimal with the fewest digits that reads back as the same number. The
grids of decimals are searched from coarse to fine. On each grid only the two neighbours of the
number can read back as it; the first grid with a hit wins, and of two hits the nearer one, the
upper one on a tie.
-/

namespace ListingFilter

/-- The decimals with `places` digits after the point whose units are multiples of `step`. -/
structure Grid where
  step : Nat
  places : Nat
deriving DecidableEq, Repr

namespace Grid

/-- The grid point at this multiple of the step. -/
def point (grid : Grid) (multiple : Nat) : Decimal :=
  ⟨multiple * grid.step, grid.places⟩

/-- Of the neighbours of the number with this rank on the grid, the one that reads back as it; if
both do, the nearer one, or the upper one if they are equally near. -/
def hit? (grid : Grid) (rank : Nat) : Option Decimal :=
  let a := Rank.units rank * tenTo grid.places
  let b := Rank.one * grid.step
  let lower := grid.point (a / b)
  let upper := grid.point (a / b + 1)
  if lower.rank = rank && (upper.rank != rank || 2 * (a % b) < b) then some lower
  else if upper.rank = rank then some upper
  else none

/-- The grids on which a number of this rank may have its shortest form, from coarse to fine: the
powers of ten up to the length of its whole part, then one more decimal place at a time. The last
one holds every finite number itself. -/
def candidates (rank : Nat) : List Grid :=
  let length := (Text.ofNat (Rank.units rank / Rank.one)).length
  (List.range length).map (fun i => ⟨tenTo (length - i), 0⟩) ++
    (List.range (Rank.unitPlaces + 1)).map fun places => ⟨1, places⟩

end Grid

namespace Decimal

/-- The number of this rank in full. It has at most as many decimal places as a unit. -/
def exact (rank : Nat) : Decimal :=
  ⟨Rank.units rank * (tenTo Rank.unitPlaces / Rank.one), Rank.unitPlaces⟩

/-- The decimal with the fewest digits that reads back as the number of this rank. -/
def shortest (rank : Nat) : Decimal :=
  ((Grid.candidates rank).findSome? (Grid.hit? · rank)).getD (exact rank)

end Decimal

namespace Grid

/-- A grid yields only decimals that read back as the number. -/
theorem rank_of_hit? {grid : Grid} {rank : Nat} {decimal : Decimal}
    (found : grid.hit? rank = some decimal) : decimal.rank = rank := by
  simp only [hit?, Bool.and_eq_true, decide_eq_true_eq] at found
  split at found
  · rename_i lower
    cases found
    exact lower.1
  · split at found
    · rename_i upper
      cases found
      exact upper
    · cases found

end Grid

namespace Number

/-- The text of a number. -/
def text : Number → Text
  | .nan => "NaN".toList
  | .signed negative rank _ =>
    (if negative then ['-'] else []) ++
      if rank = Rank.infinite then "inf".toList else (Decimal.shortest rank).text

/-- The finite number that a text stands for, white space around it apart. -/
def ofText? (text : Text) : Option Number :=
  let (negative, digits) := Decimal.readSign text.trim
  match Decimal.ofText? digits with
  | none => none
  | some decimal =>
    let number := ofRank negative decimal.rank
    if number.isFinite then some number else none

/-- Only finite numbers are read. -/
theorem isFinite_of_ofText? {text : Text} {number : Number} (read : ofText? text = some number) :
    number.isFinite := by
  simp only [ofText?] at read
  split at read
  · cases read
  · split at read
    · rename_i finite
      cases read
      exact finite
    · cases read

end Number

end ListingFilter
