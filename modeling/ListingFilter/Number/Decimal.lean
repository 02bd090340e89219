import ListingFilter.Number.Rounding
import ListingFilter.Text.Space

/-!
# Decimal — decimal fractions and their written form

A decimal is a whole number of units at some decimal place. It is written positionally, without an
exponent and without a point that nothing follows; it is read with an optional point, and an
optional exponent may move the point.
-/

namespace ListingFilter

/-- The fraction `units / 10 ^ places`. -/
structure Decimal where
  units : Nat
  places : Nat
deriving DecidableEq, Repr

namespace Decimal

/-- The rank of the nearest number. -/
def rank (decimal : Decimal) : Nat :=
  Rank.ofRatio decimal.units (tenTo decimal.places)

/-- The fraction `units * 10 ^ power`. -/
def scaled (units : Nat) (power : Int) : Decimal :=
  if power < 0 then ⟨units, (-power).toNat⟩ else ⟨units * tenTo power.toNat, 0⟩

/-! ## Writing -/

/-- The digits after the point for the fraction `part / 10 ^ places`, without zeros at the end. -/
def fractionText (part places : Nat) : Text :=
  let digits := Text.ofNat part
  let padded := List.replicate (places - digits.length) '0' ++ digits
  (padded.reverse.dropWhile (· == '0')).reverse

/-- The positional form. -/
def text (decimal : Decimal) : Text :=
  let whole := Text.ofNat (decimal.units / tenTo decimal.places)
  match fractionText (decimal.units % tenTo decimal.places) decimal.places with
  | [] => whole
  | fraction => whole ++ '.' :: fraction

/-! ## Reading -/

/-- An optional sign, and the text after it. The flag says that the sign is a minus. -/
def readSign : Text → Bool × Text
  | [] => (false, [])
  | c :: rest =>
    if c = '-' then (true, rest) else if c = '+' then (false, rest) else (false, c :: rest)

/-- The value of a non-empty text of digits. -/
def readDigits? (text : Text) : Option Nat :=
  if text.isEmpty || !text.all Char.isDigit then none else some (Nat.ofDigitChars 10 text 0)

/-- The power of ten that an exponent stands for: nothing, or `e` or `E`, an optional sign and
digits. -/
def readExponent? : Text → Option Int
  | [] => some 0
  | c :: rest =>
    if c = 'e' || c = 'E' then
      let (negative, digits) := readSign rest
      (readDigits? digits).map fun n => if negative then -n else n
    else none

/-- The digits before the point and after it, and the text that follows them. -/
def readPoint (text : Text) : Text × Text × Text :=
  let whole := text.takeWhile Char.isDigit
  match text.dropWhile Char.isDigit with
  | [] => (whole, [], [])
  | c :: rest =>
    if c = '.' then (whole, rest.takeWhile Char.isDigit, rest.dropWhile Char.isDigit)
    else (whole, [], c :: rest)

/-- The decimal written as digits with an optional point among or around them and an optional
exponent. An exponent that leads far beyond every number is cut back to one that still leads
beyond them, so that no giant power is ever computed. -/
def ofText? (text : Text) : Option Decimal :=
  let (whole, fraction, tail) := readPoint text
  match readDigits? (whole ++ fraction), readExponent? tail with
  | some units, some exponent =>
    let reach : Int := 400 + (whole ++ fraction).length
    some (scaled units (max (-reach) (min 400 (exponent - fraction.length))))
  | _, _ => none

end Decimal

end ListingFilter
