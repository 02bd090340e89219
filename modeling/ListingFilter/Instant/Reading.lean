import ListingFilter.Instant.Basic
import ListingFilter.Text.Space

/-!
# Instant reading — the three forms of a point in time

A point in time is written in full with an offset from universal time, every part in its fixed
width; or as a date and a time without offset; or as a date alone. The last two are read in
universal time and are looser: white space may stand before each number, and numbers may be
shorter.
-/

namespace ListingFilter

namespace Text

/-- The value of a text of digits. -/
def digitsValue (digits : Text) : Nat :=
  Nat.ofDigitChars 10 digits 0

/-- The text after the character, when it begins with that. -/
def expect? (mark : Char) : Text → Option Text
  | [] => none
  | c :: rest => if c = mark then some rest else none

/-- The number made up by the first `width` characters, all of them digits, and the text after
them. -/
def fixedNumber? (width : Nat) (text : Text) : Option (Nat × Text) :=
  let digits := text.take width
  if digits.length = width && digits.all Char.isDigit then
    some (digitsValue digits, text.drop width)
  else none

/-- The number made up by the leading digits, at least one and not more than `width`, and the text
after them. -/
def leadingNumber? (width : Nat) (text : Text) : Option (Nat × Text) :=
  let digits := (text.take width).takeWhile Char.isDigit
  if digits.isEmpty then none else some (digitsValue digits, text.drop digits.length)

/-- A number of at most two digits after white space. -/
def looseNumber? (text : Text) : Option (Nat × Text) :=
  leadingNumber? 2 text.trimStart

/-- A year after white space: at most four digits, or a sign and any number of digits. -/
def looseYear? (text : Text) : Option (Int × Text) :=
  match text.trimStart with
  | [] => none
  | c :: rest =>
    if c = '-' then (leadingNumber? rest.length rest).map fun (year, text) => (-year, text)
    else if c = '+' then (leadingNumber? rest.length rest).map fun (year, text) => (year, text)
    else (leadingNumber? 4 (c :: rest)).map fun (year, text) => (year, text)

end Text

open Text

namespace Clock

/-- The fraction of a second, in nanoseconds: nothing, or a point and at least one digit. Digits
after the ninth do not count. -/
def readFraction? : Text → Option (Nat × Text)
  | [] => some (0, [])
  | c :: rest =>
    if c = '.' then
      let digits := rest.takeWhile Char.isDigit
      if digits.isEmpty then none
      else some (digitsValue ((digits ++ List.replicate 9 '0').take 9), rest.drop digits.length)
    else some (0, c :: rest)

/-- The offset from universal time in seconds: `Z`, or a sign, hours and minutes. The minus may also
be the mathematical one. -/
def readOffset? : Text → Option (Int × Text)
  | [] => none
  | c :: rest =>
    if c = 'Z' || c = 'z' then some (0, rest)
    else if c = '+' || c = '-' || c = '\u2212' then do
      let (hours, rest) ← fixedNumber? 2 rest
      let rest ← expect? ':' rest
      let (minutes, rest) ← fixedNumber? 2 rest
      let offset : Nat := hours * 3600 + minutes * 60
      if minutes < 60 && offset < secondsPerDay then
        return (if c = '+' then offset else -offset, rest)
      else none
    else none

/-- A time in the full form, `hh:mm:ss` with an optional fraction, and the text after it. -/
def ofFullForm? (text : Text) : Option (Clock × Text) := do
  let (hour, text) ← fixedNumber? 2 text
  let (minute, text) ← fixedNumber? 2 (← expect? ':' text)
  let (second, text) ← fixedNumber? 2 (← expect? ':' text)
  let (nanos, text) ← readFraction? text
  let clock : Clock := ⟨hour, minute, second, nanos⟩
  if clock.isValid then return (clock, text) else none

/-- A time in the loose form, its parts separated by colons, and the text after it. -/
def ofLooseForm? (text : Text) : Option (Clock × Text) := do
  let (hour, text) ← looseNumber? text
  let (minute, text) ← looseNumber? (← expect? ':' text)
  let (second, text) ← looseNumber? (← expect? ':' text)
  let clock : Clock := ⟨hour, minute, second, 0⟩
  if clock.isValid then return (clock, text) else none

end Clock

namespace Date

/-- A date in the full form, `YYYY-MM-DD`, and the text after it. -/
def ofFullForm? (text : Text) : Option (Date × Text) := do
  let (year, text) ← fixedNumber? 4 text
  let (month, text) ← fixedNumber? 2 (← expect? '-' text)
  let (day, text) ← fixedNumber? 2 (← expect? '-' text)
  let date : Date := ⟨year, month, day⟩
  if date.isValid then return (date, text) else none

/-- A date in the loose form, its parts separated by hyphens, and the text after it. -/
def ofLooseForm? (text : Text) : Option (Date × Text) := do
  let (year, text) ← looseYear? text
  let (month, text) ← looseNumber? (← expect? '-' text)
  let (day, text) ← looseNumber? (← expect? '-' text)
  let date : Date := ⟨year, month, day⟩
  if date.isValid then return (date, text) else none

end Date

namespace Instant

/-- The text after what separates a date from a time in the full form: `T` or a space. -/
def readSeparator? : Text → Option Text
  | [] => none
  | c :: rest => if c = 'T' || c = 't' || c = ' ' then some rest else none

/-- The instant written in full: a date, `T` or a space, a time and an offset. -/
def ofFullForm? (text : Text) : Option Instant := do
  let (date, text) ← Date.ofFullForm? text
  let (clock, text) ← Clock.ofFullForm? (← readSeparator? text)
  let (offset, text) ← Clock.readOffset? text
  if text.isEmpty then return ofCivil date clock offset else none

/-- The instant written as a date and a time without offset, with or without white space between
them. -/
def ofDateAndTime? (text : Text) : Option Instant := do
  let (date, text) ← Date.ofLooseForm? text
  let (clock, text) ← Clock.ofLooseForm? text
  if text.isEmpty then return ofCivil date clock 0 else none

/-- The start of the day written as a date. -/
def ofDate? (text : Text) : Option Instant := do
  let (date, text) ← Date.ofLooseForm? text
  if text.isEmpty then return ofCivil date ⟨0, 0, 0, 0⟩ 0 else none

/-- The point in time that a text stands for, in the first of the three forms that fits. -/
def ofText? (text : Text) : Option Instant :=
  ofFullForm? text <|> ofDateAndTime? text <|> ofDate? text

end Instant

end ListingFilter
