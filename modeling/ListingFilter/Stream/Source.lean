import ListingFilter.Stream.Utf8

/-!
# Source — a stream of characters that may hold bad octets

Octets are taken in one at a time until they make up a character. Octets that cannot become one are
given up when four of them are at hand: as few as leave a rest that is a text, and at least one. At
the end of the stream an unfinished character is given up whole.
-/

namespace ListingFilter

/-- Octets that were given up. -/
inductive StreamFault where
  /-- They are not UTF-8. -/
  | badOctets (octets : List UInt8)
  /-- The stream ended in the middle of a character. -/
  | unfinished (octets : List UInt8)
deriving DecidableEq, Repr

namespace StreamFault

/-- The octets that were given up. -/
def octets : StreamFault → List UInt8
  | .badOctets octets | .unfinished octets => octets

/-- The wording of a fault: the octets in decimal. -/
def message (fault : StreamFault) : Text :=
  let numbers := fault.octets.map fun octet => Text.ofNat octet.toNat
  "Bad UTF-8: [".toList ++ ", ".toList.intercalate numbers ++ "]".toList

end StreamFault

/-- What a stream has read but not yet given out, and what it has not read. -/
structure Source where
  held : List UInt8
  unread : List UInt8
deriving DecidableEq, Repr

namespace Source

/-- The stream of some octets. -/
def ofOctets (octets : List UInt8) : Source :=
  ⟨[], octets⟩

/-- The octets to be given up, at least one and as few as leave a text, and that text. -/
def giveUp : List UInt8 → List UInt8 × List UInt8
  | [] => ([], [])
  | octet :: rest =>
    if isUtf8 rest then ([octet], rest)
    else
      let (bad, good) := giveUp rest
      (octet :: bad, good)

/-- Giving up octets loses none of them. -/
theorem giveUp_append (octets : List UInt8) : (giveUp octets).1 ++ (giveUp octets).2 = octets := by
  induction octets with
  | nil => rfl
  | cons octet rest ih =>
    rw [giveUp]
    split
    · rfl
    · simp [ih]

/-- What the octets at hand give without reading on: a character, or octets to be given up. With it
comes what is left of them. -/
def settle? (held : List UInt8) : Option (Except StreamFault Char × List UInt8) :=
  if isUtf8 held then
    (decodeFirst? held).map fun (char, rest) => (.ok char, rest)
  else if (undecodable held).length ≥ 4 then
    let (bad, good) := giveUp held
    some (.error (.badOctets bad), good)
  else none

/-- The next item of a stream with these octets at hand, reading on as far as needed; nothing at its
end. -/
def nextOf (held : List UInt8) : List UInt8 → Option (Except StreamFault Char) × Source
  | [] =>
    match settle? held with
    | some (item, held) => (some item, ⟨held, []⟩)
    | none => (if held.isEmpty then none else some (.error (.unfinished held)), ⟨[], []⟩)
  | octet :: unread =>
    match settle? held with
    | some (item, held) => (some item, ⟨held, octet :: unread⟩)
    | none => nextOf (held ++ [octet]) unread

/-- The next item of the stream and the stream after it. -/
def next (source : Source) : Option (Except StreamFault Char) × Source :=
  nextOf source.held source.unread

end Source

end ListingFilter
