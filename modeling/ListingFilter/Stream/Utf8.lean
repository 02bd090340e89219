import ListingFilter.Text.Basic

/-!
# UTF-8 — characters from octets

A character is read from its one to four octets. Only the octets that encode the character are
accepted, so overlong forms, surrogates and code points beyond the last plane are refused.
-/

namespace ListingFilter

/-- The number of octets that the first one announces and the bits of the code point it carries. -/
def leadOctet? (octet : UInt8) : Option (Nat × Nat) :=
  let n := octet.toNat
  if n < 0x80 then some (1, n)
  else if n < 0xC0 then none
  else if n < 0xE0 then some (2, n % 0x20)
  else if n < 0xF0 then some (3, n % 0x10)
  else if n < 0xF8 then some (4, n % 0x08)
  else none

/-- The character that begins the octets and what follows it. -/
def decodeFirst? : List UInt8 → Option (Char × List UInt8)
  | [] => none
  | lead :: octets =>
    match leadOctet? lead with
    | none => none
    | some (length, bits) =>
      let tail := octets.take (length - 1)
      let char := Char.ofNat (tail.foldl (fun n octet => n * 0x40 + octet.toNat % 0x40) bits)
      if String.utf8EncodeChar char = lead :: tail then some (char, octets.drop (length - 1))
      else none

/-- A character is read from its own octets. -/
theorem eq_encode_append_of_decodeFirst? {octets rest : List UInt8} {char : Char}
    (found : decodeFirst? octets = some (char, rest)) :
    octets = String.utf8EncodeChar char ++ rest := by
  cases octets with
  | nil => simp [decodeFirst?] at found
  | cons lead octets =>
    simp only [decodeFirst?] at found
    split at found
    · cases found
    · split at found
      · rename_i encoded
        cases found
        rw [encoded, List.cons_append, List.take_append_drop]
      · cases found

/-- Reads characters as long as the octets encode some, at most `limit` of them. -/
def decodeUpTo : Nat → List UInt8 → Text × List UInt8
  | 0, octets => ([], octets)
  | limit + 1, octets =>
    match decodeFirst? octets with
    | none => ([], octets)
    | some (char, rest) =>
      let (chars, tail) := decodeUpTo limit rest
      (char :: chars, tail)

/-- The octets after the longest run of characters at their start. -/
def undecodable (octets : List UInt8) : List UInt8 :=
  (decodeUpTo octets.length octets).2

/-- The octets are the UTF-8 form of a text. -/
def isUtf8 (octets : List UInt8) : Bool :=
  (undecodable octets).isEmpty

end ListingFilter
