import ListingFilter.Stream.Source

/-!
# Lookahead — reading ahead of a stream

Characters can be looked at before they are taken. Those read ahead are kept in a buffer. A fault of
the stream ends the step that met it; the characters read before it stay in the buffer, and the next
step goes on behind it.

Counts and positions are machine words. The count of the characters up to a position is the position
and one, which for the last of the words is no word: it comes to zero.
-/

namespace ListingFilter

/-- The characters read ahead and the stream behind them. -/
structure Lookahead where
  buffer : Text
  source : Source
deriving DecidableEq, Repr

namespace Lookahead

/-- A reader at the start of some octets. -/
def ofOctets (octets : List UInt8) : Lookahead :=
  ⟨[], Source.ofOctets octets⟩

/-- A step of the reader. The state after a fault is kept. -/
abbrev Step := ExceptT StreamFault (StateM Lookahead)

/-- Reads that many characters into the buffer, or as many as there are. -/
def feed : Nat → Step Unit
  | 0 => return ()
  | count + 1 => do
    let reader ← get
    let (item, source) := reader.source.next
    match item with
    | none => set { reader with source }
    | some (.error fault) =>
      set { reader with source }
      throw fault
    | some (.ok char) =>
      set (⟨reader.buffer ++ [char], source⟩ : Lookahead)
      feed count

/-- Reads ahead until the buffer holds that many characters or the stream ends. -/
def ensure (count : Nat) : Step Unit := do
  feed (count - (← get).buffer.length)

/-- The next characters, that many or as many as there are. -/
def peek (count : Nat) : Step Text := do
  ensure count
  return (← get).buffer.take count

/-- The number of machine words, which are of 64 bits. -/
def wordCount : Nat :=
  UInt64.size

/-- The character at this position from here on. The position is a word, and so is the number of
characters to read ahead. -/
def peekChar (index : Nat) : Step (Option Char) := do
  ensure ((index + 1) % wordCount)
  return (← get).buffer[index]?

/-- Takes that many characters, or as many as there are, and counts them. -/
def skip (count : Nat) : Step Nat := do
  ensure count
  let reader ← get
  set { reader with buffer := reader.buffer.drop count }
  return min count reader.buffer.length

end Lookahead

end ListingFilter
