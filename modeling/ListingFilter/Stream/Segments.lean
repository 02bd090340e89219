import ListingFilter.Segments
import ListingFilter.Stream.Lookahead

/-!
# Segments of a stream — cutting a text as it is read

A text can be cut at its outermost connectives while it is read. Each pass looks at the next
character. It takes that character, or the connective that begins there, and ends at the first fault
or with the stream. A connective is looked for by reading ahead, so that nothing is taken of a word
that is none. What is found is what `Text.segments` finds (`perform_segments`).
-/

namespace ListingFilter

namespace Lookahead

/-- Takes the first of the connectives that the characters to come begin with. -/
def takeFirst (spelling : Spelling) : List Connective → Step (Option Connective)
  | [] => return none
  | connective :: more => do
    let word ← peek connective.keyword.length
    if spelling.accepts word connective.keyword then
      let next ← peekChar connective.keyword.length
      if Connective.mayPrecede next.toList then
        let _ ← skip connective.keyword.length
        return some connective
      else takeFirst spelling more
    else takeFirst spelling more

/-- Takes the connective that comes next outside of all parentheses, if one does. -/
def takeConnective (spelling : Spelling) (depth : Nat) (previous : Option Char) :
    Step (Option Connective) :=
  if depth == 0 && Connective.mayFollow previous then takeFirst spelling [.and, .or]
  else return none

/-- The segment between two connectives, which must not be blank. -/
def closeSegment (group current : Text) : Except Fault Text :=
  if current.isBlank then .error (.malformed group .missingOperand) else .ok current.trim

/-- The segment before a connective in front of the segments that are read behind it. -/
def sever (group current : Text) (connective : Connective)
    (further : Step (Option (Except Fault (Chain Text)))) :
    Step (Option (Except Fault (Chain Text))) :=
  match closeSegment group current with
  | .error fault => return some (.error fault)
  | .ok segment => do
    let found ← further
    return found.map fun outcome => outcome.map (Chain.link segment connective)

/-- Cuts the characters to come, behind the character `previous` and a part `current` of a segment,
with `depth` parentheses open. There is no outcome if so many passes do not reach the end. -/
def segmentsFrom (spelling : Spelling) (group : Text) :
    Nat → Nat → Option Char → Text → Step (Option (Except Fault (Chain Text)))
  | 0, _, _, _ => return none
  | passes + 1, depth, previous, current => do
    match ← peekChar 0 with
    | none =>
      if depth == 0 then return some ((closeSegment group current).map fun last => ⟨last, []⟩)
      else return some (.error (.unbalanced group))
    | some c =>
      let take (depth : Nat) : Step (Option (Except Fault (Chain Text))) := do
        let _ ← skip 1
        segmentsFrom spelling group passes depth (some c) (current ++ [c])
      if c = '(' then take (depth + 1)
      else if c = ')' then
        match depth with
        | 0 => return some (.error (.unbalanced group))
        | depth + 1 => take depth
      else
        match ← takeConnective spelling depth previous with
        | none => take depth
        | some connective =>
          sever group current connective (segmentsFrom spelling group passes depth none [])

/-- Cuts a text by reading its characters: each takes one pass, and the end of the text one more. -/
def segments (spelling : Spelling) (group : Text) : Step (Option (Except Fault (Chain Text))) :=
  segmentsFrom spelling group (group.length + 1) 0 none []

end Lookahead

end ListingFilter
