import ListingFilter.Chain
import ListingFilter.Fault
import ListingFilter.Parentheses

/-!
# Segments — cutting a text at its outermost connectives

A text is cut at the connectives that stand outside of all parentheses. `cut` finds the raw
segments; `segments` trims them and refuses a text with an unmatched parenthesis or a blank segment.
Of two faults the one further left is reported.
-/

namespace ListingFilter

/-- A text cut at its outermost connectives, as far as its parentheses allow. -/
structure Cut where
  /-- The raw segments, white space included. -/
  segments : Chain Text
  /-- Every parenthesis has its partner. Without it the last segment ends before the first closing
  parenthesis that has none, or holds an opening one that has none. -/
  balanced : Bool
deriving DecidableEq, Repr

namespace Cut

/-- A character in front of the first segment. -/
def push (c : Char) (cut : Cut) : Cut :=
  { cut with segments := { cut.segments with first := c :: cut.segments.first } }

/-- A connective, and an empty segment before it, in front of the first segment. -/
def sever (connective : Connective) (cut : Cut) : Cut :=
  { cut with segments := ⟨[], (connective, cut.segments.first) :: cut.segments.rest⟩ }

/-- Cuts what follows the character `previous`, with `depth` parentheses open and the first `skip`
characters the remainder of a connective already found. -/
def scan (spelling : Spelling) (skip depth : Nat) (previous : Option Char) : Text → Cut
  | [] => ⟨⟨[], []⟩, depth == 0⟩
  | c :: rest =>
    match skip with
    | skip + 1 => scan spelling skip depth (some c) rest
    | 0 =>
      if c = '(' then push c (scan spelling 0 (depth + 1) (some c) rest)
      else if c = ')' then
        match depth with
        | 0 => ⟨⟨[], []⟩, false⟩
        | depth + 1 => push c (scan spelling 0 depth (some c) rest)
      else
        let connective? :=
          if depth == 0 && Connective.mayFollow previous then Connective.at? spelling (c :: rest)
          else none
        match connective? with
        | some connective =>
          sever connective (scan spelling (connective.keyword.length - 1) depth (some c) rest)
        | none => push c (scan spelling 0 depth (some c) rest)

/-- A scan notices every parenthesis without a partner. -/
theorem balanced_scan (spelling : Spelling) (skip depth : Nat) (previous : Option Char)
    (text : Text) (word : ∀ c ∈ text.take skip, c ≠ '(' ∧ c ≠ ')') :
    (scan spelling skip depth previous text).balanced = (Text.level? depth text == some 0) := by
  induction text generalizing skip depth previous with
  | nil => simp [scan, Text.level?]
  | cons c rest ih =>
    cases skip with
    | succ skip =>
      have first := word c (by simp)
      simp only [scan, Text.level?, first.1, first.2, if_false]
      exact ih skip depth (some c) fun d member => word d (by simp [member])
    | zero =>
      simp only [scan, Text.level?]
      split
      · simpa [push] using ih 0 (depth + 1) (some c) (by simp)
      · split
        · cases depth with
          | zero => rfl
          | succ depth => simpa [push] using ih 0 depth (some c) (by simp)
        · split
          · rename_i connective found
            refine ih _ depth (some c) fun d member => ?_
            split at found
            · have opened := Connective.opens_of_at? found
              simp only [Connective.opens, Bool.and_eq_true] at opened
              refine Connective.ne_parenthesis_of_accepts opened.1 (c := d) ?_
              cases connective <;> simpa [Connective.keyword] using Or.inr member
            · cases found
          · simpa [push] using ih 0 depth (some c) (by simp)

end Cut

namespace Text

/-- The raw segments of a text between its outermost connectives. -/
def cut (spelling : Spelling) (text : Text) : Cut :=
  Cut.scan spelling 0 0 none text

/-- A cut notices every parenthesis without a partner. -/
theorem balanced_cut (spelling : Spelling) (text : Text) :
    (text.cut spelling).balanced = text.isBalanced :=
  Cut.balanced_scan spelling 0 0 none text (by simp)

/-- The trimmed segments of a text between its outermost connectives. -/
def segments (spelling : Spelling) (text : Text) : Except Fault (Chain Text) :=
  let found := text.cut spelling
  if found.segments.closed.any isBlank then .error (.malformed text .missingOperand)
  else if !found.balanced then .error (.unbalanced text)
  else if found.segments.last.isBlank then .error (.malformed text .missingOperand)
  else .ok (found.segments.map trim)

end Text

end ListingFilter
