import ListingFilter.Text.Space

/-!
# Connective — the words that join conditions

Conditions are joined by `AND` and `OR`. A settings choice says whether any mixture of capital and
small letters spells a connective or only the capital one does. A connective counts in a text where
it stands apart: after white space or a closing parenthesis, before white space or an opening one.
-/

namespace ListingFilter

/-- A word that joins two conditions. -/
inductive Connective where
  | and
  | or
deriving DecidableEq, Repr

namespace Connective

/-- The capital spelling. -/
def keyword : Connective → Text
  | .and => "AND".toList
  | .or => "OR".toList

end Connective

/-- Which spellings of a keyword count. -/
inductive Spelling where
  /-- Capital and small letters in any mixture. -/
  | anyCase
  /-- Capital letters only. -/
  | upperCase
deriving DecidableEq, Repr

/-- The candidate spells the keyword. -/
def Spelling.accepts (spelling : Spelling) (candidate keyword : Text) : Bool :=
  match spelling with
  | .anyCase => candidate.foldAscii == keyword.foldAscii
  | .upperCase => candidate == keyword

namespace Connective

/-- A connective may follow the character: none at all, white space or a closing parenthesis. -/
def mayFollow : Option Char → Bool
  | none => true
  | some c => isSpace c || c == ')'

/-- A connective may stand before the text: nothing, white space or an opening parenthesis. -/
def mayPrecede : Text → Bool
  | [] => true
  | c :: _ => isSpace c || c == '('

/-- The text begins with this connective, and it ends there. -/
def opens (spelling : Spelling) (text : Text) (connective : Connective) : Bool :=
  spelling.accepts (text.take connective.keyword.length) connective.keyword &&
    mayPrecede (text.drop connective.keyword.length)

/-- The connective that the text begins with. -/
def at? (spelling : Spelling) (text : Text) : Option Connective :=
  [.and, .or].find? (opens spelling text)

theorem opens_of_at? {spelling : Spelling} {text : Text} {connective : Connective}
    (found : at? spelling text = some connective) : opens spelling text connective := by
  simpa using List.find?_some found

/-- A spelling of a keyword holds no parenthesis. -/
theorem ne_parenthesis_of_accepts {spelling : Spelling} {candidate : Text} {connective : Connective}
    (accepted : spelling.accepts candidate connective.keyword) {c : Char} (member : c ∈ candidate) :
    c ≠ '(' ∧ c ≠ ')' := by
  have folded : candidate.foldAscii = connective.keyword.foldAscii := by
    cases spelling <;> simp_all [Spelling.accepts]
  have small : c.toLower ∈ connective.keyword.foldAscii := by
    rw [← folded]
    exact List.mem_map_of_mem member
  constructor <;> rintro rfl <;> cases connective <;> revert small <;> decide

end Connective

end ListingFilter
