import ListingFilter.Text.Slice
import ListingFilter.Text.Space

/-!
# Parentheses — texts that are one group

A text is balanced when every parenthesis in it has its partner. It is a group when its first
character is an opening parenthesis whose partner is its last character: `((a) AND (b))` is one,
`(a) AND (b)` is not. The value of a condition may stand in one pair of parentheses that does not
count.

The main statement, `enclosed?_eq_some_iff`, says that the groups are the balanced texts put in
parentheses. A group can also be found by places in the text, as one that holds its text in octets
does (`groupEnd?`): look for the partner of the first parenthesis, and compare its place with the
end of the text.
-/

namespace ListingFilter

namespace Text

/-- The number of parentheses open after the text, when `depth` of them are open before it; nothing
if the text closes one that is not open. -/
def level? : Nat → Text → Option Nat
  | depth, [] => some depth
  | depth, c :: rest =>
    if c = '(' then level? (depth + 1) rest
    else if c = ')' then
      match depth with
      | 0 => none
      | depth + 1 => level? depth rest
    else level? depth rest

/-- Every parenthesis has its partner. -/
def isBalanced (text : Text) : Bool :=
  level? 0 text == some 0

theorem level?_append (depth : Nat) (a b : Text) :
    level? depth (a ++ b) = (level? depth a).bind fun reached => level? reached b := by
  induction a generalizing depth with
  | nil => rfl
  | cons c rest ih =>
    simp only [List.cons_append, level?, ih]
    split
    · rfl
    · split
      · cases depth <;> rfl
      · rfl

/-- Reads the inside of a group up to its closing parenthesis, with `depth` inner parentheses still
open; only where that closing parenthesis ends the text. -/
def inside? : Nat → Text → Option Text
  | _, [] => none
  | depth, c :: rest =>
    if c = '(' then (inside? (depth + 1) rest).map (c :: ·)
    else if c = ')' then
      match depth with
      | 0 => if rest.isEmpty then some [] else none
      | depth + 1 => (inside? depth rest).map (c :: ·)
    else (inside? depth rest).map (c :: ·)

theorem inside?_eq_some_iff {depth : Nat} {text inner : Text} :
    inside? depth text = some inner ↔ text = inner ++ [')'] ∧ level? depth inner = some 0 := by
  induction text generalizing depth inner with
  | nil => simp [inside?]
  | cons c rest ih =>
    simp only [inside?]
    split
    · -- an inner group opens
      rename_i opening
      simp only [Option.map_eq_some_iff, ih]
      cases inner with
      | nil => simp [opening]
      | cons first tail =>
        simp [level?, opening, and_comm, eq_comm]
        grind
    · split
      · rename_i closing
        cases depth with
        | zero =>
          -- the group itself closes, so the text has to end
          cases inner with
          | nil => simp [closing, level?]
          | cons first tail =>
            simp [level?, closing]
            grind
        | succ depth =>
          -- an inner group closes
          simp only [Option.map_eq_some_iff, ih]
          cases inner with
          | nil => simp [level?]
          | cons first tail =>
            simp [level?, closing]
            grind
      · -- no parenthesis
        rename_i other closing
        simp only [Option.map_eq_some_iff, ih]
        cases inner with
        | nil => simp [closing]
        | cons first tail =>
          simp [level?]
          grind

/-- The text between the parentheses when the whole of the text is one group. -/
def enclosed? : Text → Option Text
  | [] => none
  | c :: rest => if c = '(' then inside? 0 rest else none

/-- The groups are the balanced texts put in parentheses. -/
theorem enclosed?_eq_some_iff {text inner : Text} :
    enclosed? text = some inner ↔ text = '(' :: inner ++ [')'] ∧ isBalanced inner := by
  cases text with
  | nil => simp [enclosed?]
  | cons c rest =>
    by_cases opening : c = '('
    · simp [enclosed?, opening, inside?_eq_some_iff, isBalanced]
    · simp [enclosed?, opening]

/-! ## By places -/

/-- The place of the parenthesis that closes the outermost of the `depth` open ones; nothing if there
is no such parenthesis. The text begins at the place `offset`. -/
def closingPlace? : Nat → Nat → Text → Option Nat
  | _, _, [] => none
  | depth, offset, c :: rest =>
    if c = '(' then closingPlace? (depth + 1) (offset + c.utf8Size) rest
    else if c = ')' then
      match depth with
      | 0 => none
      | 1 => some offset
      | depth + 2 => closingPlace? (depth + 1) (offset + c.utf8Size) rest
    else closingPlace? depth (offset + c.utf8Size) rest

/-- The place of the last character when it is the partner of the first. -/
def groupEnd? (text : Text) : Option Nat :=
  if text.head? = some '(' ∧ text.getLast? = some ')' then
    (closingPlace? 0 0 text).filter (· == text.utf8Size - 1)
  else none

/-- A closing parenthesis is the first character of a text or stands further on. -/
theorem exists_closing_cons_iff {c : Char} {rest : Text} {P : Text → Prop} :
    (∃ inner after : Text, c :: rest = inner ++ ')' :: after ∧ P inner) ↔
      (c = ')' ∧ P []) ∨ ∃ inner after : Text, rest = inner ++ ')' :: after ∧ P (c :: inner) := by
  constructor
  · rintro ⟨inner, after, joined, holds⟩
    cases inner with
    | nil =>
      obtain ⟨rfl, rfl⟩ := List.cons.inj joined
      exact .inl ⟨rfl, holds⟩
    | cons first inner =>
      obtain ⟨rfl, rfl⟩ := List.cons.inj joined
      exact .inr ⟨inner, after, rfl, holds⟩
  · rintro (⟨rfl, holds⟩ | ⟨inner, after, rfl, holds⟩)
    · exact ⟨[], rest, rfl, holds⟩
    · exact ⟨c :: inner, after, rfl, holds⟩

/-- What stands before the closing parenthesis closes all the inner ones and no other. -/
theorem closingPlace?_eq_some_iff {depth offset place : Nat} {text : Text} :
    closingPlace? (depth + 1) offset text = some place ↔ ∃ inner after : Text,
      text = inner ++ ')' :: after ∧ level? depth inner = some 0 ∧
        place = offset + inner.utf8Size := by
  induction text generalizing depth offset with
  | nil => simp [closingPlace?]
  | cons c rest ih =>
    rw [exists_closing_cons_iff]
    simp only [closingPlace?]
    split
    · -- an inner parenthesis opens
      rename_i opening
      simp [ih, level?, opening, Nat.add_assoc]
    · split
      · rename_i other closing
        cases depth with
        | zero =>
          -- the outermost parenthesis closes
          simp [level?, closing, eq_comm]
        | succ depth =>
          -- an inner parenthesis closes
          simp [ih, level?, closing, Nat.add_assoc]
      · -- no parenthesis
        rename_i opening closing
        simp [ih, level?, opening, closing, Nat.add_assoc]

/-- A group is found by the place of its last character. -/
theorem groupEnd?_eq_some_iff {text : Text} {place : Nat} :
    groupEnd? text = some place ↔ ∃ inner : Text,
      text = '(' :: inner ++ [')'] ∧ isBalanced inner ∧ place = 1 + inner.utf8Size := by
  have opened : ∀ rest : Text, closingPlace? 0 0 ('(' :: rest) = closingPlace? 1 1 rest :=
    fun _ => rfl
  have sizes : '('.utf8Size = 1 ∧ ')'.utf8Size = 1 := by decide
  simp only [groupEnd?, Option.ite_none_right_eq_some, Option.filter_eq_some_iff, beq_iff_eq]
  constructor
  · rintro ⟨⟨first, -⟩, closed, last⟩
    obtain ⟨rest, rfl⟩ := List.head?_eq_some_iff.1 first
    rw [opened, closingPlace?_eq_some_iff] at closed
    obtain ⟨inner, after, rfl, level, rfl⟩ := closed
    -- the parenthesis that closes the first is at the last place, so nothing is behind it
    have ended : after = [] := by
      rw [← utf8Size_eq_zero_iff]
      simp [sizes] at last
      omega
    subst ended
    exact ⟨inner, rfl, by simp [isBalanced, level], rfl⟩
  · rintro ⟨inner, rfl, balanced, rfl⟩
    have level : level? 0 inner = some 0 := by simpa [isBalanced] using balanced
    refine ⟨⟨rfl, List.getLast?_concat⟩, ?_, by simp [sizes]; omega⟩
    rw [List.cons_append, opened, closingPlace?_eq_some_iff]
    exact ⟨inner, [], rfl, level, rfl⟩

/-- The trimmed text without one pair of parentheses around the whole of it. -/
def strip (text : Text) : Text :=
  match enclosed? text.trim with
  | some inner => inner.trim
  | none => text.trim

end Text

end ListingFilter
