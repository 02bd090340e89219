/-!
# Text — filter texts as lists of characters

Every text of the language (filters, field names, values, messages) is the list of its characters,
so that reading it is recursion on a list. Its size is counted in the octets of its UTF-8 form.
-/

namespace ListingFilter

/-- A text is the list of its characters. -/
abbrev Text := List Char

namespace Text

/-- The number of octets in the UTF-8 form of the text. -/
def utf8Size : Text → Nat
  | [] => 0
  | c :: rest => c.utf8Size + utf8Size rest

@[simp] theorem utf8Size_nil : utf8Size [] = 0 := rfl

@[simp] theorem utf8Size_cons (c : Char) (rest : Text) :
    utf8Size (c :: rest) = c.utf8Size + utf8Size rest := rfl

@[simp] theorem utf8Size_append (a b : Text) : utf8Size (a ++ b) = utf8Size a + utf8Size b := by
  induction a with
  | nil => simp
  | cons c rest ih => simp [ih, Nat.add_assoc]

/-- Every character takes up an octet. -/
theorem utf8Size_eq_zero_iff {text : Text} : text.utf8Size = 0 ↔ text = [] := by
  cases text with
  | nil => simp
  | cons c rest =>
    have positive := c.utf8Size_pos
    simp
    omega

/-- The text with the capital letters A to Z made small and all else kept. -/
def foldAscii (text : Text) : Text :=
  text.map Char.toLower

/-- The texts between the marks, the empty ones included; always at least one. -/
def pieces (mark : Char) : Text → List Text
  | [] => [[]]
  | c :: rest =>
    if c = mark then [] :: pieces mark rest
    else
      match pieces mark rest with
      | [] => [[c]]
      | piece :: more => (c :: piece) :: more

/-- There is always a piece. -/
theorem pieces_ne_nil (mark : Char) (text : Text) : pieces mark text ≠ [] := by
  induction text with
  | nil => simp [pieces]
  | cons c rest ih =>
    rw [pieces]
    split
    · simp
    · split <;> simp

/-- Joined by the mark, the pieces make up the text. -/
theorem intercalate_pieces (mark : Char) (text : Text) :
    [mark].intercalate (pieces mark text) = text := by
  induction text with
  | nil => simp [pieces]
  | cons c rest ih =>
    obtain ⟨piece, more, found⟩ := List.exists_cons_of_ne_nil (pieces_ne_nil mark rest)
    rw [found] at ih
    by_cases marked : c = mark
    · simpa [pieces, marked, found, List.intercalate] using ih
    · cases more <;> simpa [pieces, marked, found, List.intercalate] using ih

/-- No piece holds the mark. -/
theorem not_mem_of_mem_pieces {mark : Char} {text piece : Text} (found : piece ∈ pieces mark text) :
    mark ∉ piece := by
  induction text generalizing piece with
  | nil => simp_all [pieces]
  | cons c rest ih =>
    rw [pieces] at found
    split at found
    · rcases List.mem_cons.1 found with rfl | found
      · simp
      · exact ih found
    · rename_i other
      split at found
      · rename_i none
        exact absurd none (pieces_ne_nil mark rest)
      · rename_i first more split
        rcases List.mem_cons.1 found with rfl | found
        · have inside : mark ∉ first := ih (by simp [split])
          simp [Ne.symm other, inside]
        · exact ih (by simp [split, found])

/-- What follows the start of a text, when it begins with that start. -/
def afterStart? : Text → Text → Option Text
  | [], text => some text
  | _ :: _, [] => none
  | s :: start, c :: rest => if s = c then afterStart? start rest else none

theorem afterStart?_eq_some_iff {start text rest : Text} :
    afterStart? start text = some rest ↔ text = start ++ rest := by
  induction start generalizing text with
  | nil => simp [afterStart?]
  | cons s start ih =>
    cases text with
    | nil => simp [afterStart?]
    | cons c tail =>
      by_cases same : s = c
      · simp [afterStart?, same, ih]
      · simp [afterStart?, same, Ne.symm same]

/-- The pattern stands somewhere in the text as an unbroken piece of it. -/
def occursIn (pattern : Text) : Text → Bool
  | [] => pattern.isEmpty
  | c :: rest => pattern.isPrefixOf (c :: rest) || occursIn pattern rest

theorem occursIn_iff {pattern text : Text} : occursIn pattern text ↔ pattern <:+: text := by
  induction text with
  | nil => simp [occursIn]
  | cons c rest ih => simp [occursIn, ih, List.infix_cons_iff]

/-- The decimal digits of a natural number. -/
def ofNat (n : Nat) : Text :=
  Nat.toDigits 10 n

end Text

end ListingFilter
