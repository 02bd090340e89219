import ListingFilter.Text.Ranges

/-!
# Space — blank characters and trimming

The characters of the Unicode property White_Space, and what the filter language does with them:
texts are trimmed at both ends, and a text of nothing else counts as missing.
-/

namespace ListingFilter

/-- White space, ascending. -/
def spaceRanges : Ranges :=
  [(0x9, 0xD), (0x20, 0x20), (0x85, 0x85), (0xA0, 0xA0), (0x1680, 0x1680), (0x2000, 0x200A),
   (0x2028, 0x2029), (0x202F, 0x202F), (0x205F, 0x205F), (0x3000, 0x3000)]

/-- White space of any kind. -/
def isSpace (c : Char) : Bool :=
  spaceRanges.has c

/-- The blanks of ASCII are white space. -/
theorem isSpace_of_isWhitespace {c : Char} (blank : c.isWhitespace) : isSpace c := by
  simp only [Char.isWhitespace, Bool.or_eq_true, decide_eq_true_eq] at blank
  rcases blank with ((rfl | rfl) | rfl) | rfl <;> decide

namespace Text

/-- Nothing but white space. -/
def isBlank (text : Text) : Bool :=
  text.all isSpace

/-- The text without the white space before it. -/
def trimStart (text : Text) : Text :=
  text.dropWhile isSpace

/-- The text without the white space after it. -/
def trimEnd (text : Text) : Text :=
  (text.reverse.dropWhile isSpace).reverse

/-- The text without the white space at either end. -/
def trim (text : Text) : Text :=
  trimEnd (trimStart text)

@[simp] theorem isBlank_nil : isBlank [] = true := rfl

@[simp] theorem isBlank_append (a b : Text) : isBlank (a ++ b) = (isBlank a && isBlank b) := by
  simp [isBlank]

@[simp] theorem isBlank_reverse (text : Text) : isBlank text.reverse = isBlank text := by
  simp [isBlank]

theorem trimStart_eq_nil_iff {text : Text} : trimStart text = [] ↔ isBlank text := by
  induction text with
  | nil => simp [trimStart]
  | cons c rest ih => by_cases space : isSpace c <;> simp_all [trimStart, isBlank]

/-- Only white space is taken off at the start. -/
theorem exists_append_trimStart (text : Text) :
    ∃ before : Text, isBlank before ∧ before ++ trimStart text = text :=
  ⟨text.takeWhile isSpace, by simp [isBlank], List.takeWhile_append_dropWhile⟩

/-- Only white space is taken off at the end. -/
theorem exists_trimEnd_append (text : Text) :
    ∃ after : Text, isBlank after ∧ trimEnd text ++ after = text := by
  obtain ⟨before, blank, joined⟩ := exists_append_trimStart text.reverse
  refine ⟨before.reverse, by simpa [isBlank] using blank, ?_⟩
  have := congrArg List.reverse joined
  simpa [trimEnd, trimStart] using this

/-- Only white space is taken off by trimming. -/
theorem exists_append_trim_append (text : Text) :
    ∃ before after : Text,
      isBlank before ∧ isBlank after ∧ before ++ trim text ++ after = text := by
  obtain ⟨before, first, joined⟩ := exists_append_trimStart text
  obtain ⟨after, last, rejoined⟩ := exists_trimEnd_append (trimStart text)
  exact ⟨before, after, first, last, by rw [trim, List.append_assoc, rejoined, joined]⟩

theorem isBlank_trimStart (text : Text) : isBlank (trimStart text) = isBlank text := by
  obtain ⟨before, blank, joined⟩ := exists_append_trimStart text
  have parts := isBlank_append before (trimStart text)
  rw [joined, blank, Bool.true_and] at parts
  exact parts.symm

theorem trimEnd_eq_nil_iff {text : Text} : trimEnd text = [] ↔ isBlank text := by
  rw [trimEnd, List.reverse_eq_nil_iff, ← isBlank_reverse]
  exact trimStart_eq_nil_iff

/-- Trimming leaves nothing of a blank text and something of any other. -/
theorem trim_eq_nil_iff {text : Text} : trim text = [] ↔ isBlank text := by
  rw [trim, trimEnd_eq_nil_iff, isBlank_trimStart]

end Text

end ListingFilter
