import ListingFilter.Text.Basic

/-!
# Slice — the piece of a text between two places

A place in a text is counted in octets from its start. It is at one of the two ends or between two
characters: no text is cut within a character, and none behind its end.
-/

namespace ListingFilter

namespace Text

/-- The texts before and behind a place; nothing where the text cannot be cut. -/
def splitAt? : Text → Nat → Option (Text × Text)
  | text, 0 => some ([], text)
  | [], _ + 1 => none
  | c :: rest, octets + 1 =>
    if c.utf8Size ≤ octets + 1 then
      (splitAt? rest (octets + 1 - c.utf8Size)).map fun (before, after) => (c :: before, after)
    else none

/-- A text is cut at the places between its characters and nowhere else. -/
theorem splitAt?_eq_some_iff {text before after : Text} {octets : Nat} :
    text.splitAt? octets = some (before, after) ↔
      text = before ++ after ∧ before.utf8Size = octets := by
  induction text generalizing octets before with
  | nil =>
    cases octets with
    | zero =>
      simp only [splitAt?, Option.some.injEq, Prod.mk.injEq, utf8Size_eq_zero_iff]
      grind
    | succ octets => cases before <;> simp [splitAt?]
  | cons c rest ih =>
    cases octets with
    | zero =>
      -- nothing is before the place
      simp only [splitAt?, Option.some.injEq, Prod.mk.injEq, utf8Size_eq_zero_iff]
      grind
    | succ octets =>
      cases before with
      | nil => simp [splitAt?]
      | cons d before =>
        simp only [splitAt?, Option.ite_none_right_eq_some, Option.map_eq_some_iff, Prod.exists,
          Prod.mk.injEq, List.cons.injEq, List.cons_append, utf8Size_cons]
        constructor
        · rintro ⟨fits, front, back, cut, ⟨rfl, rfl⟩, rfl⟩
          obtain ⟨joined, size⟩ := ih.1 cut
          exact ⟨⟨rfl, joined⟩, by omega⟩
        · rintro ⟨⟨rfl, joined⟩, size⟩
          refine ⟨by omega, before, after, ih.2 ⟨joined, by omega⟩, ⟨rfl, rfl⟩, rfl⟩

/-- The piece from one place to another; nothing where the text cannot be cut. -/
def slice? (text : Text) (start stop : Nat) : Option Text := do
  let (front, _) ← text.splitAt? stop
  let (_, piece) ← front.splitAt? start
  return piece

/-- The piece from one place to another stands between them. -/
theorem slice?_eq_some_iff {text piece : Text} {start stop : Nat} :
    text.slice? start stop = some piece ↔ ∃ before after : Text,
      text = before ++ piece ++ after ∧ before.utf8Size = start ∧
        (before ++ piece).utf8Size = stop := by
  simp only [slice?, Option.bind_eq_bind, Option.bind_eq_some_iff, Option.pure_def,
    Option.some.injEq, Prod.exists, splitAt?_eq_some_iff]
  constructor
  · rintro ⟨front, after, ⟨rfl, rfl⟩, before, piece, ⟨rfl, rfl⟩, rfl⟩
    exact ⟨before, after, rfl, rfl, rfl⟩
  · rintro ⟨before, after, rfl, rfl, rfl⟩
    exact ⟨before ++ piece, after, ⟨rfl, rfl⟩, before, piece, ⟨rfl, rfl⟩, rfl⟩

end Text

end ListingFilter
