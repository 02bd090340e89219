import ListingFilter.Proofs.Balance
import ListingFilter.Proofs.Encoding

/-!
# Groups — the texts that are one group

A text is a group when it is a balanced text in parentheses. Reading takes the text between the
parentheses as it stands (`Text.enclosed?`). Where a text is held in octets, the same text is cut
out between two places: behind the first octet, and at the place of the last parenthesis
(`Text.groupEnd?`).

The main statement, `Text.enclosed?_exact`, says that exactly the groups are recognized, and that
both ways come to the same text: the two places are never within a character, whatever characters
stand in the text.
-/

namespace ListingFilter

namespace Text

/-! ## Octets between two places -/

theorem utf8_append (a b : Text) : utf8 (a ++ b) = a.utf8 ++ b.utf8 :=
  List.flatMap_append

theorem length_utf8 (text : Text) : text.utf8.length = text.utf8Size := by
  induction text with
  | nil => rfl
  | cons c rest ih =>
    rw [utf8Size_cons, ← ih, ← String.length_utf8EncodeChar]
    exact List.length_append

/-- A piece has the octets between its two places. -/
theorem utf8_of_slice? {text piece : Text} {start stop : Nat}
    (h : text.slice? start stop = some piece) :
    piece.utf8 = (text.utf8.take stop).drop start := by
  rcases slice?_eq_some_iff.1 h with ⟨before, after, rfl, rfl, rfl⟩
  rw [← length_utf8, ← length_utf8, utf8_append (before ++ piece), List.take_left, utf8_append,
    List.drop_left]

/-! ## Recognition -/

/-- The places of a group are at its first octet and at its last, and between them is the text that
stands in the parentheses. -/
theorem slice?_of_enclosed? {text inner : Text} (h : text.enclosed? = some inner) :
    text.groupEnd? = some (1 + inner.utf8Size) ∧
      text.slice? 1 (1 + inner.utf8Size) = some inner := by
  rcases enclosed?_eq_some_iff.1 h with ⟨rfl, hinner⟩
  constructor
  · exact groupEnd?_eq_some_iff.2 ⟨inner, rfl, hinner, rfl⟩
  · exact slice?_eq_some_iff.2 ⟨['('], [')'], rfl, rfl, by rw [utf8Size_append]; rfl⟩

/-- Where a place is found, a text can be cut out, and it is the one inside a group. -/
theorem exists_of_groupEnd? {text : Text} {place : Nat} (h : text.groupEnd? = some place) :
    ∃ inner : Text, text.slice? 1 place = some inner ∧ text.enclosed? = some inner := by
  rcases groupEnd?_eq_some_iff.1 h with ⟨inner, hjoin, hinner, rfl⟩
  have henclosed := enclosed?_eq_some_iff.2 ⟨hjoin, hinner⟩
  exact ⟨inner, (slice?_of_enclosed? henclosed).2, henclosed⟩

theorem groupEnd?_eq_none_iff {text : Text} : text.groupEnd? = none ↔ text.enclosed? = none := by
  constructor
  · intro hnone
    rw [Option.eq_none_iff_forall_ne_some]
    intro inner henclosed
    rw [(slice?_of_enclosed? henclosed).1] at hnone
    cases hnone
  · intro hnone
    rw [Option.eq_none_iff_forall_ne_some]
    intro place hplace
    rcases exists_of_groupEnd? hplace with ⟨inner, -, henclosed⟩
    rw [hnone] at henclosed
    cases henclosed

/-- A text is recognized as a group, with the text inside it, exactly when it is that text in
parentheses and that text is balanced. No other text is recognized. Where the last character of a
text is the partner of the first, the octets between the two are cut out at the ends of characters,
and give the text inside. -/
theorem enclosed?_exact (text : Text) :
    (∀ inner : Text, text.enclosed? = some inner ↔
        text = '(' :: inner ++ [')'] ∧ inner.Balanced) ∧
      (text.enclosed? = none ↔ ¬∃ inner : Text, text = '(' :: inner ++ [')'] ∧ inner.Balanced) ∧
      (text.groupEnd? = none ↔ text.enclosed? = none) ∧
      ∀ place : Nat, text.groupEnd? = some place → ∃ inner : Text,
        text.slice? 1 place = some inner ∧ text.enclosed? = some inner ∧
          inner.utf8 = (text.utf8.take place).drop 1 := by
  refine ⟨fun _ => enclosed?_eq_some_iff_balanced, ?_, groupEnd?_eq_none_iff, ?_⟩
  · rw [enclosed?_eq_none_iff]
    constructor
    · rintro hnone ⟨inner, hjoin, hinner⟩
      exact hnone inner hinner hjoin
    · intro hnone inner hinner hjoin
      exact hnone ⟨inner, hjoin, hinner⟩
  · intro place hplace
    rcases exists_of_groupEnd? hplace with ⟨inner, hslice, henclosed⟩
    exact ⟨inner, hslice, henclosed, utf8_of_slice? hslice⟩

/-- The characters inside take up two, three and four octets. -/
example :
    groupEnd? "(é(€)😀)".toList = some 12 ∧
      slice? "(é(€)😀)".toList 1 12 = some "é(€)😀".toList ∧
      slice? "(é(€)😀)".toList 1 11 = none := by
  decide +kernel

end Text

end ListingFilter
