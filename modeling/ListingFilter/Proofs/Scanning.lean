import ListingFilter.Proofs.Clauses
import ListingFilter.Proofs.Searches

/-!
# Scanning — the places where operators stand, and the cut of a condition

`Operator.StandsAt` says, in octets from the start of a text, where an operator stands alone: a symbol
where a whole run of symbol characters is that symbol, a word where no letter, digit, underscore or
colon touches it. Both searches for an operator give the first such place (`offset?_eq_some_iff`).

The main statement, `Clause.read_of_standsAt`, says what a condition is cut into: the operator is the
first in the order of search that stands alone anywhere, the cut is at the first place where it does,
and nothing but white space is lost on either side.
-/

namespace ListingFilter

/-! ## Places in octets -/

namespace Text

/-- Of two places in a text, the one with fewer characters before it has fewer octets before it. -/
theorem length_le_iff_utf8Size_le {before before' rest rest' : Text}
    (h : before ++ rest = before' ++ rest') :
    before.length ≤ before'.length ↔ before.utf8Size ≤ before'.utf8Size := by
  rcases List.append_eq_append_iff.1 h with ⟨more, rfl, -⟩ | ⟨more, rfl, -⟩
  · simp
  · have hmore := @utf8Size_eq_zero_iff more
    rw [← List.length_eq_zero_iff] at hmore
    simp only [utf8Size_append, List.length_append]
    omega

end Text

namespace Operator

/-- The operator stands alone that many octets into the text. A word stands there untouched; a symbol
is the whole run of symbol characters that begins there. -/
def StandsAt (operator : Operator) (text : Text) (offset : Nat) : Prop :=
  ∃ before rest : Text, text = before ++ rest ∧ before.utf8Size = offset ∧
    if operator.isWord then
      ¬ before.getLast?.any isWordChar ∧ operator.symbol <+: rest ∧
        ¬ (rest.drop operator.symbol.length).head?.any isWordChar
    else ¬ before.getLast?.any isSymbolChar ∧ rest.takeWhile isSymbolChar = operator.symbol

variable {operator : Operator} {text : Text} {offset : Nat}

/-- Where an operator stands, the text goes on with its symbol, and no character clings to it. -/
theorem standsAt_iff : operator.StandsAt text offset ↔
    ∃ before after : Text, text = before ++ (operator.symbol ++ after) ∧
      before.utf8Size = offset ∧ operator.Stands none before after := by
  unfold StandsAt
  by_cases hword : operator.isWord
  · simp only [stands_none_iff, clings_of_isWord hword, hword, if_true]
    constructor
    · rintro ⟨before, rest, htext, hoffset, hbefore, ⟨after, rfl⟩, hafter⟩
      rw [List.drop_left] at hafter
      exact ⟨before, after, htext, hoffset, hbefore, hafter⟩
    · rintro ⟨before, after, htext, hoffset, hbefore, hafter⟩
      refine ⟨before, _, htext, hoffset, hbefore, List.prefix_append .., ?_⟩
      rwa [List.drop_left]
  · simp only [stands_none_iff, clings_of_not_isWord hword, hword, takeWhile_eq_symbol_iff hword]
    constructor
    · rintro ⟨before, rest, htext, hoffset, hbefore, after, rfl, hafter⟩
      exact ⟨before, after, htext, hoffset, hbefore, hafter⟩
    · rintro ⟨before, after, htext, hoffset, hbefore, hafter⟩
      exact ⟨before, _, htext, hoffset, hbefore, after, rfl, hafter⟩

theorem standsIn_iff_exists_standsAt : operator.StandsIn text ↔
    ∃ offset, operator.StandsAt text offset := by
  simp only [standsAt_iff, StandsIn]
  constructor
  · rintro ⟨before, after, htext, hstands⟩
    exact ⟨_, before, after, htext, rfl, hstands⟩
  · rintro ⟨_, before, after, htext, -, hstands⟩
    exact ⟨before, after, htext, hstands⟩

/-- A text is cut at the first place where the operator stands, counted in octets. -/
theorem cut?_eq_some_iff_standsAt {before after : Text} :
    operator.cut? text = some (before, after) ↔
      text = before ++ (operator.symbol ++ after) ∧ operator.StandsAt text before.utf8Size ∧
        ∀ earlier < before.utf8Size, ¬ operator.StandsAt text earlier := by
  rw [cut?_eq_some_iff]
  constructor
  · rintro ⟨htext, hstands, hfirst⟩
    refine ⟨htext, standsAt_iff.2 ⟨before, after, htext, rfl, hstands⟩, ?_⟩
    intro earlier hearlier hother
    rcases standsAt_iff.1 hother with ⟨start, rest, hsplit, rfl, hstarts⟩
    have hle := (Text.length_le_iff_utf8Size_le (htext.symm.trans hsplit)).1
      (hfirst start rest hsplit hstarts)
    omega
  · rintro ⟨htext, hat, hfirst⟩
    rcases standsAt_iff.1 hat with ⟨start, rest, hsplit, hsize, hstarts⟩
    -- the place determines what is before it
    have hsame : start = before ∧ operator.symbol ++ rest = operator.symbol ++ after := by
      apply List.append_inj (hsplit.symm.trans htext)
      have hle := Text.length_le_iff_utf8Size_le (hsplit.symm.trans htext)
      have hge := Text.length_le_iff_utf8Size_le (htext.symm.trans hsplit)
      omega
    obtain ⟨rfl, hrest⟩ := hsame
    obtain rfl := List.append_cancel_left hrest
    refine ⟨htext, hstarts, ?_⟩
    intro other tail hother hstands
    apply (Text.length_le_iff_utf8Size_le (htext.symm.trans hother)).2
    apply Nat.le_of_not_lt
    intro hlt
    exact hfirst _ hlt (standsAt_iff.2 ⟨other, tail, hother, rfl, hstands⟩)

/-- The place found is the first one where the operator stands. -/
theorem offset?_eq_some_iff : operator.offset? text = some offset ↔
    operator.StandsAt text offset ∧ ∀ earlier < offset, ¬ operator.StandsAt text earlier := by
  rw [offset?_eq, Option.map_eq_some_iff]
  constructor
  · rintro ⟨⟨before, after⟩, hcut, rfl⟩
    exact (cut?_eq_some_iff_standsAt.1 hcut).2
  · rintro ⟨hat, hfirst⟩
    rcases standsAt_iff.1 hat with ⟨before, after, htext, rfl, -⟩
    exact ⟨(before, after), cut?_eq_some_iff_standsAt.2 ⟨htext, hat, hfirst⟩, rfl⟩

theorem offset?_eq_none_iff :
    operator.offset? text = none ↔ ∀ offset, ¬ operator.StandsAt text offset := by
  rw [offset?_eq, Option.map_eq_none_iff, ← Option.isNone_iff_eq_none, ← Option.not_isSome,
    Bool.not_eq_true', ← Bool.not_eq_true, isSome_cut?_iff, standsIn_iff_exists_standsAt, not_exists]

end Operator

/-! ## Cutting a condition -/

namespace Clause

variable {text : Text} {operator : Operator}

/-- What a condition is read as when it is cut at its operator into the two texts. -/
theorem read_of_cut? {before after : Text} (hfind : Operator.find? text = some operator)
    (hcut : operator.cut? text = some (before, after)) :
    read text =
      if before.isBlank then .error (.malformed text .missingField)
      else if after.isBlank ∧ operator ≠ .exists then .error (.malformed text .missingValue)
      else .ok ⟨before.trim, operator, after.trim⟩ := by
  simp only [read, hfind, cutAt, hcut, Bool.and_eq_true, bne_iff_ne]

/-- A condition is refused for the lack of an operator exactly if none stands in it. -/
theorem read_eq_noOperator_iff : read text = .error (.noOperator text) ↔
    ∀ operator offset, ¬ Operator.StandsAt operator text offset := by
  simp only [← not_exists (p := fun offset => Operator.StandsAt _ text offset),
    ← Operator.standsIn_iff_exists_standsAt, ← Operator.find?_eq_none_iff]
  cases hfind : Operator.find? text with
  | none => simp [read, hfind]
  | some operator =>
    rcases Option.isSome_iff_exists.1
      (Operator.isSome_cut?_iff.2 (Operator.find?_eq_some_iff.1 hfind).1) with ⟨⟨before, after⟩, hcut⟩
    rw [read_of_cut? hfind hcut]
    split
    · simp
    · split <;> simp

/-- The search for an operator gives the first place where it stands alone, and nothing if there is
none. A condition without any operator is refused for that. Of any other, let the operator be the
first in the order of search that stands anywhere, and the place its first one. The texts on both
sides of it make up the condition together with the operator; the condition is refused if the first
is blank, or if the second is and the operator needs a value, and else it is cut into these two,
trimmed. -/
theorem read_of_standsAt (text : Text) :
    (∀ operator : Operator,
      (∀ offset, operator.offset? text = some offset ↔ operator.StandsAt text offset ∧
        ∀ earlier < offset, ¬ operator.StandsAt text earlier) ∧
      (operator.offset? text = none ↔ ∀ offset, ¬ operator.StandsAt text offset)) ∧
    (read text = .error (.noOperator text) ↔
      ∀ operator offset, ¬ Operator.StandsAt operator text offset) ∧
    ∀ (operator : Operator) (offset : Nat) (preferred others : List Operator),
      Operator.searchOrder = preferred ++ operator :: others →
      (∀ other ∈ preferred, ∀ place, ¬ other.StandsAt text place) →
      operator.StandsAt text offset →
      (∀ earlier < offset, ¬ operator.StandsAt text earlier) →
      ∃ before after : Text, text = before ++ operator.symbol ++ after ∧
        before.utf8Size = offset ∧ read text =
          if before.isBlank then .error (.malformed text .missingField)
          else if after.isBlank ∧ operator ≠ .exists then .error (.malformed text .missingValue)
          else .ok ⟨before.trim, operator, after.trim⟩ := by
  refine ⟨fun operator => ⟨fun offset => Operator.offset?_eq_some_iff,
    Operator.offset?_eq_none_iff⟩, read_eq_noOperator_iff, ?_⟩
  intro operator offset preferred others hsearch hpreferred hstands hfirst
  rcases Operator.standsAt_iff.1 hstands with ⟨before, after, htext, rfl, -⟩
  have hfind : Operator.find? text = some operator := by
    refine Operator.find?_eq_some_iff.2 ⟨Operator.standsIn_iff_exists_standsAt.2 ⟨_, hstands⟩,
      preferred, others, hsearch, ?_⟩
    intro other hother
    rw [Operator.standsIn_iff_exists_standsAt, not_exists]
    exact hpreferred other hother
  have hcut := Operator.cut?_eq_some_iff_standsAt.2 ⟨htext, hstands, hfirst⟩
  exact ⟨before, after, by rw [htext, List.append_assoc], rfl, read_of_cut? hfind hcut⟩

/-- A run of two symbol characters that is no operator, a word that another operator is preferred to,
and letters of two octets before the cut. -/
theorem read_of_standsAt_size :
    Operator.StandsAt .greaterOrEqual "größe=>1 LIKE a >= b".toList 18 ∧
      (∀ earlier < 18, ¬ Operator.StandsAt .greaterOrEqual "größe=>1 LIKE a >= b".toList earlier) ∧
      (∀ place, ¬ Operator.StandsAt .notEqual "größe=>1 LIKE a >= b".toList place) ∧
      ∃ before after : Text, "größe=>1 LIKE a >= b".toList =
          before ++ Operator.symbol .greaterOrEqual ++ after ∧ before.utf8Size = 18 ∧
        read "größe=>1 LIKE a >= b".toList = .ok ⟨before.trim, .greaterOrEqual, after.trim⟩ := by
  rcases read_of_standsAt "größe=>1 LIKE a >= b".toList with ⟨hsearch, -, hread⟩
  have hplace := ((hsearch .greaterOrEqual).1 18).1 (by decide +kernel)
  have hnone := (hsearch .notEqual).2.1 (by decide +kernel)
  refine ⟨hplace.1, hplace.2, hnone, ?_⟩
  have hpreferred : ∀ other ∈ [Operator.notEqual], ∀ place,
      ¬ other.StandsAt "größe=>1 LIKE a >= b".toList place := by
    intro other hother
    rw [List.mem_singleton.1 hother]
    exact hnone
  rcases hread .greaterOrEqual 18 [.notEqual] _ rfl hpreferred hplace.1 hplace.2 with
    ⟨before, after, htext, hsize, hsame⟩
  have hok : (read "größe=>1 LIKE a >= b".toList).isOk := by decide +kernel
  rw [hsame] at hok
  refine ⟨before, after, htext, hsize, ?_⟩
  rw [hsame]
  split at hok
  · cases hok
  · split at hok
    · cases hok
    · rw [if_neg (by assumption), if_neg (by assumption)]

end Clause

end ListingFilter
