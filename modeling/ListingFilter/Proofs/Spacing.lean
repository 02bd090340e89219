import ListingFilter.Proofs.Rereading
import ListingFilter.Proofs.Welding

/-!
# Spacing — white space around a symbol

A symbol is told apart from what is around it by its characters alone, so a condition is cut at it
with or without white space (`Clause.read_glued_eq_ok_iff`). A connective is not: it counts only
where it stands apart, and white space around the symbol makes a word beside it stand apart. So the
white space does not matter exactly as long as no such word is spelled as a connective; where one
is, the spaced text lacks a field or a value.

The main statement is `parse_spacing`.
-/

namespace ListingFilter

/-! ## Conditions with a symbol -/

namespace Operator

/-- The symbols are searched for before the words. -/
theorem exists_searchOrder_of_symbol {operator : Operator} (hsymbol : ¬ operator.isWord) :
    ∃ earlier later : List Operator, searchOrder = earlier ++ operator :: later ∧
      ∀ other ∈ earlier, ¬ other.isWord ∧ other ≠ operator := by
  refine ⟨searchOrder.takeWhile (· != operator), (searchOrder.dropWhile (· != operator)).tail, ?_⟩
  revert hsymbol
  cases operator <;> decide

theorem cut?_symbol (operator : Operator) : operator.cut? operator.symbol = some ([], []) :=
  cut?_eq_some_iff.2 ⟨(List.append_nil _).symm, operator.stands_alone, fun _ _ _ _ => Nat.zero_le _⟩

end Operator

/-- Without other characters of symbols, a condition is cut at its only symbol. -/
theorem Clause.read_symbol_eq_ok_iff {operator : Operator} (hsymbol : ¬ operator.isWord)
    {before after : Text} (hbefore : ∀ c ∈ before, ¬ Operator.isSymbolChar c)
    (hafter : ∀ c ∈ after, ¬ Operator.isSymbolChar c) {clause : Clause} :
    Clause.read (before ++ (operator.symbol ++ after)) = .ok clause ↔
      ¬ before.isBlank ∧ ¬ after.isBlank ∧ clause = ⟨before.trim, operator, after.trim⟩ := by
  have hstandsIn : ∀ other : Operator, ¬ other.isWord →
      (other.StandsIn (before ++ (operator.symbol ++ after)) ↔ other.StandsIn operator.symbol) := by
    intro other hother
    have hignores : ∀ c, ¬ Operator.isSymbolChar c → other.Ignores c := fun _ =>
      Operator.ignores_of_not_isSymbolChar hother
    rw [Operator.standsIn_append_left_iff fun c hc => hignores c (hbefore c hc),
      Operator.standsIn_append_right_iff fun c hc => hignores c (hafter c hc)]
  have hfind : Operator.find? (before ++ (operator.symbol ++ after)) = some operator := by
    rcases Operator.exists_searchOrder_of_symbol hsymbol with ⟨earlier, later, horder, hearlier⟩
    refine Operator.find?_eq_some_iff.2 ⟨?_, earlier, later, horder, ?_⟩
    · rw [hstandsIn operator hsymbol]
      exact operator.standsIn_symbol
    · intro other hother
      rcases hearlier other hother with ⟨hword, hne⟩
      rw [hstandsIn other hword]
      exact mt Operator.eq_of_standsIn_symbol hne
  have hcut : operator.cut? (before ++ (operator.symbol ++ after)) = some (before, after) := by
    have hgaps := Operator.cut?_gaps
      (fun c hc => Operator.ignores_of_not_isSymbolChar hsymbol (hbefore c hc))
      (fun c hc => Operator.ignores_of_not_isSymbolChar hsymbol (hafter c hc)) operator.cut?_symbol
    rwa [List.append_nil, List.nil_append] at hgaps
  have hvalue : operator ≠ .exists := by
    rintro rfl
    exact hsymbol rfl
  unfold Clause.read
  rw [hfind]
  simp [Clause.cutAt_eq_ok_iff, hcut, hvalue]

/-- White space around the symbol does not matter. -/
theorem Clause.read_glued_eq_ok_iff {operator : Operator} (hsymbol : ¬ operator.isWord)
    {before pad after : Text} (hpad : pad.isBlank)
    (hbefore : ∀ c ∈ before, ¬ Operator.isSymbolChar c)
    (hafter : ∀ c ∈ after, ¬ Operator.isSymbolChar c) {clause : Clause} :
    Clause.read (before ++ (pad ++ operator.symbol ++ pad ++ after)) = .ok clause ↔
      ¬ before.isBlank ∧ ¬ after.isBlank ∧ clause = ⟨before.trim, operator, after.trim⟩ := by
  have hpadChars : ∀ c ∈ pad, ¬ Operator.isSymbolChar c := by
    intro c hc hchar
    have hfree := (Operator.gap_of_isSpace (List.all_eq_true.1 hpad c hc)).free operator
    rw [Operator.clings, if_neg hsymbol] at hfree
    exact hfree hchar
  have hread : Clause.read ((before ++ pad) ++ (operator.symbol ++ (pad ++ after))) = .ok clause ↔
      _ :=
    read_symbol_eq_ok_iff hsymbol (List.forall_mem_append.2 ⟨hbefore, hpadChars⟩)
      (List.forall_mem_append.2 ⟨hpadChars, hafter⟩)
  have hfield := Text.trim_pad Text.isBlank_nil hpad before
  have hvalue := Text.trim_pad hpad Text.isBlank_nil after
  rw [List.nil_append] at hfield
  rw [List.append_nil] at hvalue
  simpa only [List.append_assoc, Text.isBlank_append, hpad, Bool.and_true, Bool.true_and, hfield,
    hvalue] using hread

/-! ## Texts with a symbol between them -/

/-- The characters that symbols and parentheses are made of. -/
def Text.marks : List Char :=
  ['!', '<', '>', '=', '(', ')']

/-- The text holds no character of a symbol and no parenthesis. -/
def Text.Unmarked (text : Text) : Prop :=
  ∀ c ∈ text, c ∉ marks

instance (text : Text) : Decidable text.Unmarked :=
  List.decidableBAll (fun c => c ∉ Text.marks) text

theorem Spelling.lacks_of_isSymbolChar {spelling : Spelling} {c : Char}
    (h : Operator.isSymbolChar c) : spelling.Lacks c := by
  intro word connective haccepts hc
  have hletter := Connective.toLower_mem_of_accepts haccepts hc
  simp only [Operator.isSymbolChar, Bool.or_eq_true, beq_iff_eq] at h
  rcases h with ((rfl | rfl) | rfl) | rfl <;> cases connective <;> revert hletter <;> decide

namespace Text

variable {spelling : Spelling} {text piece pad field value : Text} {operator : Operator}
  {fields values : Chain Text}

theorem Unmarked.not_isSymbolChar (h : text.Unmarked) (hpiece : piece <:+: text) :
    ∀ c ∈ piece, ¬ Operator.isSymbolChar c := by
  intro c hc hchar
  apply h c (hpiece.subset hc)
  simp only [Operator.isSymbolChar, Bool.or_eq_true, beq_iff_eq] at hchar
  rcases hchar with ((rfl | rfl) | rfl) | rfl <;> decide

theorem Unmarked.parentheses (h : text.Unmarked) (hpiece : piece <:+: text) :
    piece.parentheses = [] := by
  apply parentheses_eq_nil_iff.2
  intro c hc
  have hmark := h c (hpiece.subset hc)
  constructor
  · rintro rfl
    exact hmark (by decide)
  · rintro rfl
    exact hmark (by decide)

theorem parentheses_glue (hpad : pad.isBlank) (operator : Operator) :
    parentheses (pad ++ operator.symbol ++ pad) = [] := by
  simp [parentheses_of_isBlank hpad, operator.parentheses_symbol]

theorem lacks_of_mem_glue (hsymbol : ¬ operator.isWord) (hpad : pad.isBlank) :
    ∀ c ∈ pad ++ operator.symbol ++ pad, spelling.Lacks c := by
  have hpadChars : ∀ c ∈ pad, spelling.Lacks c := fun c hc =>
    Spelling.lacks_of_isSpace (List.all_eq_true.1 hpad c hc)
  have hsymbolChars : ∀ c ∈ operator.symbol, spelling.Lacks c := by
    intro c hc
    apply Spelling.lacks_of_isSymbolChar
    rw [(Operator.letter_of_mem_symbol hc).2, Bool.not_eq_true']
    exact Bool.not_eq_true _ ▸ hsymbol
  simp only [List.forall_mem_append]
  exact ⟨⟨hpadChars, hsymbolChars⟩, hpadChars⟩

/-- Two texts with a symbol between them are cut where each of them is cut, if white space is around
the symbol, or no connective beside it. -/
theorem Splits.glue (hsymbol : ¬ operator.isWord) (hpad : pad.isBlank)
    (hfields : Splits spelling field fields) (hvalues : Splits spelling value values)
    (hend : pad ≠ [] ∨ ¬ field.EndsInConnective spelling)
    (hbegin : pad ≠ [] ∨ ¬ value.BeginsInConnective spelling) :
    Splits spelling (field ++ (pad ++ operator.symbol ++ pad ++ value))
      (fields.weld ⟨pad ++ operator.symbol ++ pad ++ values.first, values.rest⟩) := by
  have hlacks : ∀ c ∈ pad ++ operator.symbol ++ pad, spelling.Lacks c :=
    lacks_of_mem_glue hsymbol hpad
  have hne : pad ++ operator.symbol ++ pad ≠ [] := by simp [operator.symbol_ne_nil]
  have hglue : Whole spelling (pad ++ operator.symbol ++ pad) :=
    ⟨balanced_of_parentheses (parentheses_glue hpad operator), unsevered_of_lacks hlacks⟩
  have hvalue := hglue.splits_append hvalues (.inl fun c hc => hlacks c (List.mem_of_getLast? hc))
    (hbegin.imp_left fun hpadNe =>
      (endsApart_append_iff hpadNe).2 (endsApart_of_isBlank hpad hpadNe))
  refine hfields.weld hvalue (by simp [operator.symbol_ne_nil]) ?_ (hend.imp_left fun hpadNe => ?_)
  · intro c hc
    rw [head?_append_of_ne_nil hne] at hc
    exact hlacks c (List.mem_of_head? hc)
  · rw [List.append_assoc, List.append_assoc]
    exact (beginsApart_append_iff hpadNe).2 (beginsApart_of_isBlank hpad hpadNe)

end Text

namespace Grammar

variable {spelling : Spelling} {piece : Text} {tree : Tree}

/-- Without parentheses, a whole text is a term exactly if a condition is read from it. -/
theorem term_trim_iff_of_parentheses (hwhole : piece.Whole spelling)
    (hparens : piece.parentheses = []) :
    Term spelling piece.trim tree ↔
      ∃ condition, tree = .leaf condition ∧ Condition.read piece = .ok condition := by
  have htrim : ∀ condition, Condition.read piece.trim = .ok condition ↔
      Condition.read piece = .ok condition := fun _ =>
    Condition.read_eq_ok_congr fun _ => Clause.read_trim_eq_ok_iff
  have hnotGroup : ∀ inner : Text, piece.trim ≠ '(' :: inner ++ [')'] := by
    intro inner hgroup
    rw [← Text.parentheses_trim, hgroup, Text.parentheses_group] at hparens
    cases hparens
  constructor
  · intro h
    generalize hterm : piece.trim = term at h
    cases h with
    | atom hatom hread =>
      rw [← hterm] at hread
      exact ⟨_, rfl, (htrim _).1 hread⟩
    | group _ => exact absurd hterm (hnotGroup _)
  · rintro ⟨condition, rfl, hread⟩
    refine .atom ⟨⟨?_, Text.tight_trim piece, Text.whole_trim_iff.2 hwhole⟩, fun inner _ =>
      hnotGroup inner⟩ ((htrim condition).2 hread)
    intro hnil
    -- there is a field, so the text is not blank
    rw [Text.trim_eq_nil_iff] at hnil
    rcases Condition.exists_of_read hread with ⟨before, after, -, hcut, hbefore, -, -, -⟩
    rw [Operator.eq_append_of_cut? hcut, Text.isBlank_append, Text.isBlank_append] at hnil
    simp [hbefore] at hnil

variable {text field value pad : Text} {operator : Operator} {fields values : Chain Text}

/-- The piece around the symbol is a term exactly if a condition is read from it without the white
space. -/
theorem term_glued_iff (hsymbol : ¬ operator.isWord) (hpad : pad.isBlank)
    (hfields : field.Splits spelling fields) (hvalues : value.Splits spelling values)
    (hfield : field.Unmarked) (hvalue : value.Unmarked)
    (h : text.Splits spelling
      (fields.weld ⟨pad ++ operator.symbol ++ pad ++ values.first, values.rest⟩)) :
    Term spelling (fields.last ++ (pad ++ operator.symbol ++ pad ++ values.first)).trim tree ↔
      ∃ condition, tree = .leaf condition ∧
        Condition.read (fields.last ++ (operator.symbol ++ values.first)) = .ok condition := by
  have hlast := hfields.isInfix_last
  have hfirst := hvalues.isInfix_first
  have hmem : fields.last ++ (pad ++ operator.symbol ++ pad ++ values.first) ∈
      (fields.weld ⟨pad ++ operator.symbol ++ pad ++ values.first, values.rest⟩).items := by
    rw [Chain.items_weld]
    exact List.mem_append_right _ List.mem_cons_self
  have hparens : Text.parentheses
      (fields.last ++ (pad ++ operator.symbol ++ pad ++ values.first)) = [] := by
    rw [Text.parentheses_append, Text.parentheses_append, Text.parentheses_glue hpad,
      hfield.parentheses hlast, hvalue.parentheses hfirst]
    rfl
  rw [term_trim_iff_of_parentheses (h.whole_and_isInfix_of_mem hmem).1 hparens]
  refine exists_congr fun condition => and_congr_right fun _ => ?_
  refine Condition.read_eq_ok_congr fun clause => ?_
  rw [Clause.read_glued_eq_ok_iff hsymbol hpad (hfield.not_isSymbolChar hlast)
    (hvalue.not_isSymbolChar hfirst), Clause.read_symbol_eq_ok_iff hsymbol
    (hfield.not_isSymbolChar hlast) (hvalue.not_isSymbolChar hfirst)]

end Grammar

namespace Settings

/-- White space around a symbol does not matter, unless a word beside the symbol is spelled as a
connective. If the text before the symbol ends with such a word, or the text behind it begins with
one, then the spaced filter is refused. -/
theorem parse_spacing (spelling : Spelling) {operator : Operator} (hsymbol : ¬ operator.isWord)
    {field value : Text} (hfield : field.Unmarked) (hvalue : value.Unmarked) :
    let joined := field ++ operator.symbol ++ value
    let spaced := field ++ ' ' :: operator.symbol ++ ' ' :: value
    (¬ field.EndsInConnective spelling → ¬ value.BeginsInConnective spelling → ∀ tree,
      (unlimited spelling).parse joined = .ok tree ↔
        (unlimited spelling).parse spaced = .ok tree) ∧
    (field.EndsInConnective spelling ∨ value.BeginsInConnective spelling → ∀ tree,
      (unlimited spelling).parse spaced ≠ .ok tree) := by
  intro joined spaced
  have hbalanced : field.Balanced ∧ value.Balanced :=
    ⟨Text.balanced_of_parentheses (hfield.parentheses (List.infix_refl field)),
      Text.balanced_of_parentheses (hvalue.parentheses (List.infix_refl value))⟩
  rcases hbalanced.1.exists_splits spelling with ⟨fields, hfields⟩
  rcases hbalanced.2.exists_splits spelling with ⟨values, hvalues⟩
  have hspaced : spaced.Splits spelling
      (fields.weld ⟨[' '] ++ operator.symbol ++ [' '] ++ values.first, values.rest⟩) := by
    have hsplits := Text.Splits.glue hsymbol Text.isBlank_blank hfields hvalues (.inl (by simp))
      (.inl (by simp))
    simpa [spaced] using hsplits
  have hterm : ∀ tree, Grammar.Term spelling _ tree ↔ _ := fun _ =>
    Grammar.term_glued_iff hsymbol Text.isBlank_blank hfields hvalues hfield hvalue hspaced
  constructor
  · intro hend hbegin tree
    have hjoined : joined.Splits spelling
        (fields.weld ⟨[] ++ operator.symbol ++ [] ++ values.first, values.rest⟩) := by
      have hsplits := Text.Splits.glue hsymbol Text.isBlank_nil hfields hvalues (.inr hend)
        (.inr hbegin)
      simpa [joined] using hsplits
    rw [parse_unlimited_eq_ok_iff, parse_unlimited_eq_ok_iff]
    refine Grammar.derives_weld_iff hjoined hspaced fun tree => ?_
    rw [hterm tree]
    exact Grammar.term_glued_iff hsymbol Text.isBlank_nil hfields hvalues hfield hvalue hjoined
  · intro hedge tree hparse
    rcases Grammar.exists_term_of_derives_weld hspaced (parse_unlimited_eq_ok_iff.1 hparse) with
      ⟨tree', hderived⟩
    rcases (hterm tree').1 hderived with ⟨condition, -, hread⟩
    -- there would be nothing before the symbol, or nothing behind it
    rcases Condition.read_eq_ok_iff.1 hread with ⟨clause, hclause, -⟩
    rw [Clause.read_symbol_eq_ok_iff hsymbol (hfield.not_isSymbolChar hfields.isInfix_last)
      (hvalue.not_isSymbolChar hvalues.isInfix_first)] at hclause
    rcases hclause with ⟨hbefore, hafter, -⟩
    rcases hedge with hend | hbegin
    · rw [hfields.last_eq_nil hend] at hbefore
      exact hbefore Text.isBlank_nil
    · rw [hvalues.first_eq_nil hbegin] at hafter
      exact hafter Text.isBlank_nil

/-- The title `a` is read with white space or without, the title `OR` not with white space. -/
theorem parse_spacing_title :
    let title : Tree := .leaf ⟨.standard "title".toList, .equal, .single (.text "a".toList), none⟩
    ¬ Operator.equal.isWord ∧ Text.Unmarked "title".toList ∧ Text.Unmarked "OR".toList ∧
      (unlimited .anyCase).parse "title=a".toList = .ok title ∧
      (unlimited .anyCase).parse "title = a".toList = .ok title ∧
      ∀ tree, (unlimited .anyCase).parse "title = OR".toList ≠ .ok tree := by
  intro title
  have hsymbol : ¬ Operator.equal.isWord := by decide
  have hfield : Text.Unmarked "title".toList := by decide
  have hvalue : Text.Unmarked "a".toList := by decide
  have hvalue' : Text.Unmarked "OR".toList := by decide
  -- neither text is cut, so there is no connective at its end
  have hfields : Text.Splits .anyCase "title".toList ⟨"title".toList, []⟩ :=
    Text.cut_eq_iff_splits.1 (by decide)
  have hvalues : Text.Splits .anyCase "a".toList ⟨"a".toList, []⟩ :=
    Text.cut_eq_iff_splits.1 (by decide)
  have hend : ¬ Text.EndsInConnective .anyCase "title".toList := fun h =>
    absurd (hfields.last_eq_nil h) (by decide)
  have hbegin : ¬ Text.BeginsInConnective .anyCase "a".toList := fun h =>
    absurd (hvalues.first_eq_nil h) (by decide)
  have hbegin' : Text.BeginsInConnective .anyCase "OR".toList :=
    ⟨"OR".toList, [], .or, rfl, Text.balanced_nil, by decide, .inl rfl, .inl rfl⟩
  have hjoined : (unlimited .anyCase).parse "title=a".toList = .ok title := by decide +kernel
  exact ⟨hsymbol, hfield, hvalue', hjoined,
    ((parse_spacing .anyCase hsymbol hfield hvalue).1 hend hbegin title).1 hjoined,
    (parse_spacing .anyCase hsymbol hfield hvalue').2 (.inr hbegin')⟩

/-- The title is `OR`, unless white space makes the word a connective. -/
theorem parse_joined_titleOr :
    let field : Text := "title".toList
    let value : Text := "OR".toList
    field ≠ [] ∧ field.Tight ∧ field.Unmarked ∧ value ≠ [] ∧ value.Tight ∧ value.Unmarked ∧
      (unlimited .anyCase).parse (field ++ Operator.equal.symbol ++ value) =
        .ok (.leaf ⟨.standard "title".toList, .equal, .single (.text "OR".toList), none⟩) ∧
      (unlimited .anyCase).parse (field ++ ' ' :: Operator.equal.symbol ++ ' ' :: value) =
        .error (.malformed "title = OR".toList .missingOperand) := by
  intro field value
  have htight : ∀ text : Text, text.trim = text → text.Tight := fun text htrim =>
    htrim ▸ Text.tight_trim text
  exact ⟨by decide, htight field (by decide), by decide, by decide, htight value (by decide),
    by decide, by decide +kernel, by decide +kernel⟩

end Settings

end ListingFilter
