import ListingFilter.Proofs.Limits

/-!
# Imbalance — texts with an unmatched parenthesis

A text is cut at its connectives before anything in it is read, so an unmatched parenthesis is found
before every fault of a condition and whatever the limit on nesting. Only a connective that lacks its
operand further left is reported instead (`segments_of_not_balanced`). The text between two matched
parentheses is balanced, so a balanced text is never refused for its parentheses
(`readExpression_ne_unbalanced`).

The main statement is `parse_imbalance`.
-/

namespace ListingFilter

/-! ## Missing operands -/

theorem Cut.closed_sever (connective : Connective) (cut : Cut) (before : Text) :
    (prepend before (sever connective cut)).segments.closed = before :: cut.segments.closed := by
  simp [prepend, sever, Chain.closed, Chain.items]

namespace Text

/-- A text that closes a parenthesis that is not open is balanced up to the first such place. -/
theorem exists_of_level?_eq_none {depth : Nat} {text : Text} (h : level? depth text = none) :
    ∃ before after : Text, text = before ++ ')' :: after ∧ level? depth before = some 0 := by
  induction text generalizing depth with
  | nil => cases h
  | cons c rest ih =>
    have hsplit : ((level? depth [c]).bind fun reached => level? reached rest) = none := by
      rw [← level?_append]
      exact h
    cases hfirst : level? depth [c] with
    | none =>
      -- the first character closes a parenthesis that is not open
      by_cases hopen : c = '('
      · simp [level?, hopen] at hfirst
      · by_cases hclose : c = ')'
        · cases depth with
          | zero => exact ⟨[], rest, by simp [hclose], rfl⟩
          | succ depth => simp [level?, hclose] at hfirst
        · simp [level?, hopen, hclose] at hfirst
    | some reached =>
      rw [hfirst] at hsplit
      rcases ih hsplit with ⟨before, after, rfl, hbefore⟩
      refine ⟨c :: before, after, rfl, ?_⟩
      have hjoin : level? depth ([c] ++ before) = some 0 := by
        rw [level?_append, hfirst]
        exact hbefore
      exact hjoin

variable {spelling : Spelling} {text : Text}

/-- A text that nothing severs is not cut, balanced or not. -/
theorem Unsevered.closed_cut (h : text.Unsevered spelling) :
    (text.cut spelling).segments.closed = [] := by
  unfold cut
  cases hlevel : level? 0 text with
  | some reached =>
    rw [← List.append_nil text, Cut.scan_of_unsevered (by rwa [List.append_nil]) hlevel]
    rfl
  | none =>
    -- the scan ends at the first parenthesis that has no partner
    rcases exists_of_level?_eq_none hlevel with ⟨before, after, rfl, hbefore⟩
    rw [Cut.scan_of_unsevered h hbefore]
    rfl

/-- A connective severs the text with nothing but white space between it and the connective before
it, or the start of the text. -/
def LacksOperand (spelling : Spelling) (text : Text) : Prop :=
  ∃ (before gap word after : Text) (connective : Connective),
    text = before ++ gap ++ word ++ after ∧ gap.isBlank ∧
      connective.Severs spelling (before ++ gap) word after ∧
      (before = [] ∨ ∃ (start previous : Text) (connective' : Connective),
        before = start ++ previous ∧
          connective'.Severs spelling start previous (gap ++ word ++ after))

theorem Unsevered.not_lacksOperand (h : text.Unsevered spelling) : ¬ text.LacksOperand spelling := by
  rintro ⟨before, gap, word, after, connective, htext, -, hsevers, -⟩
  exact h (before ++ gap) word after connective htext hsevers

/-- The operand that is missing is the one before the first connective, or it is missing behind it. -/
theorem LacksOperand.of_sever {before word after : Text} {connective : Connective}
    (hwhole : before.Whole spelling) (h : connective.Severs spelling before word after)
    (hlacks : LacksOperand spelling (before ++ word ++ after)) :
    before.isBlank ∨ LacksOperand spelling after := by
  rcases hlacks with ⟨before', gap, word', after', k, htext, hgap, hsevers, hprevious⟩
  rcases h.same_or_behind hwhole hsevers htext.symm with
    ⟨hbefore, -, -⟩ | ⟨middle, hbefore, hafter, hbehind⟩
  · -- it is the first connective, so none stands before it
    left
    rcases hprevious with rfl | ⟨start, previous, k', rfl, hprevious⟩
    · rw [List.nil_append] at hbefore
      rwa [← hbefore]
    · refine absurd ⟨hprevious.outermost, hprevious.accepted, hprevious.before_apart, ?_⟩
        (hwhole.unsevered start previous gap k' hbefore.symm)
      by_cases hne : gap = []
      · exact .inl hne
      · exact .inr (beginsApart_of_isBlank hgap hne)
  · right
    rcases hprevious with rfl | ⟨start, previous, k', rfl, hprevious⟩
    · -- the first connective would be white space
      exfalso
      rw [List.nil_append] at hbefore
      have hblank : isBlank word := by
        rw [hbefore, isBlank_append, isBlank_append, Bool.and_eq_true, Bool.and_eq_true] at hgap
        exact hgap.1.2
      rcases List.exists_mem_of_ne_nil word (Connective.ne_nil_of_accepts h.accepted) with ⟨c, hc⟩
      exact Connective.not_isSpace_of_accepts h.accepted hc (List.all_eq_true.1 hblank c hc)
    · have hwhere : start ++ previous ++ (gap ++ word' ++ after') = before ++ word ++ after := by
        rw [htext]
        simp only [List.append_assoc]
      rcases h.same_or_behind hwhole hprevious hwhere with
        ⟨rfl, rfl, hrest⟩ | ⟨middle', rfl, hrest, hbehind'⟩
      · -- the one before it is the first connective
        obtain rfl : gap = middle := List.append_cancel_left hbefore
        exact ⟨[], gap, word', after', k, by simpa using hafter, hgap, hbehind, .inl rfl⟩
      · have hjoined : before ++ word ++ (middle' ++ previous ++ gap) = before ++ word ++ middle := by
          rw [← hbefore]
          simp only [List.append_assoc]
        obtain rfl := List.append_cancel_left hjoined
        exact ⟨middle' ++ previous, gap, word', after', k, hafter, hgap, hbehind,
          .inr ⟨middle', previous, k', rfl, hbehind'⟩⟩

/-- An operand that is missing behind a connective is missing in the whole text. -/
theorem LacksOperand.sever {before word after : Text} {connective : Connective}
    (h : connective.Severs spelling before word after) (hlacks : LacksOperand spelling after) :
    LacksOperand spelling (before ++ word ++ after) := by
  rcases hlacks with ⟨before', gap, word', after', k, rfl, hgap, hsevers, hprevious⟩
  have hbehind := h.behind rfl hsevers
  refine ⟨before ++ word ++ before', gap, word', after', k, by simp only [List.append_assoc],
    hgap, by simpa only [List.append_assoc] using hbehind, .inr ?_⟩
  rcases hprevious with rfl | ⟨start, previous, k', rfl, hprevious⟩
  · exact ⟨before, word, connective, by simp, by simpa using h⟩
  · have hearlier := h.behind (by simp only [List.append_assoc]) hprevious
    exact ⟨before ++ word ++ start, previous, k', by simp only [List.append_assoc], hearlier⟩

/-- An operand is missing before the first connective, or behind it. -/
theorem lacksOperand_sever_iff {before word after : Text} {connective : Connective}
    (hwhole : before.Whole spelling) (h : connective.Severs spelling before word after) :
    LacksOperand spelling (before ++ word ++ after) ↔
      before.isBlank ∨ LacksOperand spelling after := by
  constructor
  · exact LacksOperand.of_sever hwhole h
  · rintro (hblank | hlacks)
    · exact ⟨[], before, word, after, connective, rfl, hblank, h, .inl rfl⟩
    · exact hlacks.sever h

/-- The scan closes a blank segment exactly if an operand is missing. -/
theorem any_closed_cut_iff : (text.cut spelling).segments.closed.any isBlank ↔
    text.LacksOperand spelling := by
  induction hn : text.length using Nat.strongRecOn generalizing text with
  | ind n ih =>
    rcases unsevered_or_severs text spelling with
      hunsevered | ⟨before, word, after, k, rfl, hwhole, hsevers⟩
    · rw [hunsevered.closed_cut]
      simp [hunsevered.not_lacksOperand]
    · have hshorter : after.length < n := by
        have hpos := List.length_pos_iff.2 (Connective.ne_nil_of_accepts hsevers.accepted)
        simp only [List.length_append] at hn
        omega
      have hrest := ih after.length hshorter rfl
      rw [lacksOperand_sever_iff hwhole hsevers, ← hrest, cut, List.append_assoc,
        hwhole.scan_append hsevers, Cut.closed_sever, List.any_cons, Bool.or_eq_true]
      rfl

/-! ## The fault of an unbalanced text -/

/-- Cutting a text with an unmatched parenthesis fails for a missing operand, and for the parenthesis
if no operand is missing before it. -/
theorem segments_of_not_balanced (h : ¬ text.Balanced) :
    (text.LacksOperand spelling → text.segments spelling = .error (.malformed text .missingOperand)) ∧
      (¬ text.LacksOperand spelling → text.segments spelling = .error (.unbalanced text)) := by
  have hbalanced : (text.cut spelling).balanced = false := by
    rw [balanced_cut, ← Bool.not_eq_true, isBalanced_iff]
    exact h
  rw [← any_closed_cut_iff]
  simp only [segments, hbalanced]
  constructor
  · intro hlacks
    simp [hlacks]
  · intro hlacks
    simp [hlacks]

/-- Cutting a balanced text never fails for a parenthesis. -/
theorem Balanced.segments_ne_unbalanced (h : text.Balanced) (content : Text) :
    text.segments spelling ≠ .error (.unbalanced content) := by
  intro hsegments
  simp [segments, balanced_cut, isBalanced_iff.2 h, ite_error_eq_error_iff] at hsegments

end Text

namespace Tree

variable {spelling : Spelling} {limit allowance : Nat} {text : Text}

/-- A balanced text is never refused for its parentheses: what stands in a group in it is balanced
too. -/
theorem readExpression_ne_unbalanced (h : text.Balanced) (content : Text) :
    readExpression spelling (readGroup spelling limit allowance) text ≠
      .error (.unbalanced content) := by
  induction allowance generalizing text with
  | zero =>
    intro hread
    rcases readExpression_eq_error hread with hsegments | hcondition | ⟨-, inner, -, -, hgroup⟩
    · exact h.segments_ne_unbalanced content hsegments
    · exact hcondition
    · cases hgroup
  | succ allowance ih =>
    intro hread
    rcases readExpression_eq_error hread with hsegments | hcondition | ⟨-, inner, hinner, -, hgroup⟩
    · exact h.segments_ne_unbalanced content hsegments
    · exact hcondition
    · unfold readGroup at hgroup
      simp only [ite_error_eq_error_iff, reduceCtorEq, and_false, false_or] at hgroup
      exact ih hinner hgroup.2

/-- Only balanced texts are read. -/
theorem balanced_of_readExpression {readGroup : Text → Text → Except Fault Tree} {tree : Tree}
    (h : readExpression spelling readGroup text = .ok tree) : text.Balanced := by
  unfold readExpression at h
  rcases bind_eq_ok_iff.1 h with ⟨terms, hterms, -⟩
  exact (Text.segments_eq_ok_iff.1 hterms).balanced

theorem readExpression_of_segments_eq_error {readGroup : Text → Text → Except Fault Tree}
    {fault : Fault} (h : text.segments spelling = .error fault) :
    readExpression spelling readGroup text = .error fault := by
  unfold readExpression
  rw [h]
  rfl

end Tree

namespace Settings

/-- A filter that is neither blank nor too long is read as its trimmed text. -/
theorem refusal?_eq_none {settings : Settings} {text : Text} (hblank : ¬ text.isBlank)
    (hlength : ∀ limit, settings.maxLength = some limit → text.utf8Size ≤ limit) :
    settings.refusal? text = none := by
  unfold refusal?
  split
  · rename_i limit hlimit
    simp [Nat.not_lt.2 (hlength limit hlimit), hblank]
  · simp [hblank]

/-- Unmatched parentheses are always found, and nothing else is taken for one. Of a filter that is
neither blank nor too long, whatever the limit on nesting, the trimmed text is balanced if it is
read; it is unbalanced, and reported as a whole, if it is refused for its parentheses; and if it is
unbalanced, it is refused for its parentheses unless a connective lacks its operand further left. -/
theorem parse_imbalance (settings : Settings) (text : Text) (hblank : ¬ text.isBlank)
    (hlength : ∀ limit, settings.maxLength = some limit → text.utf8Size ≤ limit) :
    (∀ tree, settings.parse text = .ok tree → text.trim.Balanced) ∧
    (∀ content, settings.parse text = .error (.unbalanced content) →
      ¬ text.trim.Balanced ∧ content = text.trim) ∧
    (¬ text.trim.Balanced → ¬ text.trim.LacksOperand settings.spelling →
      settings.parse text = .error (.unbalanced text.trim)) ∧
    (¬ text.trim.Balanced → text.trim.LacksOperand settings.spelling →
      settings.parse text = .error (.malformed text.trim .missingOperand)) := by
  rw [parse_of_refusal?_eq_none (refusal?_eq_none hblank hlength)]
  refine ⟨?_, ?_, ?_, ?_⟩
  · intro tree hread
    exact Tree.balanced_of_readExpression hread
  · intro content hread
    have hbalanced : ¬ text.trim.Balanced := fun h =>
      Tree.readExpression_ne_unbalanced h content hread
    refine ⟨hbalanced, ?_⟩
    -- the text is cut before anything in it is read, so its own fault is the one reported
    rcases Tree.readExpression_eq_error hread with hsegments | hcondition | ⟨h, -⟩
    · rcases Text.segments_eq_error hsegments with hfault | hfault
      · cases hfault
      · exact Fault.unbalanced.inj hfault
    · exact hcondition.elim
    · exact absurd h hbalanced
  · intro hbalanced hoperand
    exact Tree.readExpression_of_segments_eq_error
      ((Text.segments_of_not_balanced hbalanced).2 hoperand)
  · intro hbalanced hoperand
    exact Tree.readExpression_of_segments_eq_error
      ((Text.segments_of_not_balanced hbalanced).1 hoperand)

/-- An open parenthesis is reported before the group that is nested too deep, and an operand that is
missing before it is reported instead. -/
theorem parse_imbalance_title :
    let settings := limited .anyCase 0 12
    let read : Text := "title = a".toList
    let opened : Text := "((title = a)".toList
    let headless : Text := " or (title".toList
    ¬ opened.isBlank ∧ opened.utf8Size ≤ 12 ∧ read.trim.Balanced ∧ ¬ opened.trim.Balanced ∧
      settings.parse opened = .error (.unbalanced opened) ∧
      settings.parse headless = .error (.malformed "or (title".toList .missingOperand) := by
  intro settings read opened headless
  have hlength : ∀ text : Text, text.utf8Size ≤ 12 →
      ∀ limit, settings.maxLength = some limit → text.utf8Size ≤ limit := by
    intro text hsize limit hlimit
    rwa [← Option.some.inj hlimit]
  have hread : settings.parse read =
      .ok (.leaf ⟨.standard "title".toList, .equal, .single (.text "a".toList), none⟩) := by
    decide +kernel
  have hopened : ¬ opened.trim.Balanced ∧ ¬ opened.trim.LacksOperand .anyCase := by
    rw [← Text.isBalanced_iff, ← Text.any_closed_cut_iff]
    decide
  have hheadless : ¬ headless.trim.Balanced := by
    rw [← Text.isBalanced_iff]
    decide
  have hlacks : headless.trim.LacksOperand .anyCase :=
    ⟨[], [], "or".toList, " (title".toList, .or, by decide, by decide,
      ⟨Text.balanced_nil, by decide, .inl rfl, .inr (Text.beginsApart_blank_append _)⟩, .inl rfl⟩
  rcases parse_imbalance settings read (by decide) (hlength _ (by decide)) with ⟨hok, -, -, -⟩
  rcases parse_imbalance settings opened (by decide) (hlength _ (by decide)) with
    ⟨-, hreported, hfound, -⟩
  rcases parse_imbalance settings headless (by decide) (hlength _ (by decide)) with
    ⟨-, -, -, hoperand⟩
  have hfault := hfound hopened.1 hopened.2
  exact ⟨by decide, by decide, hok _ hread, (hreported _ hfault).1, hfault,
    hoperand hheadless hlacks⟩

end Settings

end ListingFilter
