import ListingFilter.Proofs.Occurrence

/-!
# Searches — the two searches for an operator

A symbol is searched for by going through the text once and keeping the run of symbol characters that
has not ended yet. A word is searched for from one occurrence to the next, and no two of those that
are looked at overlap. Either way the place found is the one where a condition is cut.

What both searches keep true is that the text gone through is clear (`Operator.Clear`): the first place
where the operator stands is not within it. A piece whose characters cling to the operator adds to the
clear text as a whole, unless the operator stands at its start (`Clear.append`), so neither a run that
is not the symbol nor an occurrence that is touched needs a second look.

The main statement is `Operator.offset?_eq`.
-/

namespace ListingFilter

namespace Operator

variable {operator : Operator} {before piece text : Text}

theorem clings_of_isWord (h : operator.isWord) : operator.clings = isWordChar :=
  funext fun _ => if_pos h

theorem clings_of_not_isWord (h : ¬ operator.isWord) : operator.clings = isSymbolChar :=
  funext fun _ => if_neg h

theorem stands_none_iff {after : Text} : operator.Stands none before after ↔
    ¬ before.getLast?.any operator.clings ∧ ¬ after.head?.any operator.clings := by
  constructor
  · rintro ⟨hbefore, hafter⟩
    exact ⟨by simpa using hbefore, hafter⟩
  · rintro ⟨hbefore, hafter⟩
    exact ⟨by simpa using hbefore, hafter⟩

/-! ## The text gone through -/

/-- The first place where the operator stands in `before ++ text`, if any, is not within `before`. -/
def Clear (operator : Operator) (before text : Text) : Prop :=
  ∀ start rest : Text, operator.cut? (before ++ text) = some (start, rest) →
    before.length ≤ start.length

theorem clear_nil (operator : Operator) (text : Text) : operator.Clear [] text :=
  fun _ _ _ => Nat.zero_le _

/-- Where the operator stands behind a clear text, the text is cut. -/
theorem Clear.cut? {after : Text} (h : operator.Clear before (operator.symbol ++ after))
    (hstands : operator.Stands none before after) :
    operator.cut? (before ++ (operator.symbol ++ after)) = some (before, after) := by
  have hsome := isSome_cut?_iff.2 ⟨before, after, rfl, hstands⟩
  rcases Option.isSome_iff_exists.1 hsome with ⟨⟨start, rest⟩, hcut⟩
  refine cut?_eq_some_iff.2 ⟨rfl, hstands, fun start' rest' htext' hstands' => ?_⟩
  exact Nat.le_trans (h start rest hcut)
    ((cut?_eq_some_iff.1 hcut).2.2 start' rest' htext' hstands')

/-- A text that is clear to its end is not cut. -/
theorem Clear.cut?_eq_none (h : operator.Clear before []) : operator.cut? before = none := by
  rw [Option.eq_none_iff_forall_ne_some]
  rintro ⟨start, rest⟩ hcut
  have htext := (cut?_eq_some_iff.1 hcut).1
  have hle := h start rest (by rwa [List.append_nil])
  have hpos := List.length_pos_iff.2 operator.symbol_ne_nil
  have hlength := congrArg List.length htext
  simp only [List.length_append] at hlength
  omega

/-- A piece is clear if the operator does not stand at its start and all its characters but the last
cling to the operator. -/
theorem Clear.append (h : operator.Clear before (piece ++ text))
    (hclings : ∀ c ∈ piece.dropLast, operator.clings c)
    (hnot : ∀ after, piece ++ text = operator.symbol ++ after → ¬ operator.Stands none before after) :
    operator.Clear (before ++ piece) text := by
  intro start rest hcut
  rw [List.append_assoc] at hcut
  rcases cut?_eq_some_iff.1 hcut with ⟨htext, hstands, -⟩
  have hle := h start rest hcut
  rcases List.append_eq_append_iff.1 htext with ⟨passed, rfl, hpiece⟩ | ⟨more, rfl, hpiece⟩
  · rcases List.append_eq_append_iff.1 hpiece with ⟨more, rfl, -⟩ | ⟨inside, hsplit, hrest⟩
    · simp
    · -- the place is within the piece
      by_cases hinside : inside = []
      · rw [hinside, List.append_nil] at hsplit
        simp [hsplit]
      · exfalso
        rcases List.eq_nil_or_concat passed with rfl | ⟨front, c, rfl⟩
        · rw [List.append_nil] at hstands
          exact hnot rest hpiece hstands
        · have hc : c ∈ piece.dropLast := by
            rw [hsplit, List.dropLast_append_of_ne_nil hinside]
            simp
          apply hstands.before
          simpa using hclings c hc
  · obtain rfl : more = [] := by
      rw [List.length_append] at hle
      exact List.length_eq_zero_iff.1 (by omega)
    exact absurd (by simpa using hstands) (hnot rest (by simpa using hpiece.symm))

/-- A character where the operator does not begin is clear. -/
theorem Clear.concat {c : Char} {rest : Text} (h : operator.Clear before (c :: rest))
    (hnot : ∀ after, c :: rest = operator.symbol ++ after → ¬ operator.Stands none before after) :
    operator.Clear (before ++ [c]) rest :=
  @Clear.append operator before [c] rest h (by simp) hnot

/-- A text that begins with the operator begins with its first letter. -/
theorem exists_letters {c : Char} {rest after : Text} (h : c :: rest = operator.symbol ++ after) :
    ∃ letters, operator.symbol = c :: letters ∧ rest = letters ++ after := by
  rcases List.exists_cons_of_ne_nil operator.symbol_ne_nil with ⟨letter, letters, hsymbol⟩
  rw [hsymbol, List.cons_append] at h
  obtain ⟨rfl, hrest⟩ := List.cons.inj h
  exact ⟨letters, hsymbol, hrest⟩

/-! ## Symbols -/

theorem isSymbolChar_of_mem_symbol (h : ¬ operator.isWord) {c : Char} (hc : c ∈ operator.symbol) :
    isSymbolChar c := by
  rw [(letter_of_mem_symbol hc).2, Bool.eq_false_iff.2 h]
  rfl

/-- A run goes on to the next character that is no symbol character. -/
theorem takeWhile_run {run : Text} (hrun : ∀ c ∈ run, isSymbolChar c)
    (hend : ¬ text.head?.any isSymbolChar) : (run ++ text).takeWhile isSymbolChar = run := by
  rw [List.takeWhile_append_of_pos hrun]
  cases text with
  | nil => simp
  | cons c rest => rw [List.takeWhile_cons_of_neg (by simpa using hend), List.append_nil]

/-- A run that is spelled like the symbol ends behind it. -/
theorem takeWhile_eq_symbol_iff (h : ¬ operator.isWord) :
    text.takeWhile isSymbolChar = operator.symbol ↔
      ∃ after, text = operator.symbol ++ after ∧ ¬ after.head?.any isSymbolChar := by
  constructor
  · intro hrun
    refine ⟨text.dropWhile isSymbolChar, ?_, ?_⟩
    · rw [← hrun, List.takeWhile_append_dropWhile]
    · cases hdrop : text.dropWhile isSymbolChar with
      | nil => simp
      | cons c after =>
        have hstop := List.head?_dropWhile_not isSymbolChar text
        simpa [hdrop] using hstop
  · rintro ⟨after, rfl, hafter⟩
    exact takeWhile_run (fun c => isSymbolChar_of_mem_symbol h) hafter

/-- What the search for a symbol knows when `before` is behind it and `text` ahead: all that is behind
is clear and no run goes on, or what is in front of the run is clear and the run begins there. -/
inductive Tracks (operator : Operator) : Text → Option (Nat × Text) → Text → Prop where
  | outside {before text : Text} : ¬ before.getLast?.any isSymbolChar →
      operator.Clear before text → Tracks operator before none text
  | inside {start run text : Text} : (∀ c ∈ run, isSymbolChar c) →
      ¬ start.getLast?.any isSymbolChar → operator.Clear start (run ++ text) →
      Tracks operator (start ++ run) (some (start.utf8Size, run)) text

namespace Tracks

variable {run : Option (Nat × Text)} {c : Char} {rest : Text}

/-- A symbol character begins a run or goes on with it. -/
theorem symbolChar (h : operator.Tracks before run (c :: rest)) (hc : isSymbolChar c) :
    operator.Tracks (before ++ [c])
      (some ((run.getD (before.utf8Size, [])).1, (run.getD (before.utf8Size, [])).2 ++ [c])) rest := by
  cases h with
  | outside hlast hclear => exact .inside (by simpa using hc) hlast hclear
  | inside hrun hlast hclear =>
    rw [List.append_assoc]
    refine .inside ?_ hlast ?_
    · rw [List.forall_mem_append]
      exact ⟨hrun, by simpa using hc⟩
    · rwa [List.append_assoc]

/-- Where no run goes on, the run behind is the symbol and the text is cut there, or all that is
behind is clear. -/
theorem ended (hword : ¬ operator.isWord) (h : operator.Tracks before run text)
    (hend : ¬ text.head?.any isSymbolChar) :
    (∃ start, runOffset? operator.symbol run = some start ∧
      (operator.cut? (before ++ text)).map (fun (start, _) => start.utf8Size) = some start) ∨
    runOffset? operator.symbol run = none ∧ operator.Clear before text := by
  have hclings := clings_of_not_isWord hword
  cases h with
  | outside _ hclear => exact .inr ⟨rfl, hclear⟩
  | @inside start run _ hrun hlast hclear =>
    by_cases hsymbol : run = operator.symbol
    · subst hsymbol
      refine .inl ⟨_, if_pos rfl, ?_⟩
      have hstands : operator.Stands none start text := by
        rw [stands_none_iff, hclings]
        exact ⟨hlast, hend⟩
      rw [List.append_assoc, hclear.cut? hstands]
      rfl
    · refine .inr ⟨if_neg hsymbol, hclear.append ?_ ?_⟩
      · intro c hc
        rw [hclings]
        exact hrun c (List.dropLast_subset run hc)
      · -- a symbol that stands where the run begins is the run
        intro after hsame hstands
        rw [stands_none_iff, hclings] at hstands
        have hsymbol' := (takeWhile_eq_symbol_iff hword).2 ⟨after, hsame, hstands.2⟩
        exact hsymbol ((takeWhile_run hrun hend).symm.trans hsymbol')

end Tracks

/-- The search for a symbol finds the place where the text is cut. -/
theorem Tracks.symbolOffset?_eq (hword : ¬ operator.isWord) {run : Option (Nat × Text)}
    (h : operator.Tracks before run text) :
    symbolOffset? operator.symbol before.utf8Size run text =
      (operator.cut? (before ++ text)).map fun (start, _) => start.utf8Size := by
  induction text generalizing before run with
  | nil =>
    rw [symbolOffset?]
    rcases h.ended hword (by simp) with ⟨start, hrun, hcut⟩ | ⟨hrun, hclear⟩
    · rw [hrun, hcut]
    · rw [hrun, List.append_nil, hclear.cut?_eq_none]
      rfl
  | cons c rest ih =>
    have hsize : (before ++ [c]).utf8Size = before.utf8Size + c.utf8Size := by simp
    have hsplit : before ++ c :: rest = before ++ [c] ++ rest := by simp
    rw [symbolOffset?]
    by_cases hc : isSymbolChar c
    · have hnext := ih (h.symbolChar hc)
      rw [hsize] at hnext
      rw [if_pos hc, hsplit]
      exact hnext
    · rw [if_neg hc]
      rcases h.ended hword (by simpa using hc) with ⟨start, hrun, hcut⟩ | ⟨hrun, hclear⟩
      · rw [hrun, hcut]
      · have hnext := ih (.outside (by simpa using hc) (hclear.concat fun after hsame _ => ?_))
        · rw [hsize] at hnext
          rw [hrun, hsplit]
          exact hnext
        · -- the operator would begin with a symbol character
          rcases exists_letters hsame with ⟨letters, hsymbol, -⟩
          apply hc
          apply isSymbolChar_of_mem_symbol hword
          rw [hsymbol]
          exact List.mem_cons_self

/-! ## Words -/

/-- An occurrence that is touched is clear as a whole: another one that begins within it would be
touched by the letter in front of it. -/
theorem Clear.touched {after : Text} (h : operator.Clear before (operator.symbol ++ after))
    (htouched : before.getLast?.any operator.clings || after.head?.any operator.clings) :
    operator.Clear (before ++ operator.symbol) after := by
  refine h.append ?_ ?_
  · intro letter hletter
    exact (clings_iff_of_mem_symbol (List.dropLast_subset _ hletter)).2 rfl
  · intro other hother
    rw [← List.append_cancel_left hother, stands_none_iff, ← not_or, ← Bool.or_eq_true, not_not]
    exact htouched

/-- The search for a word finds the place where the text is cut. What it passes over next is clear like
what is behind it. -/
theorem wordOffset?_eq (hword : operator.isWord) {skip : Nat}
    (h : operator.Clear (before ++ text.take skip) (text.drop skip)) :
    wordOffset? operator.symbol before.getLast? before.utf8Size skip text =
      (operator.cut? (before ++ text)).map fun (start, _) => start.utf8Size := by
  have hclings := clings_of_isWord hword
  induction text generalizing before skip with
  | nil =>
    rw [List.take_nil, List.drop_nil, List.append_nil] at h
    rw [wordOffset?, List.append_nil, h.cut?_eq_none]
    rfl
  | cons c rest ih =>
    have hlast : (before ++ [c]).getLast? = some c := by simp
    have hsize : (before ++ [c]).utf8Size = before.utf8Size + c.utf8Size := by simp
    have hsplit : before ++ c :: rest = before ++ [c] ++ rest := by simp
    have hnext := fun skip => @ih (before ++ [c]) skip
    rw [hlast, hsize, ← hsplit] at hnext
    cases skip with
    | succ skip =>
      rw [List.take_succ_cons, List.drop_succ_cons] at h
      rw [wordOffset?]
      apply hnext
      rwa [List.append_assoc]
    | zero =>
      rw [List.take_zero, List.drop_zero, List.append_nil] at h
      rw [wordOffset?]
      cases hstart : operator.symbol.afterStart? (c :: rest) with
      | none =>
        apply hnext
        rw [List.take_zero, List.drop_zero, List.append_nil]
        refine h.concat fun after hsame => ?_
        rw [Text.afterStart?_eq_some_iff.2 hsame] at hstart
        cases hstart
      | some after =>
        have hsame := Text.afterStart?_eq_some_iff.1 hstart
        rcases exists_letters hsame with ⟨letters, hsymbol, rfl⟩
        rw [hsame] at h
        dsimp only
        by_cases htouched : before.getLast?.any isWordChar || after.head?.any isWordChar
        · rw [if_pos htouched]
          rw [← hclings] at htouched
          apply hnext
          have hclear := h.touched htouched
          rwa [hsymbol, List.length_cons, Nat.add_sub_cancel, List.take_left, List.drop_left,
            List.append_assoc, List.singleton_append, ← hsymbol]
        · rw [if_neg htouched]
          rw [Bool.or_eq_true, not_or, ← hclings, ← stands_none_iff] at htouched
          rw [hsame, h.cut? htouched]
          rfl

/-- The place of an operator is where a text is cut at it. -/
theorem offset?_eq (operator : Operator) (text : Text) :
    operator.offset? text = (operator.cut? text).map fun (before, _) => before.utf8Size := by
  unfold offset?
  by_cases hword : operator.isWord
  · rw [if_pos hword]
    exact @wordOffset?_eq operator [] text hword 0 (operator.clear_nil text)
  · rw [if_neg hword]
    exact Tracks.symbolOffset?_eq hword (.outside (by simp) (operator.clear_nil text))

end Operator

end ListingFilter
