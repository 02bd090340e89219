import ListingFilter.Proofs.Faults
import ListingFilter.Proofs.Rendering

/-!
# Limits — what the limits of a filter change

The limit on nesting is an allowance, and every level of parentheses uses up one unit of it. Two
readings with different allowances go the same way until the smaller one is used up
(`cutShort_readGroup`): then the one is cut short and the other goes on. Where that happens, more
parentheses are open in the text than the allowance has units (`opens_of_tooDeep`), so an allowance
of as many units as the text has characters is never used up.

The main statement, `parse_limited`, compares reading within limits and without.
-/

namespace ListingFilter

variable {α β : Type} {spelling : Spelling} {limit limit' allowance allowance' : Nat} {text : Text}

/-! ## Readings cut short -/

/-- The outcome is the other one, or the reading was cut short by the limit on nesting. -/
def CutShort (limit : Nat) (outcome other : Except Fault α) : Prop :=
  outcome = other ∨ outcome = .error (.tooDeep limit)

namespace CutShort

theorem refl (outcome : Except Fault α) : CutShort limit outcome outcome :=
  .inl rfl

theorem bind {outcome other : Except Fault α} {next next' : α → Except Fault β}
    (h : CutShort limit outcome other) (hnext : ∀ a, CutShort limit (next a) (next' a)) :
    CutShort limit (outcome >>= next) (other >>= next') := by
  rcases h with rfl | rfl
  · cases outcome with
    | error fault => exact .inl rfl
    | ok a => exact hnext a
  · exact .inr rfl

theorem mapM {f g : α → Except Fault β} (h : ∀ a, CutShort limit (f a) (g a)) (as : List α) :
    CutShort limit (as.mapM f) (as.mapM g) := by
  induction as with
  | nil => exact .inl rfl
  | cons a as ih =>
    rw [List.mapM_cons, List.mapM_cons]
    exact (h a).bind fun b => ih.bind fun bs => refl _

theorem traverse {f g : α → Except Fault β} (h : ∀ a, CutShort limit (f a) (g a))
    (chain : Chain α) : CutShort limit (chain.traverse f) (chain.traverse g) :=
  (h chain.first).bind fun _ =>
    (mapM (fun link => (h link.2).bind fun _ => refl _) chain.rest).bind fun _ => refl _

theorem readTerm {readGroup readGroup' : Text → Text → Except Fault Tree}
    (h : ∀ term inner, CutShort limit (readGroup term inner) (readGroup' term inner))
    (term : Text) : CutShort limit (Tree.readTerm readGroup term) (Tree.readTerm readGroup' term) := by
  unfold Tree.readTerm
  split
  · exact h term _
  · exact refl _

/-- One level of reading is cut short only where a group in it is. -/
theorem readExpression {readGroup readGroup' : Text → Text → Except Fault Tree}
    (h : ∀ term inner, CutShort limit (readGroup term inner) (readGroup' term inner))
    (text : Text) : CutShort limit (Tree.readExpression spelling readGroup text)
      (Tree.readExpression spelling readGroup' text) :=
  (refl _).bind fun terms => (traverse (readTerm h) terms).bind fun _ => refl _

end CutShort

namespace Tree

/-- With a smaller allowance a group is read as with a larger one, or the reading is cut short. -/
theorem cutShort_readGroup (hle : allowance ≤ allowance') (term inner : Text) :
    CutShort limit (readGroup spelling limit allowance term inner)
      (readGroup spelling limit' allowance' term inner) := by
  induction allowance generalizing allowance' term inner with
  | zero => exact .inr rfl
  | succ allowance ih =>
    obtain ⟨allowance', rfl⟩ : ∃ less, allowance' = less + 1 := ⟨allowance' - 1, by omega⟩
    unfold readGroup
    split
    · exact .refl _
    · exact .readExpression (ih (Nat.le_of_succ_le_succ hle)) inner

/-! ## The depth of what is read -/

theorem depth_ofChain_le {trees : Chain Tree} {n : Nat} (h : ∀ tree ∈ trees.items, tree.depth ≤ n) :
    (ofChain trees).depth ≤ n + 1 := by
  by_cases hrest : trees.rest = []
  · rcases trees with ⟨first, rest⟩
    obtain rfl : rest = [] := hrest
    exact Nat.le_succ_of_le (h first List.mem_cons_self)
  · rw [ofChain_of_ne_nil hrest, depth, Nat.add_comm, Nat.add_le_add_iff_right, maxDepth_le_iff]
    exact (Chain.forall_members_iff none (p := fun tree : Tree => tree.depth ≤ n)).2 h

/-- The tree of an expression is at most one level deeper than the trees of its terms. -/
theorem depth_le_of_readExpression {readGroup : Text → Text → Except Fault Tree} {tree : Tree}
    {n : Nat} (h : readExpression spelling readGroup text = .ok tree)
    (hterm : ∀ term tree, readTerm readGroup term = .ok tree → tree.depth ≤ n) :
    tree.depth ≤ n + 1 := by
  unfold readExpression at h
  simp only [bind_eq_ok_iff, pure_eq_ok_iff] at h
  rcases h with ⟨terms, -, trees, htrees, rfl⟩
  apply depth_ofChain_le
  intro tree htree
  rcases exists_mem_of_forall₂ (Chain.traverse_eq_ok_iff.1 htrees).2.flip htree with
    ⟨term, -, hread⟩
  exact hterm term tree hread

/-- A tree that is read is at most one level deeper than the allowance: its outermost group needs no
parentheses. -/
theorem depth_le_of_readGroups {tree : Tree}
    (h : readExpression spelling (readGroup spelling limit allowance) text = .ok tree) :
    tree.depth ≤ allowance + 1 := by
  induction allowance generalizing text tree with
  | zero =>
    apply depth_le_of_readExpression h
    intro term tree hread
    unfold readTerm at hread
    split at hread
    · cases hread
    · rcases map_eq_ok_iff.1 hread with ⟨condition, -, rfl⟩
      exact Nat.le_refl _
  | succ allowance ih =>
    apply depth_le_of_readExpression h
    intro term tree hread
    unfold readTerm at hread
    split at hread
    · unfold readGroup at hread
      exact ih (ite_error_eq_ok_iff.1 hread).2
    · rcases map_eq_ok_iff.1 hread with ⟨condition, -, rfl⟩
      exact Nat.zero_le _

end Tree

/-! ## Where a reading is cut short -/

namespace Text

/-- Some start of the text leaves so many parentheses open. -/
def Opens (text : Text) (depth : Nat) : Prop :=
  ∃ start : Text, start <+: text ∧ start.count ')' + depth ≤ start.count '('

theorem opens_zero (text : Text) : text.Opens 0 :=
  ⟨[], List.nil_prefix, Nat.le_refl _⟩

theorem Opens.le_length {depth : Nat} (h : text.Opens depth) : depth ≤ text.length := by
  rcases h with ⟨start, hstart, hcount⟩
  have hle := hstart.length_le
  have hopen := start.count_le_length (a := '(')
  omega

/-- In a balanced text that a group stands in, one parenthesis more is open than in the group. -/
theorem Balanced.opens_of_group {inner : Text} {depth : Nat} (h : text.Balanced)
    (hgroup : '(' :: inner ++ [')'] <:+: text) (hinner : inner.Opens depth) :
    text.Opens (depth + 1) := by
  rcases hgroup with ⟨before, after, rfl⟩
  rcases hinner with ⟨start, ⟨tail, rfl⟩, hcount⟩
  have hbefore := h.count_le before ⟨_, (List.append_assoc ..).symm⟩
  refine ⟨before ++ '(' :: start, ⟨tail ++ [')'] ++ after, by simp⟩, ?_⟩
  simp only [List.count_append, count_open]
  omega

/-- White space at the ends does not matter to the parentheses that are open. -/
theorem Opens.of_trim {depth : Nat} (h : text.trim.Opens depth) : text.Opens depth := by
  rcases h with ⟨start, ⟨tail, htail⟩, hcount⟩
  rcases exists_append_trim_append text with ⟨before, after, hbefore, -, hjoin⟩
  refine ⟨before ++ start, ⟨tail ++ after, ?_⟩, ?_⟩
  · rw [← hjoin, ← htail]
    simp only [List.append_assoc]
  · have hblank := (balanced_of_isBlank hbefore).count_eq
    simp only [List.count_append]
    omega

end Text

namespace Tree

/-- Reading an expression fails where it is cut, in one of its conditions, or in a group that stands
in it. -/
theorem readExpression_eq_error {readGroup : Text → Text → Except Fault Tree} {fault : Fault}
    (h : readExpression spelling readGroup text = .error fault) :
    text.segments spelling = .error fault ∨ fault.OfCondition ∨
      text.Balanced ∧ ∃ inner : Text, inner.Balanced ∧ '(' :: inner ++ [')'] <:+: text ∧
        readGroup ('(' :: inner ++ [')']) inner = .error fault := by
  unfold readExpression at h
  simp only [bind_eq_error_iff, pure, Except.pure, reduceCtorEq, and_false, exists_false,
    or_false] at h
  rcases h with hsegments | ⟨terms, hterms, hread⟩
  · exact .inl hsegments
  · right
    rw [Text.segments_eq_ok_iff] at hterms
    rcases Chain.traverse_eq_error_iff.1 hread with ⟨before, term, after, hitems, -, hterm⟩
    have hmem : term ∈ terms.items := by
      rw [hitems]
      exact List.mem_append_right before List.mem_cons_self
    unfold readTerm at hterm
    split at hterm
    · rename_i inner henclosed
      rcases Text.enclosed?_eq_some_iff_balanced.1 henclosed with ⟨rfl, hinner⟩
      exact .inr ⟨hterms.balanced, inner, hinner, hterms.isInfix_of_mem hmem, hterm⟩
    · exact .inl (Condition.ofCondition_of_read (map_eq_error_iff.1 hterm))

/-- If an expression is nested too deep, so is a group that stands in it. -/
theorem exists_group_of_tooDeep {readGroup : Text → Text → Except Fault Tree} {excess : Nat}
    (h : readExpression spelling readGroup text = .error (.tooDeep excess)) :
    text.Balanced ∧ ∃ inner : Text, '(' :: inner ++ [')'] <:+: text ∧
      readGroup ('(' :: inner ++ [')']) inner = .error (.tooDeep excess) := by
  rcases readExpression_eq_error h with hsegments | hcondition | ⟨hbalanced, inner, -, hgroup⟩
  · rcases Text.segments_eq_error hsegments with hfault | hfault <;> cases hfault
  · exact hcondition.elim
  · exact ⟨hbalanced, inner, hgroup⟩

/-- Where the allowance is used up, more parentheses are open than it has units. -/
theorem opens_of_tooDeep {excess : Nat}
    (h : readExpression spelling (readGroup spelling limit allowance) text =
      .error (.tooDeep excess)) : excess = limit ∧ text.Opens (allowance + 1) := by
  induction allowance generalizing text with
  | zero =>
    rcases exists_group_of_tooDeep h with ⟨hbalanced, inner, hgroup, hread⟩
    cases hread
    exact ⟨rfl, hbalanced.opens_of_group hgroup inner.opens_zero⟩
  | succ allowance ih =>
    rcases exists_group_of_tooDeep h with ⟨hbalanced, inner, hgroup, hread⟩
    unfold readGroup at hread
    simp only [ite_error_eq_error_iff, reduceCtorEq, and_false, false_or] at hread
    rcases ih hread.2 with ⟨hexcess, hinner⟩
    exact ⟨hexcess, hbalanced.opens_of_group hgroup hinner⟩

/-- An allowance of as many units as the text has characters is never used up. -/
theorem readExpression_ne_tooDeep (hlength : text.length ≤ allowance) (excess : Nat) :
    readExpression spelling (readGroup spelling limit allowance) text ≠
      .error (.tooDeep excess) := by
  intro h
  have hopen := (opens_of_tooDeep h).2.le_length
  omega

/-- A reading with any allowance goes as one whose allowance is never used up, or is cut short. -/
theorem cutShort_readExpression (limit allowance : Nat) (hlength : text.length ≤ allowance') :
    CutShort limit (readExpression spelling (readGroup spelling limit allowance) text)
      (readExpression spelling (readGroup spelling limit' allowance') text) := by
  rcases Nat.le_total allowance allowance' with hle | hle
  · exact .readExpression (cutShort_readGroup hle) text
  · -- the other way round, the reading cannot be cut short
    have hother : CutShort limit' (readExpression spelling (readGroup spelling limit' allowance') text)
        (readExpression spelling (readGroup spelling limit allowance) text) :=
      .readExpression (cutShort_readGroup hle) text
    rcases hother with hsame | hdeep
    · exact .inl hsame.symm
    · exact absurd hdeep (readExpression_ne_tooDeep hlength limit')

/-- Two allowances that are never used up give the same outcome. -/
theorem readExpression_eq_of_length_le (h : text.length ≤ allowance)
    (h' : text.length ≤ allowance') :
    readExpression spelling (readGroup spelling limit allowance) text =
      readExpression spelling (readGroup spelling limit' allowance') text := by
  rcases cutShort_readExpression limit allowance h' with hsame | hdeep
  · exact hsame
  · exact absurd hdeep (readExpression_ne_tooDeep h limit)

end Tree

/-! ## Filters -/

namespace Settings

/-- Limits on the nesting and the length of a filter, with the given spelling of connectives. -/
def limited (spelling : Spelling) (depth length : Nat) : Settings :=
  ⟨spelling, some depth, some length⟩

variable {depth length : Nat}

theorem parse_of_length_lt (h : length < text.utf8Size) :
    (limited spelling depth length).parse text = .error (.tooLong text.utf8Size length) := by
  simp [parse, refusal?, limited, h]

/-- Within the limit on length only that on nesting counts. -/
theorem parse_of_le_length (h : text.utf8Size ≤ length) :
    (limited spelling depth length).parse text =
      if text.isBlank then .error .empty
      else Tree.readExpression spelling (Tree.readGroup spelling depth depth) text.trim := by
  by_cases hblank : text.isBlank
  · simp [parse, refusal?, limited, Nat.not_lt.2 h, hblank]
  · simp [parse, refusal?, limited, allowance, Nat.not_lt.2 h, hblank]

/-- Within the limit on length, a filter is read as without limits, or the reading is cut short. -/
theorem cutShort_parse (spelling : Spelling) (depth : Nat) (h : text.utf8Size ≤ length) :
    CutShort depth ((limited spelling depth length).parse text)
      ((unlimited spelling).parse text) := by
  rw [parse_of_le_length h, parse_unlimited]
  split
  · exact .refl _
  · exact Tree.cutShort_readExpression depth depth (Nat.le_refl _)

/-- Within wider limits, a filter is read in the same way, or the reading is cut short. -/
theorem cutShort_parse_of_le (spelling : Spelling) {depth' length' : Nat}
    (h : text.utf8Size ≤ length) (hdepth : depth ≤ depth') (hlength : length ≤ length') :
    CutShort depth ((limited spelling depth length).parse text)
      ((limited spelling depth' length').parse text) := by
  rw [parse_of_le_length h, parse_of_le_length (Nat.le_trans h hlength)]
  split
  · exact .refl _
  · exact .readExpression (Tree.cutShort_readGroup hdepth) text.trim

theorem depth_le_of_parse {tree : Tree} (h : text.utf8Size ≤ length)
    (hread : (limited spelling depth length).parse text = .ok tree) : tree.depth ≤ depth + 1 := by
  rw [parse_of_le_length h] at hread
  exact Tree.depth_le_of_readGroups (ite_error_eq_ok_iff.1 hread).2

theorem opens_of_parse_tooDeep {excess : Nat} (h : text.utf8Size ≤ length)
    (hread : (limited spelling depth length).parse text = .error (.tooDeep excess)) :
    excess = depth ∧ text.Opens (depth + 1) := by
  rw [parse_of_le_length h, ite_error_eq_error_iff] at hread
  rcases hread with ⟨-, hempty⟩ | ⟨-, hdeep⟩
  · cases hempty
  · exact (Tree.opens_of_tooDeep hdeep).imp_right .of_trim

/-- Limits only refuse filters. A filter that is longer than the limit on length is refused for its
length. Of any other, reading within limits gives the tree or the fault that reading without limits
gives, unless it is refused as nested too deep; and that happens only if some start of it leaves more
parentheses open than the limit allows. What is read is at most one level deeper than the limit on
nesting, and it is read within all wider limits. -/
theorem parse_limited (spelling : Spelling) (depth length : Nat) (text : Text) :
    (length < text.utf8Size → (limited spelling depth length).parse text =
      .error (.tooLong text.utf8Size length)) ∧
    (text.utf8Size ≤ length →
      (∀ tree, (limited spelling depth length).parse text = .ok tree →
        (unlimited spelling).parse text = .ok tree ∧ tree.depth ≤ depth + 1) ∧
      (∀ fault, (limited spelling depth length).parse text = .error fault →
        (∀ limit, fault ≠ .tooDeep limit) → (unlimited spelling).parse text = .error fault) ∧
      (∀ tree, (unlimited spelling).parse text = .ok tree →
        (∀ tree', (limited spelling depth length).parse text ≠ .ok tree') →
        (limited spelling depth length).parse text = .error (.tooDeep depth)) ∧
      (∀ limit, (limited spelling depth length).parse text = .error (.tooDeep limit) →
        limit = depth ∧ ∃ start : Text, start <+: text ∧
          start.count ')' + (depth + 1) ≤ start.count '(') ∧
      (∀ tree, (limited spelling depth length).parse text = .ok tree →
        ∀ depth' length', depth ≤ depth' → length ≤ length' →
          (limited spelling depth' length').parse text = .ok tree)) := by
  refine ⟨parse_of_length_lt, ?_⟩
  intro hsize
  have hcut := cutShort_parse spelling depth hsize
  refine ⟨?_, ?_, ?_, ?_, ?_⟩
  · intro tree hread
    refine ⟨?_, depth_le_of_parse hsize hread⟩
    rcases hcut with hsame | hdeep
    · rw [← hsame, hread]
    · rw [hread] at hdeep
      cases hdeep
  · intro fault hread hother
    rcases hcut with hsame | hdeep
    · rw [← hsame, hread]
    · rw [hread] at hdeep
      cases hdeep
      exact absurd rfl (hother depth)
  · intro tree hread hnone
    rcases hcut with hsame | hdeep
    · exact absurd (hsame.trans hread) (hnone tree)
    · exact hdeep
  · intro limit hread
    exact opens_of_parse_tooDeep hsize hread
  · intro tree hread depth' length' hdepth hlength
    rcases cutShort_parse_of_le spelling hsize hdepth hlength with hsame | hdeep
    · rw [← hsame, hread]
    · rw [hread] at hdeep
      cases hdeep

/-- A group in another is read with one level of nesting and refused with none. Without its
operator, a condition is at fault in either way. -/
theorem parse_limited_nestedTitles :
    let text := "title = a OR (title = b AND title = c)".toList
    (limited .anyCase 1 20).parse text = .error (.tooLong 38 20) ∧
    ((unlimited .anyCase).parse text = .ok Tree.nestedTitles ∧ Tree.nestedTitles.depth ≤ 2) ∧
    (unlimited .anyCase).parse "title".toList = .error (.noOperator "title".toList) ∧
    (limited .anyCase 0 40).parse text = .error (.tooDeep 0) ∧
    (∃ start, start <+: text ∧ start.count ')' + 1 ≤ start.count '(') ∧
    (limited .anyCase 3 60).parse text = .ok Tree.nestedTitles := by
  intro text
  have hread : (limited .anyCase 1 40).parse text = .ok Tree.nestedTitles := by decide +kernel
  have hfault : (limited .anyCase 0 40).parse "title".toList =
      .error (.noOperator "title".toList) := by
    decide +kernel
  have hdeep : (limited .anyCase 0 40).parse text = .error (.tooDeep 0) := by decide +kernel
  rcases (parse_limited .anyCase 1 40 text).2 (by decide) with ⟨hwhole, -, -, -, hwider⟩
  rcases (parse_limited .anyCase 0 40 text).2 (by decide) with ⟨-, -, hrefused, hopens, -⟩
  refine ⟨(parse_limited .anyCase 1 20 text).1 (by decide), hwhole _ hread, ?_, ?_, ?_, ?_⟩
  · exact ((parse_limited .anyCase 0 40 "title".toList).2 (by decide)).2.1 _ hfault (by simp)
  · exact hrefused _ (hwhole _ hread).1 (by simp [hdeep])
  · exact (hopens 0 hdeep).2
  · exact hwider _ hread 3 60 (by decide) (by decide)

end Settings

end ListingFilter
