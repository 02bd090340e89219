import ListingFilter.Proofs.Conditions
import ListingFilter.Proofs.Shape

/-!
# Rendering — the written form of a tree is read as that tree

A condition is safe when its written form, alone, is no group and is read as the condition. A tree
that is joined as in a filter and has safe conditions is written as a text that is cut exactly at
the connectives written between its members, so each member is read again on its own.

The main statement, `parse_written`, adds how the limit on nesting counts: the outermost group
needs no parentheses, and every other level of groups uses one.
-/

namespace ListingFilter

/-- The written form of the condition is no group and is read, without limits, as the condition. -/
structure Condition.Safe (spelling : Spelling) (condition : Condition) : Prop where
  not_group : condition.written.enclosed? = none
  parse : (Settings.unlimited spelling).parse condition.written = .ok (.leaf condition)

/-! ## Safe conditions -/

/-- A group has a connective between its members, so a single condition is derived from one term. -/
theorem Grammar.eq_singleton_of_treeOf {members : List Member} {condition : Condition}
    (h : treeOf members = .leaf condition) : ∃ joint, members = [(joint, .leaf condition)] := by
  rcases members with _ | ⟨⟨joint, tree⟩, _ | ⟨second, rest⟩⟩
  · cases h
  · obtain rfl : tree = .leaf condition := h
    exact ⟨joint, rfl⟩
  · cases h

/-- A condition that is derived from a text without white space at its ends is derived from the
whole of it as a term. -/
theorem Grammar.Derives.term {spelling : Spelling} {text : Text} {condition : Condition}
    (h : Derives spelling text (.leaf condition)) (htight : text.Tight) :
    Term spelling text (.leaf condition) := by
  rcases h with ⟨members, hterms, htree⟩
  rcases eq_singleton_of_treeOf htree with ⟨joint, rfl⟩
  cases hterms with
  | @last _ before term after _ hbefore hterm hafter =>
    have htrim := hterm.isSegment.tight.trim_pad hbefore hafter
    rw [htight.trim_eq] at htrim
    rwa [htrim]
  | more _ _ _ _ _ _ hrest => cases hrest

/-- The written form of a safe condition is an atom, and it is read as the condition. -/
theorem Condition.Safe.atom {spelling : Spelling} {condition : Condition}
    (h : condition.Safe spelling) :
    condition.written.IsAtom spelling ∧ Condition.read condition.written = .ok condition := by
  have hderives := Settings.parse_unlimited_eq_ok_iff.1 h.parse
  have hread : ∃ text, Condition.read text = .ok condition := by
    cases hderives.shaped with
    | leaf hatomic =>
      rcases hatomic with ⟨text, -, hread⟩
      exact ⟨text, hread⟩
  rcases hread with ⟨text, hread⟩
  have hterm := hderives.term (Condition.tight_written hread).2
  have hnotGroup := Text.enclosed?_eq_none_iff.1 h.not_group
  generalize condition.written = written at hterm hnotGroup
  generalize htree : Tree.leaf condition = tree at hterm
  cases hterm with
  | atom hatom hread' =>
    cases htree
    exact ⟨hatom, hread'⟩
  | group hterms' =>
    have hinner : Grammar.Expression spelling (Grammar.Term spelling) _ _ := ⟨_, hterms', rfl⟩
    exact absurd rfl (hnotGroup _ (hinner.balanced fun _ _ => Grammar.Term.isSegment).1)

/-! ## The segments of the written form -/

theorem Spelling.accepts_self (spelling : Spelling) (keyword : Text) :
    spelling.accepts keyword keyword := by
  cases spelling <;> simp [accepts]

/-- Members that can stand between connectives are written so that only the connectives written
between them sever the text. -/
theorem Chain.segmented_written {spelling : Spelling} {trees : Chain Tree}
    (h : ∀ tree ∈ trees.items, (tree.parenthesized tree.written).IsSegment spelling) :
    Text.Segmented spelling (Tree.writtenMembers (trees.members none))
      (trees.map fun tree => tree.parenthesized tree.written) := by
  rcases trees with ⟨first, rest⟩
  induction rest generalizing first with
  | nil =>
    change Text.Segmented spelling _ ⟨first.parenthesized first.written, []⟩
    simpa [members, Tree.writtenMembers, Tree.joint] using (h first List.mem_cons_self).segmented
  | cons link rest ih =>
    rcases link with ⟨connective, second⟩
    have hrest := ih second fun tree htree => h tree (List.mem_cons_of_mem _ htree)
    have hmore := Text.Segmented.more Text.isBlank_nil (h first List.mem_cons_self)
      Text.isBlank_blank (Text.endsApart_append_blank _) (spelling.accepts_self connective.keyword)
      (Text.beginsApart_blank_append _) (hrest.append_left Text.isBlank_blank)
    change Text.Segmented spelling _ (link (first.parenthesized first.written) connective
      (map (fun tree => tree.parenthesized tree.written) ⟨second, rest⟩))
    simpa [members, Tree.writtenMembers, Tree.joint] using hmore

namespace Tree

theorem maxDepth_le_iff {members : List Member} {n : Nat} :
    maxDepth members ≤ n ↔ ∀ member ∈ members, member.2.depth ≤ n := by
  induction members with
  | nil => simp [maxDepth]
  | cons member members ih =>
    rcases member with ⟨joint, tree⟩
    rw [maxDepth, Nat.max_le, ih, List.forall_mem_cons]

/-- The written form of a tree is made up of segments, and a member is one. -/
theorem Shaped.segmented {spelling : Spelling} {tree : Tree}
    (h : tree.Shaped (Condition.Safe spelling)) :
    (∃ chain, Text.Segmented spelling tree.written chain) ∧
      (tree.parenthesized tree.written).IsSegment spelling := by
  induction h with
  | leaf hsafe =>
    have hsegment := hsafe.atom.1.toIsSegment
    exact ⟨⟨_, hsegment.segmented⟩, hsegment⟩
  | group hjoined hmembers ih =>
    rcases hjoined.exists_chain with ⟨trees, -, rfl⟩
    have hsegments : ∀ tree ∈ trees.items, (tree.parenthesized tree.written).IsSegment spelling := by
      refine (Chain.forall_members_iff none).1 ?_
      intro member hmember
      exact (ih member hmember).2
    have hsegmented := Chain.segmented_written hsegments
    exact ⟨⟨_, hsegmented⟩, hsegmented.balanced.isSegment_group spelling⟩

end Tree

/-! ## Reading the written form -/

namespace Tree

theorem readExpression_of_segmented {spelling : Spelling}
    {readGroup : Text → Text → Except Fault Tree} {text : Text} {chain : Chain Text}
    (h : Text.Segmented spelling text chain) :
    readExpression spelling readGroup text = ofChain <$> chain.traverse (readTerm readGroup) := by
  rw [readExpression, Text.segments_eq_ok_iff.2 h]
  rfl

theorem ofChain_of_ne_nil {trees : Chain Tree} (h : trees.rest ≠ []) :
    ofChain trees = .group (trees.members none) := by
  rcases trees with ⟨first, rest⟩
  cases rest with
  | nil => exact absurd rfl h
  | cons link rest => rfl

/-- A member is read as its tree if the groups in it, its own parentheses included, are within the
allowance, provided that the text in these parentheses is read in this way. -/
theorem Shaped.readTerm_parenthesized {spelling : Spelling} {tree : Tree}
    (h : tree.Shaped (Condition.Safe spelling)) {limit : Nat}
    (hinner : ∀ allowance, readExpression spelling (readGroup spelling limit allowance) tree.written =
      if tree.depth ≤ allowance + 1 then .ok tree else .error (.tooDeep limit)) (allowance : Nat) :
    readTerm (readGroup spelling limit allowance) (tree.parenthesized tree.written) =
      if tree.depth ≤ allowance then .ok tree else .error (.tooDeep limit) := by
  rcases h.segmented.1 with ⟨chain, hchain⟩
  cases h with
  | leaf hsafe =>
    rw [parenthesized, written, Grammar.readTerm_of_not_group hsafe.not_group, hsafe.atom.2, depth,
      if_pos (Nat.zero_le _)]
    rfl
  | group hjoined hmembers =>
    rw [parenthesized, Grammar.readTerm_group hchain.balanced]
    cases allowance with
    | zero =>
      rw [if_neg (by simp [depth])]
      rfl
    | succ allowance => rw [Grammar.readGroup_of_not_blank hchain.not_isBlank, hinner]

/-- The written form of a tree is read as the tree if the levels of groups below the outermost are
within the allowance, and refused as too deep otherwise. -/
theorem Shaped.readExpression_written {spelling : Spelling} {tree : Tree}
    (h : tree.Shaped (Condition.Safe spelling)) (limit allowance : Nat) :
    readExpression spelling (readGroup spelling limit allowance) tree.written =
      if tree.depth ≤ allowance + 1 then .ok tree else .error (.tooDeep limit) := by
  induction h generalizing allowance with
  | @leaf condition hsafe =>
    rcases hsafe.atom with ⟨hatom, hread⟩
    have hterm : readTerm (readGroup spelling limit allowance) condition.written =
        .ok (.leaf condition) := by
      rw [Grammar.readTerm_of_not_group hsafe.not_group, hread]
      rfl
    rw [written, readExpression_of_segmented hatom.toIsSegment.segmented, Chain.traverse, hterm,
      depth, if_pos (Nat.zero_le _)]
    rfl
  | @group members hjoined hmembers ih =>
    rcases hjoined.exists_chain with ⟨trees, hmany, rfl⟩
    have hsegments : ∀ tree ∈ trees.items, (tree.parenthesized tree.written).IsSegment spelling := by
      refine (Chain.forall_members_iff none).1 ?_
      intro member hmember
      exact (hmembers member hmember).segmented.2
    have hitems : ∀ tree ∈ trees.items,
        readTerm (readGroup spelling limit allowance) (tree.parenthesized tree.written) =
          if tree.depth ≤ allowance then .ok (id tree) else .error (.tooDeep limit) := by
      refine (Chain.forall_members_iff none).1 ?_
      intro member hmember
      exact (hmembers member hmember).readTerm_parenthesized (ih member hmember) allowance
    -- the group is one level deeper than the deepest of its members
    have hdepth : (Tree.group (trees.members none)).depth ≤ allowance + 1 ↔
        ∀ tree ∈ trees.items, tree.depth ≤ allowance := by
      rw [depth, Nat.add_comm, Nat.add_le_add_iff_right, maxDepth_le_iff]
      exact Chain.forall_members_iff none (p := fun tree : Tree => tree.depth ≤ allowance)
    rw [written, readExpression_of_segmented (Chain.segmented_written hsegments),
      Chain.traverse_map, Chain.traverse_eq_ite hitems, Chain.map_id]
    by_cases hall : ∀ tree ∈ trees.items, tree.depth ≤ allowance
    · rw [if_pos hall, if_pos (hdepth.2 hall), ← ofChain_of_ne_nil hmany]
      rfl
    · rw [if_neg hall, if_neg fun hle => hall (hdepth.1 hle)]
      rfl

end Tree

namespace Settings

/-- Reading the written form of a tree within a limit gives the tree back if its groups are nested
within the limit, the outermost one apart. -/
theorem parse_written_limited {spelling : Spelling} {tree : Tree}
    (h : tree.Shaped (Condition.Safe spelling)) (limit : Nat) :
    (Settings.mk spelling (some limit) none).parse tree.written =
      if tree.depth ≤ limit + 1 then .ok tree else .error (.tooDeep limit) := by
  rcases h.segmented.1 with ⟨chain, hchain⟩
  have hrefusal : (Settings.mk spelling (some limit) none).refusal? tree.written = none := by
    simp [refusal?, hchain.not_isBlank]
  rw [parse_of_refusal?_eq_none hrefusal]
  change Tree.readExpression spelling (Tree.readGroup spelling limit limit) tree.written.trim = _
  -- white space at the ends does not matter
  rw [Tree.readExpression_of_segmented (Text.segmented_trim_iff.2 hchain),
    ← Tree.readExpression_of_segmented hchain, h.readExpression_written]

/-- Reading the written form of a tree without limits gives the tree back. -/
theorem parse_written_unlimited {spelling : Spelling} {tree : Tree}
    (h : tree.Shaped (Condition.Safe spelling)) :
    (unlimited spelling).parse tree.written = .ok tree := by
  -- with as large a limit as the tree needs
  have hdeep := parse_written_limited h tree.depth
  rw [if_pos (Nat.le_succ _)] at hdeep
  exact parse_of_derives (derives_of_parse hdeep)

/-- Reading the written form of a tree gives the tree back exactly if its groups are nested within
the limit, the outermost one apart, and the fault of too deep a nesting otherwise. -/
theorem parse_written (spelling : Spelling) (tree : Tree)
    (h : tree.Shaped (Condition.Safe spelling)) :
    (∀ limit : Nat, (Settings.mk spelling (some limit) none).parse tree.written =
      if tree.depth ≤ limit + 1 then .ok tree else .error (.tooDeep limit)) ∧
      (Settings.mk spelling none none).parse tree.written = .ok tree := by
  constructor
  · intro limit
    exact parse_written_limited h limit
  · exact parse_written_unlimited h

end Settings

/-- The tree of `title = a OR (title = b AND title = c)`. -/
def Tree.nestedTitles : Tree :=
  let title (content : Text) : Tree :=
    .leaf ⟨.standard "title".toList, .equal, .single (.text content), none⟩
  .group [(none, title "a".toList),
    (some .or, .group [(none, title "b".toList), (some .and, title "c".toList)])]

/-- Two groups in each other need the parentheses of one. -/
theorem Settings.parse_written_nestedTitles :
    (Settings.mk .anyCase (some 1) none).parse Tree.nestedTitles.written = .ok Tree.nestedTitles ∧
      (Settings.mk .anyCase (some 0) none).parse Tree.nestedTitles.written =
        .error (.tooDeep 0) ∧
      (Settings.mk .anyCase none none).parse Tree.nestedTitles.written =
        .ok Tree.nestedTitles := by
  have hshaped : Tree.nestedTitles.Shaped (Condition.Safe .anyCase) := by
    refine .group ⟨by decide, by decide, by decide⟩ ?_
    rw [List.forall_mem_cons, List.forall_mem_singleton]
    refine ⟨.leaf ⟨by decide, by decide⟩, .group ⟨by decide, by decide, by decide⟩ ?_⟩
    rw [List.forall_mem_cons, List.forall_mem_singleton]
    exact ⟨.leaf ⟨by decide, by decide⟩, .leaf ⟨by decide, by decide⟩⟩
  rcases parse_written .anyCase Tree.nestedTitles hshaped with ⟨hlimited, hunlimited⟩
  exact ⟨hlimited 1, hlimited 0, hunlimited⟩

end ListingFilter
