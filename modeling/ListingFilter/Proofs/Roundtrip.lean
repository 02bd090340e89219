import ListingFilter.Proofs.Joining
import ListingFilter.Proofs.Rereading

/-!
# Roundtrip — when the written form of a filter is read as the same tree

Reading a filter, writing the tree and reading it again gives the same tree exactly if every
condition of the tree may be written (`Settings.parse_written_same_iff`). A condition may not be
written in these cases, and only in these:

* the spaces around its operator make a connective stand apart;
* its written form is one group in parentheses;
* its value has parentheses of its own that are taken for those around a value, or it is a list whose
  parentheses have other partners than each other;
* one of its instants lies in a year that is not written in four digits.
-/

namespace ListingFilter

/-- The written form of the condition is read as the condition wherever it stands in a filter. -/
structure Condition.Rereads (spelling : Spelling) (condition : Condition) : Prop where
  /-- No connective severs the written form. -/
  whole : condition.written.Whole spelling
  /-- The written form is not one group in parentheses. -/
  not_group : condition.written.enclosed? = none
  /-- The written value is one group in parentheses exactly for a list. -/
  enclosed : condition.value.Enclosed
  /-- Instants are in years of four digits. -/
  years : ∀ scalar ∈ condition.value.scalars, scalar.YearFits

/-! ## Conditions -/

/-- A condition that may be written, and was read, is safe. -/
theorem Condition.Rereads.safe {spelling : Spelling} {condition : Condition} {text : Text}
    (h : condition.Rereads spelling) (hread : Condition.read text = .ok condition) :
    condition.Safe spelling := by
  rcases Condition.tight_written hread with ⟨hne, htight⟩
  have hatom : condition.written.IsAtom spelling :=
    ⟨⟨hne, htight, h.whole⟩, Text.enclosed?_eq_none_iff.1 h.not_group⟩
  have hterm := Grammar.Term.atom hatom (Condition.read_written hread h.enclosed h.years)
  have hterms : Grammar.Terms spelling (Grammar.Term spelling) none ([] ++ condition.written ++ [])
      [(none, .leaf condition)] := .last Text.isBlank_nil hterm Text.isBlank_nil
  refine ⟨h.not_group, Settings.parse_of_derives ⟨[(none, .leaf condition)], ?_, rfl⟩⟩
  simpa using hterms

namespace Grammar

/-- The condition is read from a text with gaps around it in the term; if no parenthesis opens before
that text, the term is an atom from which the condition is read. -/
def ReadsWithin (spelling : Spelling) (term : Text) (condition : Condition) : Prop :=
  ∃ first text last : Text, term = first ++ (text ++ last) ∧ Condition.read text = .ok condition ∧
    (∀ c ∈ first, Operator.Gap c) ∧ (∀ c ∈ last, Operator.Gap c) ∧
    (first.count '(' = 0 → term.IsAtom spelling ∧ Condition.read term = .ok condition)

theorem gap_of_mem_blank {pad : Text} (h : pad.isBlank) : ∀ c ∈ pad, Operator.Gap c :=
  fun c hc => Operator.gap_of_isSpace (List.all_eq_true.1 h c hc)

theorem Term.readsWithin {spelling : Spelling} {term : Text} {tree : Tree}
    (h : Term spelling term tree) :
    ∀ condition, tree = .leaf condition → ReadsWithin spelling term condition := by
  refine Term.induction (P := fun term tree => ∀ condition, tree = .leaf condition →
    ReadsWithin spelling term condition) ?_ ?_ h
  · intro text found hatom hread condition hsame
    cases hsame
    exact ⟨[], text, [], by simp, hread, by simp, by simp, fun _ => ⟨hatom, hread⟩⟩
  · intro inner members hterms condition hsame
    rcases eq_singleton_of_treeOf hsame with ⟨joint, rfl⟩
    cases hterms with
    | more _ _ _ _ _ _ hrest => cases hrest
    | @last _ before term after _ hbefore hterm hafter =>
      rcases hterm.2 condition rfl with ⟨first, text, last, rfl, hread, hfirst, hlast, -⟩
      -- white space and one more pair of parentheses
      refine ⟨['('] ++ before ++ first, text, last ++ after ++ [')'], by simp, hread, ?_, ?_, ?_⟩
      · simp only [List.forall_mem_append, List.forall_mem_singleton]
        exact ⟨⟨Operator.gap_open, gap_of_mem_blank hbefore⟩, hfirst⟩
      · simp only [List.forall_mem_append, List.forall_mem_singleton]
        exact ⟨⟨hlast, gap_of_mem_blank hafter⟩, Operator.gap_close⟩
      · intro hcount
        simp at hcount

/-- A term that is the written form of a condition, and from which a condition with the same field and
operator is derived, is an atom: the field has no parentheses to spare. -/
theorem Term.atom_of_written {spelling : Spelling} {text : Text} {condition read : Condition}
    (hcondition : Condition.read text = .ok condition)
    (h : Term spelling condition.written (.leaf read)) (hfield : read.field = condition.field)
    (hoperator : read.operator = condition.operator) :
    condition.written.IsAtom spelling ∧ Condition.read condition.written = .ok read := by
  rcases h.readsWithin read rfl with ⟨first, core, last, hwritten, hread, hfirst, hlast, hatom⟩
  apply hatom
  rcases Condition.exists_of_read hread with ⟨before, after, -, hcut, -, htoken, -, -⟩
  -- both cuts are at the first place of the operator
  have hcutWritten := Condition.cut?_written hcondition
  rw [hwritten, ← hoperator, Operator.cut?_gaps (fun c hc => (hfirst c hc).ignores _)
    (fun c hc => (hlast c hc).ignores _) hcut, Option.some.injEq,
    Prod.mk.injEq] at hcutWritten
  have hcount := congrArg (List.count '(') hcutWritten.1
  have htrim := Text.count_eq_of_parentheses_eq (Text.parentheses_trim before)
  rw [← htoken, hfield] at htrim
  simp only [List.count_append] at hcount
  have hspace : List.count '(' [' '] = 0 := rfl
  omega

end Grammar

/-! ## Trees -/

namespace Tree

theorem sameMembers_iff {as bs : List Member} :
    sameMembers as bs ↔ List.Forall₂ (Paired fun a b => a.same b) as bs := by
  induction as generalizing bs with
  | nil => cases bs <;> simp [sameMembers]
  | cons a as ih =>
    cases bs with
    | nil => simp [sameMembers]
    | cons b bs =>
      rcases a with ⟨k, a⟩
      rcases b with ⟨l, b⟩
      simp [sameMembers, Paired, ih]

/-- A tree equals itself if its conditions do. -/
theorem same_self (tree : Tree) (h : ∀ condition ∈ tree.conditions, condition.same condition) :
    tree.same tree := by
  induction tree using Tree.induction with
  | leaf condition => exact h condition (by simp [conditions])
  | group members ih =>
    rw [same, sameMembers_iff, List.forall₂_same]
    intro member hmember
    refine ⟨rfl, ih member hmember fun condition hcondition => h condition ?_⟩
    exact mem_allConditions.2 ⟨member, hmember, hcondition⟩

/-- The written form of a tree that was read is balanced, also where it stands in a group. -/
theorem Shaped.balanced_written {spelling : Spelling} {tree : Tree}
    (h : tree.Shaped (Grammar.Atomic spelling)) :
    tree.written.Balanced ∧ (tree.parenthesized tree.written).Balanced := by
  induction h with
  | leaf hatomic =>
    rcases hatomic with ⟨text, hatom, hread⟩
    have hbalanced := Condition.balanced_written hread hatom.whole.balanced
    exact ⟨hbalanced, hbalanced⟩
  | group hjoined _ ih =>
    rcases hjoined.exists_chain with ⟨trees, -, rfl⟩
    have hitems : ∀ tree ∈ trees.items, (tree.parenthesized tree.written).Balanced := by
      refine (Chain.forall_members_iff none).1 ?_
      intro member hmember
      exact (ih member hmember).2
    have hsplits : ∃ raw, Text.Splits spelling (Tree.writtenMembers (trees.members none)) raw ∧ _ :=
      Chain.splits_written hitems
    rcases hsplits with ⟨raw, hraw, -⟩
    exact ⟨hraw.balanced, hraw.balanced.group⟩

/-- A member that is whole is a segment. -/
theorem Shaped.isSegment {spelling : Spelling} {tree : Tree}
    (h : tree.Shaped (Grammar.Atomic spelling))
    (hwhole : (tree.parenthesized tree.written).Whole spelling) :
    (tree.parenthesized tree.written).IsSegment spelling := by
  cases h with
  | leaf hatomic =>
    rcases hatomic with ⟨text, -, hread⟩
    rcases Condition.tight_written hread with ⟨hne, htight⟩
    exact ⟨hne, htight, hwhole⟩
  | group => exact ⟨by simp [parenthesized], Text.tight_group _, hwhole⟩

/-- Of the written form of a group that is read as the same group, each member is read as the same
member. -/
theorem terms_of_derives {spelling : Spelling} {members : List Member} {read : Tree}
    (hjoined : Joined members)
    (hmembers : ∀ member ∈ members, member.2.Shaped (Grammar.Atomic spelling))
    (h : Grammar.Derives spelling (Tree.group members).written read)
    (hsame : read.same (.group members)) :
    ∀ member ∈ members, ∃ found : Tree, found.same member.2 ∧
      Grammar.Term spelling (member.2.parenthesized member.2.written) found := by
  rcases hjoined.exists_chain with ⟨trees, hmany, rfl⟩
  have hshaped : ∀ tree ∈ trees.items, tree.Shaped (Grammar.Atomic spelling) :=
    (Chain.forall_members_iff none).1 hmembers
  have hbalanced : ∀ tree ∈ trees.items, (tree.parenthesized tree.written).Balanced := by
    intro tree htree
    exact (hshaped tree htree).balanced_written.2
  rcases h with ⟨found, hterms, rfl⟩
  rcases (Grammar.terms_iff fun _ _ => Grammar.Term.isSegment).1 hterms with ⟨chain, hchain, hpaired⟩
  rcases Chain.whole_of_segmented_written hbalanced hchain with ⟨hle, hwhole⟩
  -- what is read is a group of as many members as the written form has segments
  have hfound : found.length = chain.rest.length + 1 := by
    rw [← hpaired.length_eq, Chain.length_members]
  have hgroup : Grammar.treeOf found = .group found := by
    have hmanyPos := List.length_pos_iff.2 hmany
    exact Grammar.treeOf_eq_group (by omega)
  rw [hgroup, Tree.same, sameMembers_iff] at hsame
  -- and of as many as were written, so each of these is a segment and is read on its own
  have hcount : found.length = trees.rest.length + 1 := by
    rw [hsame.length_eq, Chain.length_members]
  have hsegments : ∀ tree ∈ trees.items, (tree.parenthesized tree.written).IsSegment spelling := by
    intro tree htree
    exact (hshaped tree htree).isSegment (hwhole (by omega) tree htree)
  obtain rfl : chain = trees.map fun tree => tree.parenthesized tree.written :=
    hchain.unique (Chain.segmented_written hsegments)
  rw [Chain.members_map, List.forall₂_map_left_iff] at hpaired
  intro member hmember
  have hboth := hpaired.mp (fun a b hsame hterm => And.intro hsame.2 hterm.2) hsame.flip
  rcases exists_mem_of_forall₂ hboth hmember with ⟨⟨joint, tree⟩, -, hterm, htreeSame⟩
  exact ⟨tree, htreeSame, hterm⟩

/-- A group in parentheses is a term only if what stands between them is derived. -/
theorem derives_of_term_group {spelling : Spelling} {inner : Text} {tree : Tree}
    (hinner : inner.Balanced) (h : Grammar.Term spelling ('(' :: inner ++ [')']) tree) :
    Grammar.Derives spelling inner tree := by
  generalize hterm : '(' :: inner ++ [')'] = term at h
  cases h with
  | atom hatom _ => exact absurd hterm.symm (hatom.not_group inner hinner)
  | @group inner' members hterms =>
    obtain rfl : inner = inner' := by simpa using hterm
    exact ⟨members, hterms, rfl⟩

theorem rereads_of_term {spelling : Spelling} {text : Text} {condition : Condition} {found : Tree}
    (hread : Condition.read text = .ok condition)
    (hterm : Grammar.Term spelling condition.written found)
    (hsame : found.same (.leaf condition)) : condition.Rereads spelling := by
  cases found with
  | group members => cases hsame
  | leaf again =>
    have hfields : again.field = condition.field ∧ again.operator = condition.operator := by
      rw [same, Condition.same] at hsame
      simp only [Bool.and_eq_true, beq_iff_eq] at hsame
      exact hsame.1.1
    rcases Grammar.Term.atom_of_written hread hterm hfields.1 hfields.2 with ⟨hatom, hagain⟩
    rcases Condition.enclosed_and_yearFits_of_read_written hread hagain hsame with
      ⟨henclosed, hyears⟩
    exact ⟨hatom.whole, Text.enclosed?_eq_none_iff.2 hatom.not_group, henclosed, hyears⟩

/-- If the written form is read as the same tree, every condition may be written. -/
theorem Shaped.rereads {spelling : Spelling} {tree : Tree}
    (h : tree.Shaped (Grammar.Atomic spelling)) {read : Tree}
    (hread : Grammar.Derives spelling tree.written read) (hsame : read.same tree) :
    ∀ condition ∈ tree.conditions, condition.Rereads spelling := by
  induction h generalizing read with
  | @leaf condition hatomic =>
    rcases hatomic with ⟨text, -, htext⟩
    intro condition' hmem
    rw [List.mem_singleton.1 hmem]
    cases read with
    | group members => cases hsame
    | leaf again =>
      exact rereads_of_term htext (hread.term (Condition.tight_written htext).2) hsame
  | @group members hjoined hmembers ih =>
    intro condition hmem
    rcases mem_allConditions.1 hmem with ⟨⟨joint, tree⟩, hmember, hcondition⟩
    rcases terms_of_derives hjoined hmembers hread hsame _ hmember with ⟨found, hfound, hterm⟩
    cases tree with
    | leaf inner =>
      cases hmembers _ hmember with
      | leaf hatomic =>
        rcases hatomic with ⟨text, -, htext⟩
        rw [List.mem_singleton.1 hcondition]
        exact rereads_of_term htext hterm hfound
    | group inner =>
      have hbalanced := (hmembers _ hmember).balanced_written.1
      exact ih _ hmember (derives_of_term_group hbalanced hterm) hfound condition hcondition

end Tree

/-! ## Filters -/

/-- The written form of the tree that a filter is read as is read as the same tree again exactly if
every condition of the tree may be written. -/
theorem Settings.parse_written_same_iff {spelling : Spelling} {text : Text} {tree : Tree}
    (h : (unlimited spelling).parse text = .ok tree) :
    (∃ read, (unlimited spelling).parse tree.written = .ok read ∧ read.same tree) ↔
      ∀ condition ∈ tree.conditions, condition.Rereads spelling := by
  have hshaped := (parse_unlimited_eq_ok_iff.1 h).shaped
  constructor
  · rintro ⟨read, hread, hsame⟩
    exact hshaped.rereads (parse_unlimited_eq_ok_iff.1 hread) hsame
  · intro hrereads
    have hsafe : tree.Shaped (Condition.Safe spelling) := by
      apply hshaped.imp
      intro condition hcondition hatomic
      rcases hatomic with ⟨text, -, hread⟩
      exact (hrereads condition hcondition).safe hread
    refine ⟨tree, parse_written_unlimited hsafe, tree.same_self ?_⟩
    intro condition hcondition
    rcases hshaped.of_mem_conditions condition hcondition with ⟨text, -, hread⟩
    exact Condition.same_of_read hread

/-- The condition of `title IN (a, (b))`. -/
def Condition.titleInList : Condition :=
  ⟨.standard "title".toList, .isIn, .list [.text "a".toList, .text "(b)".toList], none⟩

/-- The condition of `title = ((c))`. -/
def Condition.titleInParentheses : Condition :=
  ⟨.standard "title".toList, .equal, .single (.text "(c)".toList), none⟩

/-- The tree of `title IN (a, (b)) OR title = ((c))`. -/
def Tree.titlesInParentheses : Tree :=
  .group [(none, .leaf .titleInList), (some .or, .leaf .titleInParentheses)]

/-- The list may be written. The single text may not: it is written `(c)` and read again as `c`. -/
theorem Settings.parse_written_same_iff_titlesInParentheses :
    (unlimited .anyCase).parse "title IN (a, (b)) OR title = ((c))".toList =
        .ok Tree.titlesInParentheses ∧
      ((∃ read, (unlimited .anyCase).parse Tree.titlesInParentheses.written = .ok read ∧
          read.same Tree.titlesInParentheses) ↔
        ∀ condition ∈ Tree.titlesInParentheses.conditions, condition.Rereads .anyCase) ∧
      (¬ ∃ read, (unlimited .anyCase).parse Tree.titlesInParentheses.written = .ok read ∧
          read.same Tree.titlesInParentheses) ∧
      Condition.titleInList.Rereads .anyCase ∧
      ¬ Condition.titleInParentheses.Rereads .anyCase := by
  have hparse : (unlimited .anyCase).parse "title IN (a, (b)) OR title = ((c))".toList =
      .ok Tree.titlesInParentheses := by
    decide +kernel
  have hiff := parse_written_same_iff hparse
  have hnot : ¬ ∃ read, (unlimited .anyCase).parse Tree.titlesInParentheses.written = .ok read ∧
      read.same Tree.titlesInParentheses := by
    rintro ⟨read, hread, hsame⟩
    have hother : (unlimited .anyCase).parse Tree.titlesInParentheses.written =
        .ok (.group [(none, .leaf .titleInList), (some .or, .leaf
          ⟨.standard "title".toList, .equal, .single (.text "c".toList), none⟩)]) := by
      decide +kernel
    rw [hother] at hread
    cases hread
    exact absurd hsame (by decide +kernel)
  -- the list alone is read as the same list again
  have hlist : Condition.titleInList.Rereads .anyCase := by
    have hparse : (unlimited .anyCase).parse "title IN (a, (b))".toList =
        .ok (.leaf .titleInList) := by
      decide +kernel
    have hagain : (unlimited .anyCase).parse (Tree.leaf .titleInList).written =
        .ok (.leaf .titleInList) := by
      decide +kernel
    exact (parse_written_same_iff hparse).1 ⟨_, hagain, by decide +kernel⟩ _ List.mem_cons_self
  refine ⟨hparse, hiff, hnot, hlist, fun hsingle => hnot (hiff.2 ?_)⟩
  intro condition hcondition
  have hcases : condition = .titleInList ∨ condition = .titleInParentheses := by
    simpa [Tree.titlesInParentheses, Tree.conditions, Tree.allConditions] using hcondition
  rcases hcases with rfl | rfl
  · exact hlist
  · exact hsingle

/-- The tree of `title = ((a))`. -/
def Tree.titleInParentheses : Tree :=
  .leaf ⟨.standard "title".toList, .equal, .single (.text "(a)".toList), none⟩

/-- A text in two pairs of parentheses loses one of them when it is read, and is written without the
other one's protection: the written form `title = (a)` is read with the text `a`. -/
theorem Settings.not_parse_written_same_titleInParentheses :
    (unlimited .anyCase).parse "title = ((a))".toList = .ok Tree.titleInParentheses ∧
      ¬ ∃ read, (unlimited .anyCase).parse Tree.titleInParentheses.written = .ok read ∧
        read.same Tree.titleInParentheses := by
  refine ⟨by decide +kernel, ?_⟩
  rintro ⟨read, hread, hsame⟩
  have hother : (unlimited .anyCase).parse Tree.titleInParentheses.written =
      .ok (.leaf ⟨.standard "title".toList, .equal, .single (.text "a".toList), none⟩) := by
    decide +kernel
  rw [hother] at hread
  cases hread
  exact absurd hsame (by decide +kernel)

end ListingFilter
