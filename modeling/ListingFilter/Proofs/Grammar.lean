import ListingFilter.Proofs.Members
import ListingFilter.Tree.Reading

/-!
# Grammar — the filters and the trees they derive

* expression: terms with connectives between them
* term: `(` expression `)`, or an atom

White space may stand around terms and connectives. A connective directly follows white space or a
closing parenthesis and directly precedes white space or an opening one. An atom is the text of one
condition that nothing severs and that is no group itself. An expression of one term derives the
tree of that term, a longer one the group of the trees of its terms.

The relations `Terms`, `Expression` and `Term` take the grammar literally and know nothing of how
filters are read. The main statement, `parse_eq_ok_iff_derives`, says that reading without limits
accepts exactly the filters of the grammar and gives exactly the tree that they derive. On the way,
`readExpression_eq_ok_iff` shows that one level of reading is one level of the grammar, whatever is
done with the terms.
-/

namespace ListingFilter

/-- No limits, with the given spelling of connectives. -/
def Settings.unlimited (spelling : Spelling) : Settings :=
  ⟨spelling, none, none⟩

namespace Text

/-- The text can stand between connectives and is not a group in parentheses. -/
structure IsAtom (spelling : Spelling) (text : Text) : Prop extends text.IsSegment spelling where
  not_group : ∀ inner : Text, inner.Balanced → text ≠ '(' :: inner ++ [')']

end Text

namespace Grammar

/-- Terms with connectives between them, and the members that they derive, the first one behind
`joint`. `Term term tree` says that a text is a term and which tree it derives. -/
inductive Terms (spelling : Spelling) (Term : Text → Tree → Prop) :
    Option Connective → Text → List Member → Prop where
  | last {joint : Option Connective} {before term after : Text} {tree : Tree} :
      before.isBlank → Term term tree → after.isBlank →
      Terms spelling Term joint (before ++ term ++ after) [(joint, tree)]
  | more {joint : Option Connective} {before term after word rest : Text} {tree : Tree}
      {connective : Connective} {members : List Member} :
      before.isBlank → Term term tree → after.isBlank →
      (before ++ term ++ after).EndsApart →
      spelling.accepts word connective.keyword →
      rest.BeginsApart →
      Terms spelling Term (some connective) rest members →
      Terms spelling Term joint (before ++ term ++ after ++ word ++ rest)
        ((joint, tree) :: members)

/-- The tree of an expression: the tree of its only member, or the group of its members. -/
def treeOf : List Member → Tree
  | [(_, tree)] => tree
  | members => .group members

theorem treeOf_eq_group {members : List Member} (h : members.length ≠ 1) :
    treeOf members = .group members := by
  rcases members with _ | ⟨first, _ | ⟨second, rest⟩⟩
  · rfl
  · exact absurd rfl h
  · rfl

/-- A term derives its condition, or what the expression in its parentheses derives. -/
inductive Term (spelling : Spelling) : Text → Tree → Prop where
  | atom {text : Text} {condition : Condition} :
      text.IsAtom spelling → Condition.read text = .ok condition →
      Term spelling text (.leaf condition)
  | group {inner : Text} {members : List Member} :
      Terms spelling (Term spelling) none inner members →
      Term spelling ('(' :: inner ++ [')']) (treeOf members)

/-- An expression over the given terms derives the tree of its members. -/
def Expression (spelling : Spelling) (Term : Text → Tree → Prop) (text : Text) (tree : Tree) :
    Prop :=
  ∃ members, Terms spelling Term none text members ∧ treeOf members = tree

/-- The filter derives the tree. -/
def Derives (spelling : Spelling) (text : Text) (tree : Tree) : Prop :=
  Expression spelling (Term spelling) text tree

/-- What holds of every atom, and of a group whenever it holds of all terms in it, holds of every
term. -/
theorem Term.induction {spelling : Spelling} {P : Text → Tree → Prop}
    (atom : ∀ (text : Text) (condition : Condition), text.IsAtom spelling →
      Condition.read text = .ok condition → P text (.leaf condition))
    (group : ∀ (inner : Text) (members : List Member),
      Terms spelling (fun term tree => Term spelling term tree ∧ P term tree) none inner members →
      P ('(' :: inner ++ [')']) (treeOf members))
    {text : Text} {tree : Tree} (h : Term spelling text tree) : P text tree :=
  @Term.rec spelling (fun text tree _ => P text tree)
    (fun joint text members _ =>
      Terms spelling (fun term tree => Term spelling term tree ∧ P term tree) joint text members)
    (fun hatom hread => atom _ _ hatom hread)
    (fun _ hterms => group _ _ hterms)
    (fun hbefore hterm hafter ih => .last hbefore ⟨hterm, ih⟩ hafter)
    (fun hbefore hterm hafter hend hword hrest _ ih ihrest =>
      .more hbefore ⟨hterm, ih⟩ hafter hend hword hrest ihrest)
    text tree h

/-! ## Terms and segments -/

theorem ofChain_eq_treeOf (chain : Chain Tree) :
    Tree.ofChain chain = treeOf (chain.members none) := by
  rcases chain with ⟨first, rest⟩
  cases rest <;> rfl

/-- Terms with connectives between them are the segments of their text. -/
theorem terms_iff {spelling : Spelling} {Term : Text → Tree → Prop}
    (hTerm : ∀ term tree, Term term tree → term.IsSegment spelling) {joint : Option Connective}
    {text : Text} {members : List Member} :
    Terms spelling Term joint text members ↔
      ∃ chain, text.Segmented spelling chain ∧
        List.Forall₂ (Paired Term) (chain.members joint) members := by
  constructor
  · intro h
    induction h with
    | last hbefore hterm hafter =>
      exact ⟨_, .last hbefore (hTerm _ _ hterm) hafter, .cons ⟨rfl, hterm⟩ .nil⟩
    | more hbefore hterm hafter hend hword hbegin _ ih =>
      rcases ih with ⟨chain, hchain, hpaired⟩
      exact ⟨_, .more hbefore (hTerm _ _ hterm) hafter hend hword hbegin hchain,
        .cons ⟨rfl, hterm⟩ hpaired⟩
  · rintro ⟨chain, hchain, hpaired⟩
    induction hchain generalizing joint members with
    | last hbefore _ hafter =>
      rcases List.forall₂_cons_left_iff.1 hpaired with
        ⟨⟨joint', tree⟩, rest, ⟨hjoint, hterm⟩, hrest, rfl⟩
      rcases List.forall₂_nil_left_iff.1 hrest with rfl
      obtain rfl : joint = joint' := hjoint
      exact .last hbefore hterm hafter
    | more hbefore _ hafter hend hword hbegin _ ih =>
      rcases List.forall₂_cons_left_iff.1 hpaired with
        ⟨⟨joint', tree⟩, rest, ⟨hjoint, hterm⟩, hrest, rfl⟩
      obtain rfl : joint = joint' := hjoint
      exact .more hbefore hterm hafter hend hword hbegin (ih hrest)

/-- Only the terms that are no longer than the text matter. -/
theorem Terms.imp {spelling : Spelling} {Term Term' : Text → Tree → Prop} {joint : Option Connective}
    {text : Text} {members : List Member} (h : Terms spelling Term joint text members)
    (hTerm : ∀ term tree, term.length ≤ text.length → Term term tree → Term' term tree) :
    Terms spelling Term' joint text members := by
  induction h with
  | last hbefore hterm hafter =>
    refine .last hbefore (hTerm _ _ ?_ hterm) hafter
    simp only [List.length_append]
    omega
  | more hbefore hterm hafter hend hword hbegin _ ih =>
    refine .more hbefore (hTerm _ _ ?_ hterm) hafter hend hword hbegin (ih fun term tree hle => ?_)
    · simp only [List.length_append]
      omega
    · apply hTerm term tree
      simp only [List.length_append]
      omega

theorem Expression.imp {spelling : Spelling} {Term Term' : Text → Tree → Prop} {text : Text}
    {tree : Tree} (h : Expression spelling Term text tree)
    (hTerm : ∀ term tree, term.length ≤ text.length → Term term tree → Term' term tree) :
    Expression spelling Term' text tree := by
  rcases h with ⟨members, hterms, htree⟩
  exact ⟨members, hterms.imp hTerm, htree⟩

/-- What stands in parentheses, read at all, is balanced and not blank. -/
theorem Expression.balanced {spelling : Spelling} {Term : Text → Tree → Prop}
    (hTerm : ∀ term tree, Term term tree → term.IsSegment spelling) {text : Text} {tree : Tree}
    (h : Expression spelling Term text tree) : text.Balanced ∧ ¬ text.isBlank := by
  rcases h with ⟨members, hterms, -⟩
  rcases (terms_iff hTerm).1 hterms with ⟨chain, hchain, -⟩
  exact ⟨hchain.balanced, hchain.not_isBlank⟩

/-- Every term can stand between connectives. -/
theorem Term.isSegment {spelling : Spelling} {term : Text} {tree : Tree}
    (h : Term spelling term tree) : term.IsSegment spelling := by
  refine Term.induction (P := fun term _ => term.IsSegment spelling) ?_ ?_ h
  · intro text condition hatom _
    exact hatom.toIsSegment
  · intro inner members hterms
    have hinner : Expression spelling (fun term tree => Term spelling term tree ∧
        term.IsSegment spelling) inner (treeOf members) := ⟨members, hterms, rfl⟩
    exact (hinner.balanced fun _ _ hterm => hterm.2).1.isSegment_group spelling

/-- White space at the ends of an expression does not matter. -/
theorem expression_trim_iff {spelling : Spelling} {Term : Text → Tree → Prop}
    (hTerm : ∀ term tree, Term term tree → term.IsSegment spelling) {text : Text} {tree : Tree} :
    Expression spelling Term text.trim tree ↔ Expression spelling Term text tree := by
  simp only [Expression, terms_iff hTerm, Text.segmented_trim_iff]

/-! ## Reading -/

/-- One level of reading is one level of the grammar, whatever is done with the terms. -/
theorem readExpression_eq_ok_iff {spelling : Spelling} {readGroup : Text → Text → Except Fault Tree}
    {text : Text} {tree : Tree} :
    Tree.readExpression spelling readGroup text = .ok tree ↔
      Expression spelling (fun term tree => term.IsSegment spelling ∧
        Tree.readTerm readGroup term = .ok tree) text tree := by
  have hread : Tree.readExpression spelling readGroup text = .ok tree ↔
      ∃ chain, text.segments spelling = .ok chain ∧ ∃ members,
        (∃ trees : Chain Tree, chain.traverse (Tree.readTerm readGroup) = .ok trees ∧
          trees.members none = members) ∧ treeOf members = tree := by
    unfold Tree.readExpression
    cases text.segments spelling with
    | error fault => simp [bind, Except.bind]
    | ok chain =>
      cases htrees : chain.traverse (Tree.readTerm readGroup) with
      | error fault => simp [bind, Except.bind, htrees]
      | ok trees => simp [bind, Except.bind, pure, Except.pure, htrees, ofChain_eq_treeOf]
  rw [hread, Expression]
  simp only [exists_traverse_iff, Text.segments_eq_ok_iff]
  rw [exists_congr fun members => and_congr_left' (terms_iff fun _ _ hterm => hterm.1)]
  constructor
  · rintro ⟨chain, hchain, members, hpaired, htree⟩
    refine ⟨members, ⟨chain, hchain, ?_⟩, htree⟩
    have hsegment : ∀ a ∈ chain.members none, a.2.IsSegment spelling := by
      intro a ha
      have hitem : a.2 ∈ chain.items := chain.map_snd_members none ▸ List.mem_map_of_mem ha
      exact (hchain.isSegment_of_mem hitem).1
    exact ((List.forall₂_and_left _ _).2 ⟨hsegment, hpaired⟩).imp fun a b h => ⟨h.2.1, h.1, h.2.2⟩
  · rintro ⟨members, ⟨chain, hchain, hpaired⟩, htree⟩
    exact ⟨chain, hchain, members, hpaired.imp fun a b h => ⟨h.1, h.2.2⟩, htree⟩

theorem readTerm_group {readGroup : Text → Text → Except Fault Tree} {inner : Text}
    (h : inner.Balanced) :
    Tree.readTerm readGroup ('(' :: inner ++ [')']) = readGroup ('(' :: inner ++ [')']) inner := by
  rw [Tree.readTerm, Text.enclosed?_eq_some_iff_balanced.2 ⟨rfl, h⟩]

theorem readTerm_of_not_group {readGroup : Text → Text → Except Fault Tree} {term : Text}
    (h : term.enclosed? = none) : Tree.readTerm readGroup term = .leaf <$> Condition.read term := by
  rw [Tree.readTerm, h]

theorem readGroup_of_not_blank {spelling : Spelling} {limit allowance : Nat} {term inner : Text}
    (h : ¬ inner.isBlank) :
    Tree.readGroup spelling limit (allowance + 1) term inner =
      Tree.readExpression spelling (Tree.readGroup spelling limit allowance) inner := by
  rw [Tree.readGroup, if_neg h]

/-- A term that is read is one of the grammar, if what it is given for groups is. -/
theorem Term.of_readTerm {spelling : Spelling} {readGroup : Text → Text → Except Fault Tree}
    {term : Text} {tree : Tree} (hsegment : term.IsSegment spelling)
    (hread : Tree.readTerm readGroup term = .ok tree)
    (hgroup : ∀ inner : Text, readGroup term inner = .ok tree →
      Expression spelling (Term spelling) inner tree) : Term spelling term tree := by
  cases henclosed : term.enclosed? with
  | none =>
    rw [readTerm_of_not_group henclosed] at hread
    cases hcondition : Condition.read term with
    | error fault =>
      rw [hcondition] at hread
      cases hread
    | ok condition =>
      rw [hcondition] at hread
      cases hread
      exact .atom ⟨hsegment, Text.enclosed?_eq_none_iff.1 henclosed⟩ hcondition
  | some inner =>
    rcases Text.enclosed?_eq_some_iff_balanced.1 henclosed with ⟨rfl, hbalanced⟩
    rw [readTerm_group hbalanced] at hread
    rcases hgroup inner hread with ⟨members, hterms, rfl⟩
    exact .group hterms

/-- What is read with any allowance follows the grammar down to the atoms. -/
theorem Expression.of_readExpression {spelling : Spelling} {limit allowance : Nat} {text : Text}
    {tree : Tree}
    (h : Tree.readExpression spelling (Tree.readGroup spelling limit allowance) text = .ok tree) :
    Expression spelling (Term spelling) text tree := by
  induction allowance generalizing text tree with
  | zero =>
    apply (readExpression_eq_ok_iff.1 h).imp
    intro term tree _ hterm
    exact .of_readTerm hterm.1 hterm.2 fun inner hread => by cases hread
  | succ allowance ih =>
    apply (readExpression_eq_ok_iff.1 h).imp
    intro term tree _ hterm
    refine .of_readTerm hterm.1 hterm.2 ?_
    intro inner hread
    by_cases hblank : inner.isBlank
    · rw [Tree.readGroup, if_pos hblank] at hread
      cases hread
    · rw [readGroup_of_not_blank hblank] at hread
      exact ih hread

/-- The grammar is read down to the atoms with an allowance that the text cannot use up: one unit of
it pays for the two parentheses of a group. -/
theorem Expression.readExpression {spelling : Spelling} {text : Text} {tree : Tree}
    (h : Expression spelling (Term spelling) text tree) (limit : Nat) {allowance : Nat}
    (hlength : text.length ≤ allowance) :
    Tree.readExpression spelling (Tree.readGroup spelling limit allowance) text = .ok tree := by
  induction allowance using Nat.strongRecOn generalizing text tree with
  | ind allowance ih =>
    refine readExpression_eq_ok_iff.2 (h.imp fun term tree hle hterm => ⟨hterm.isSegment, ?_⟩)
    cases hterm with
    | atom hatom hread =>
      rw [readTerm_of_not_group (Text.enclosed?_eq_none_iff.2 hatom.not_group), hread]
      rfl
    | @group inner members hterms =>
      have hinner : Expression spelling (Term spelling) inner (treeOf members) :=
        ⟨members, hterms, rfl⟩
      rcases hinner.balanced fun _ _ => Term.isSegment with ⟨hbalanced, hblank⟩
      have hshorter : inner.length + 2 ≤ allowance := by
        simp only [List.length_append, List.length_cons, List.length_nil] at hle
        omega
      cases allowance with
      | zero => omega
      | succ allowance =>
        rw [readTerm_group hbalanced, readGroup_of_not_blank hblank]
        exact ih allowance (Nat.lt_succ_self _) hinner (by omega)

/-- White space around a filter does not matter to what it derives. -/
theorem derives_trim_iff {spelling : Spelling} {text : Text} {tree : Tree} :
    Derives spelling text.trim tree ↔ Derives spelling text tree :=
  expression_trim_iff fun _ _ => Term.isSegment

end Grammar

namespace Settings

theorem parse_of_refusal?_eq_none {settings : Settings} {text : Text}
    (h : settings.refusal? text = none) :
    settings.parse text = Tree.readExpression settings.spelling
      (Tree.readGroup settings.spelling (settings.allowance text.trim)
        (settings.allowance text.trim)) text.trim := by
  rw [parse, h]

/-- Whatever the limits, what is read follows the grammar. -/
theorem derives_of_parse {settings : Settings} {text : Text} {tree : Tree}
    (h : settings.parse text = .ok tree) : Grammar.Derives settings.spelling text tree := by
  cases hrefusal : settings.refusal? text with
  | some fault =>
    rw [parse, hrefusal] at h
    cases h
  | none =>
    rw [parse_of_refusal?_eq_none hrefusal] at h
    exact Grammar.derives_trim_iff.1 (.of_readExpression h)

/-- Without limits, only blank texts are refused before they are read. -/
theorem parse_unlimited (spelling : Spelling) (text : Text) :
    (unlimited spelling).parse text =
      if text.isBlank then .error .empty
      else Tree.readExpression spelling
        (Tree.readGroup spelling text.trim.length text.trim.length) text.trim := by
  by_cases hblank : text.isBlank
  · simp [parse, refusal?, unlimited, hblank]
  · simp [parse, refusal?, unlimited, allowance, hblank]

/-- A filter of atoms is read condition by condition. -/
theorem parse_of_atoms {spelling : Spelling} {text : Text} {chain : Chain Text}
    (h : text.Segmented spelling chain) (hatoms : ∀ item ∈ chain.items, item.IsAtom spelling) :
    (unlimited spelling).parse text =
      Tree.ofChain <$> chain.traverse fun item => .leaf <$> Condition.read item := by
  have hterms : ∀ readGroup, ∀ item ∈ chain.items,
      Tree.readTerm readGroup item = .leaf <$> Condition.read item := by
    intro readGroup item hitem
    exact Grammar.readTerm_of_not_group (Text.enclosed?_eq_none_iff.2 (hatoms item hitem).not_group)
  rw [parse_unlimited, if_neg h.not_isBlank, Tree.readExpression,
    Text.segments_eq_ok_iff.2 (Text.segmented_trim_iff.2 h)]
  show Tree.ofChain <$> chain.traverse _ = _
  rw [Chain.traverse_congr (hterms _)]

/-- An atom is read as one condition. -/
theorem parse_of_isAtom {spelling : Spelling} {text : Text} (h : text.IsAtom spelling) :
    (unlimited spelling).parse text = .leaf <$> Condition.read text := by
  have hatoms : ∀ item ∈ (Chain.mk text []).items, item.IsAtom spelling := by
    intro item hitem
    rwa [List.mem_singleton.1 hitem]
  rw [parse_of_atoms h.toIsSegment.segmented hatoms, Chain.traverse]
  cases Condition.read text <;> rfl

/-- Without limits, all that follows the grammar is read. -/
theorem parse_of_derives {spelling : Spelling} {text : Text} {tree : Tree}
    (h : Grammar.Derives spelling text tree) : (unlimited spelling).parse text = .ok tree := by
  have hblank : ¬ text.isBlank := (h.balanced fun _ _ => Grammar.Term.isSegment).2
  rw [parse_unlimited, if_neg hblank]
  exact Grammar.Expression.readExpression (Grammar.derives_trim_iff.2 h) _ (Nat.le_refl _)

theorem parse_unlimited_eq_ok_iff {spelling : Spelling} {text : Text} {tree : Tree} :
    (unlimited spelling).parse text = .ok tree ↔ Grammar.Derives spelling text tree :=
  ⟨derives_of_parse, parse_of_derives⟩

/-- Reading without limits accepts exactly the filters of the grammar and gives exactly the tree
that they derive; no filter derives two trees. -/
theorem parse_eq_ok_iff_derives (spelling : Spelling) (text : Text) :
    (∀ tree, (unlimited spelling).parse text = .ok tree ↔ Grammar.Derives spelling text tree) ∧
      ∀ tree tree', Grammar.Derives spelling text tree → Grammar.Derives spelling text tree' →
        tree = tree' := by
  constructor
  · intro tree
    exact parse_unlimited_eq_ok_iff
  · intro tree tree' h h'
    have hread := parse_of_derives h
    rw [parse_of_derives h'] at hread
    exact (Except.ok.inj hread).symm

end Settings

end ListingFilter
