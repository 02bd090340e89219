import ListingFilter.Proofs.Limits

/-!
# Grouping — filters made of other filters in parentheses

Any texts with balanced parentheses, accepted as filters or not, can be put in parentheses each and
joined by connectives. The joined text is cut at just these connectives (`segmented_written`), and each
text is read in its parentheses as it is read alone (`readTerm_group_eq_parse`). So the joined text is
read as the group of what the single texts are read as, or fails with the leftmost fault
(`Settings.parse_grouping`).
-/

namespace ListingFilter

/-- A connective as it stands between two groups: the word for it, with or without white space on
each side. -/
structure Joint (spelling : Spelling) where
  connective : Connective
  before : Text
  word : Text
  after : Text
  before_blank : before.isBlank
  accepted : spelling.accepts word connective.keyword
  after_blank : after.isBlank

/-- Texts with joints between them. -/
structure Grouping (spelling : Spelling) where
  first : Text
  rest : List (Joint spelling × Text)

namespace Grouping

variable {spelling : Spelling}

/-- The texts, and the connectives that join them. -/
def parts (grouping : Grouping spelling) : Chain Text :=
  ⟨grouping.first, grouping.rest.map fun (joint, part) => (joint.connective, part)⟩

/-- Each text in parentheses, with the joints written between them. -/
def written (grouping : Grouping spelling) : Text :=
  '(' :: grouping.first ++ [')'] ++ grouping.rest.flatMap fun (joint, part) =>
    joint.before ++ joint.word ++ joint.after ++ ('(' :: part ++ [')'])

theorem written_cons (first : Text) (joint : Joint spelling) (part : Text)
    (rest : List (Joint spelling × Text)) :
    (Grouping.mk first ((joint, part) :: rest)).written =
      [] ++ ('(' :: first ++ [')']) ++ joint.before ++ joint.word ++
        (joint.after ++ (Grouping.mk part rest).written) := by
  simp [written]

/-- The written form begins with a parenthesis. -/
theorem beginsApart_written (grouping : Grouping spelling) : grouping.written.BeginsApart :=
  ⟨'(', rfl, .inr rfl⟩

/-- The written form is cut at the joints and nowhere else. -/
theorem segmented_written (grouping : Grouping spelling)
    (hparts : ∀ part ∈ grouping.parts.items, part.Balanced) :
    Text.Segmented spelling grouping.written
      (grouping.parts.map fun part => '(' :: part ++ [')']) := by
  rcases grouping with ⟨first, rest⟩
  induction rest generalizing first with
  | nil =>
    have hfirst := hparts first List.mem_cons_self
    simpa [written, parts, Chain.map] using (hfirst.isSegment_group spelling).segmented
  | cons link rest ih =>
    rcases link with ⟨joint, part⟩
    have hfirst := hparts first List.mem_cons_self
    have hrest := ih part fun item hitem => hparts item (List.mem_cons_of_mem _ hitem)
    have hends : Text.EndsApart ('(' :: first ++ [')']) := by
      rw [Text.endsApart_append_iff (by simp)]
      exact ⟨')', rfl, .inr rfl⟩
    rw [written_cons]
    exact .more Text.isBlank_nil (hfirst.isSegment_group spelling) joint.before_blank
      (hends.append joint.before_blank) joint.accepted
      ((beginsApart_written ⟨part, rest⟩).append joint.after_blank)
      (hrest.append_left joint.after_blank)

end Grouping

/-- What stands in parentheses in a text is shorter than the text. -/
theorem Text.Segmented.length_lt {spelling : Spelling} {text : Text} {parts : Chain Text}
    (h : Segmented spelling text (parts.map fun part => '(' :: part ++ [')'])) :
    ∀ part ∈ parts.items, part.length < text.length := by
  intro part hpart
  have hgroup : '(' :: part ++ [')'] ∈ (parts.map fun part => '(' :: part ++ [')']).items := by
    rw [Chain.items_map]
    exact List.mem_map_of_mem hpart
  have hlength := (h.isSegment_of_mem hgroup).2
  simp only [List.length_append, List.length_cons, List.length_nil] at hlength
  omega

namespace Settings

variable {spelling : Spelling}

/-- A text is read in parentheses as it is read alone. -/
theorem readTerm_group_eq_parse {limit allowance : Nat} {part : Text} (hne : part ≠ [])
    (htight : part.Tight) (hbalanced : part.Balanced) (hlength : part.length < allowance) :
    Tree.readTerm (Tree.readGroup spelling limit allowance) ('(' :: part ++ [')']) =
      (unlimited spelling).parse part := by
  have hblank : ¬ part.isBlank := by
    rw [← Text.trim_eq_nil_iff, htight.trim_eq]
    exact hne
  obtain ⟨less, rfl⟩ : ∃ less, allowance = less + 1 := ⟨allowance - 1, by omega⟩
  rw [Grammar.readTerm_group hbalanced, Grammar.readGroup_of_not_blank hblank, parse_unlimited,
    if_neg hblank, htight.trim_eq]
  exact Tree.readExpression_eq_of_length_le (Nat.le_of_lt_succ hlength) (Nat.le_refl _)

/-- Reading the written form is reading the texts from left to right. -/
theorem parse_written_eq_traverse (grouping : Grouping spelling) (hrest : grouping.rest ≠ [])
    (hparts : ∀ part ∈ grouping.parts.items, part ≠ [] ∧ part.Tight ∧ part.Balanced) :
    (unlimited spelling).parse grouping.written =
      (fun trees => .group (trees.members none)) <$>
        grouping.parts.traverse (unlimited spelling).parse := by
  have hsegmented := grouping.segmented_written fun part hpart => (hparts part hpart).2.2
  have htrim := Text.segmented_trim_iff.2 hsegmented
  have hread : ∀ part ∈ grouping.parts.items,
      Tree.readTerm (Tree.readGroup spelling grouping.written.trim.length
        grouping.written.trim.length) ('(' :: part ++ [')']) = (unlimited spelling).parse part := by
    intro part hpart
    rcases hparts part hpart with ⟨hne, htight, hbalanced⟩
    exact readTerm_group_eq_parse hne htight hbalanced (htrim.length_lt part hpart)
  rw [parse_unlimited, if_neg hsegmented.not_isBlank, Tree.readExpression_of_segmented htrim,
    Chain.traverse_map, Chain.traverse_congr hread]
  cases htrees : grouping.parts.traverse (unlimited spelling).parse with
  | error fault => rfl
  | ok trees =>
    -- as many trees as texts, so there are two at least
    have hconnectives := (Chain.traverse_eq_ok_iff.1 htrees).1
    have hmany : trees.rest ≠ [] := by
      intro hnil
      rw [Chain.connectives, Chain.connectives, hnil] at hconnectives
      exact hrest (by simpa [Grouping.parts] using hconnectives)
    exact congrArg Except.ok (Tree.ofChain_of_ne_nil hmany)

/-- Texts in parentheses, two or more, each with balanced parentheses of its own and no white space
at its ends, are read together as the group of the trees that they are read as alone, each behind the
connective before it. If one of them is not read, the fault is that of the leftmost such text. -/
theorem parse_grouping (grouping : Grouping spelling) (hrest : grouping.rest ≠ [])
    (hparts : ∀ part ∈ grouping.parts.items, part ≠ [] ∧ part.Tight ∧ part.Balanced) :
    (∀ members, List.Forall₂ (Paired fun part tree => (unlimited spelling).parse part = .ok tree)
        (grouping.parts.members none) members →
      (unlimited spelling).parse grouping.written = .ok (.group members)) ∧
    (∀ before part after fault, grouping.parts.items = before ++ part :: after →
      (∀ earlier ∈ before, ∃ tree, (unlimited spelling).parse earlier = .ok tree) →
      (unlimited spelling).parse part = .error fault →
      (unlimited spelling).parse grouping.written = .error fault) := by
  have htraverse := parse_written_eq_traverse grouping hrest hparts
  constructor
  · intro members hmembers
    rcases exists_traverse_iff.2 hmembers with ⟨trees, htrees, rfl⟩
    rw [htraverse, htrees]
    rfl
  · intro before part after fault hsplit hbefore hpart
    have hfault := Chain.traverse_eq_error_iff.2 ⟨before, part, after, hsplit, hbefore, hpart⟩
    rw [htraverse, hfault]
    rfl

end Settings

/-- Two groups with a connective between them that touches both. -/
def Grouping.ofTwo (first second : Text) : Grouping .anyCase :=
  ⟨first, [(⟨.and, [], "and".toList, [], rfl, rfl, rfl⟩, second)]⟩

/-- Two titles and one: the group of both, and the fault of the one that has no operator. -/
theorem Settings.parse_grouping_ofTwo :
    let title (content : Text) : Tree :=
      .leaf ⟨.standard "title".toList, .equal, .single (.text content), none⟩
    (unlimited .anyCase).parse "(title = a OR title = b)and(title = c)".toList =
        .ok (.group [(none, .group [(none, title "a".toList), (some .or, title "b".toList)]),
          (some .and, title "c".toList)]) ∧
      (unlimited .anyCase).parse "(title = a OR title = b)and(title)".toList =
        .error (.noOperator "title".toList) := by
  intro title
  have hpart : ∀ part : Text, part ≠ [] → part.trim = part → part.isBalanced →
      part ≠ [] ∧ part.Tight ∧ part.Balanced :=
    fun part hne htrim hbalanced =>
      ⟨hne, htrim ▸ Text.tight_trim part, Text.isBalanced_iff.1 hbalanced⟩
  have hfirst := hpart "title = a OR title = b".toList (by decide) (by decide) (by decide)
  have hread : (unlimited .anyCase).parse "title = a OR title = b".toList =
      .ok (.group [(none, title "a".toList), (some .or, title "b".toList)]) := by
    decide +kernel
  constructor
  · have hsecond := hpart "title = c".toList (by decide) (by decide) (by decide)
    refine (parse_grouping (.ofTwo _ _) (by simp [Grouping.ofTwo])
      (List.forall_mem_cons.2 ⟨hfirst, List.forall_mem_singleton.2 hsecond⟩)).1 _ ?_
    exact .cons ⟨rfl, hread⟩ (.cons ⟨rfl, by decide +kernel⟩ .nil)
  · have hsecond := hpart "title".toList (by decide) (by decide) (by decide)
    refine (parse_grouping (.ofTwo _ _) (by simp [Grouping.ofTwo])
      (List.forall_mem_cons.2 ⟨hfirst, List.forall_mem_singleton.2 hsecond⟩)).2
      ["title = a OR title = b".toList] "title".toList [] _ rfl ?_ (by decide +kernel)
    exact List.forall_mem_singleton.2 ⟨_, hread⟩

end ListingFilter
