import ListingFilter.Listing.Matcher
import ListingFilter.Proofs.Rendering

/-!
# Concatenation — filters joined without parentheses

Two filters with a connective between them are one filter, whose outermost terms are those of the
two. It has the members of both, and not the two as its members: a chain of tests behind another one
(`Compiled.append`). What `AND` and `OR` mean there depends on how chains of tests are joined. Behind
`OR` a new piece begins, so one of the filters has to pass (`joined_append_or`). `AND` extends the
piece at hand, so both filters have to pass if neither has an `OR` of its own
(`joined_append_and`).

The main statement is `Settings.parse_concatenation`.
-/

namespace ListingFilter

/-! ## Chains of tests -/

namespace Matcher

/-- The test of a chain of tests. -/
def joined (tests : Chain Matcher) : Matcher :=
  join tests.first tests.rest

theorem join_append_or (piece next : Matcher) (rest later : List (Connective × Matcher))
    (listing : Listing) :
    join piece (rest ++ (.or, next) :: later) listing =
      (join piece rest listing || join next later listing) := by
  induction rest generalizing piece with
  | nil => rfl
  | cons query rest ih =>
    rcases query with ⟨_ | _, other⟩
    · exact ih (piece.both other)
    · -- the piece at hand ends before the other chain begins
      show (piece listing || join other (rest ++ _) listing) =
        (piece listing || join other rest listing || _)
      rw [ih, Bool.or_assoc]

/-- Without `OR`, all tests have to hold. -/
theorem join_of_not_mem (piece : Matcher) (rest : List (Connective × Matcher))
    (h : .or ∉ rest.map Prod.fst) (listing : Listing) :
    join piece rest listing = (piece listing && rest.all fun query => query.2 listing) := by
  induction rest generalizing piece with
  | nil => simp [join]
  | cons query rest ih =>
    rw [List.map_cons, List.mem_cons, not_or] at h
    rcases query with ⟨_ | _, other⟩
    · show join (piece.both other) rest listing = _
      rw [ih _ h.2, both, List.all_cons, Bool.and_assoc]
    · exact absurd rfl h.1

/-- A chain behind `OR` is another way to pass. -/
theorem joined_append_or (tests tests' : Chain Matcher) (listing : Listing) :
    joined (tests.append .or tests') listing = (joined tests listing || joined tests' listing) :=
  join_append_or tests.first tests'.first tests.rest tests'.rest listing

/-- A chain behind `AND` has to be passed too, if there is no `OR` in either. -/
theorem joined_append_and {tests tests' : Chain Matcher} (h : .or ∉ tests.connectives)
    (h' : .or ∉ tests'.connectives) (listing : Listing) :
    joined (tests.append .and tests') listing = (joined tests listing && joined tests' listing) := by
  have hboth : .or ∉ (tests.append .and tests').rest.map Prod.fst := by
    rw [← Chain.connectives, Chain.connectives_append, List.mem_append, List.mem_cons]
    simp [h, h']
  rw [joined, joined, joined, join_of_not_mem _ _ hboth, join_of_not_mem _ _ h,
    join_of_not_mem _ _ h']
  simp [Chain.append, Bool.and_assoc]

/-- The queries of members with connectives. -/
theorem ofMembers_links (links : List (Connective × Tree)) :
    ofMembers (links.map fun (k, tree) => (some k, tree)) =
      links.mapM fun (k, tree) => do return (k, ← ofTree tree) := by
  induction links with
  | nil => rfl
  | cons link links ih =>
    rcases link with ⟨k, tree⟩
    rw [List.map_cons, ofMembers, ih, List.mapM_cons]
    simp only [bind_assoc, pure_bind, Option.getD_some]

/-- The test of an expression is that of the chain of the tests of its terms. -/
theorem ofTree_ofChain (trees : Chain Tree) :
    ofTree (Tree.ofChain trees) = joined <$> trees.traverse ofTree := by
  rcases trees with ⟨first, rest⟩
  cases rest with
  | nil =>
    show ofTree first = _
    rw [Chain.traverse]
    cases ofTree first <;> rfl
  | cons link rest =>
    show ofTree (.group ((none, first) :: (link :: rest).map fun (k, tree) => (some k, tree))) = _
    rw [ofTree_group, ofMembers, ofMembers_links, Chain.traverse]
    cases ofTree first with
    | error fault => rfl
    | ok test =>
      cases (link :: rest).mapM fun (k, tree) => do return (k, ← ofTree tree) <;> rfl

end Matcher

/-! ## Filters and their chains -/

/-- The filter is made up of the terms, these derive the trees, and the trees stand for the tests. -/
structure Compiled (spelling : Spelling) (text : Text) (terms : Chain Text) (trees : Chain Tree)
    (tests : Chain Matcher) : Prop where
  segmented : text.Segmented spelling terms
  connectives : terms.connectives = trees.connectives
  derived : List.Forall₂ (Grammar.Term spelling) terms.items trees.items
  tested : trees.traverse Matcher.ofTree = .ok tests

namespace Compiled

variable {spelling : Spelling} {text text' : Text} {terms terms' : Chain Text}
  {trees trees' : Chain Tree} {tests tests' : Chain Matcher}

/-- A filter that is read and compiled has its chains. -/
theorem exists_of_parse {tree : Tree} {matcher : Matcher}
    (h : (Settings.unlimited spelling).parse text = .ok tree)
    (htree : Matcher.ofTree tree = .ok matcher) :
    ∃ terms trees tests, Compiled spelling text terms trees tests ∧
      Matcher.joined tests = matcher := by
  rcases Grammar.derives_iff_exists_chains.1 (Settings.parse_unlimited_eq_ok_iff.1 h) with
    ⟨terms, trees, hterms, hconnectives, hitems, rfl⟩
  rw [Matcher.ofTree_ofChain, map_eq_ok_iff] at htree
  rcases htree with ⟨tests, htests, rfl⟩
  exact ⟨terms, trees, tests, ⟨hterms, hconnectives, hitems, htests⟩, rfl⟩

/-- A filter with its chains is read and compiled. -/
theorem parse (h : Compiled spelling text terms trees tests) :
    (Settings.unlimited spelling).parse text = .ok (Tree.ofChain trees) ∧
      Matcher.ofTree (Tree.ofChain trees) = .ok (Matcher.joined tests) := by
  constructor
  · rw [Settings.parse_unlimited_eq_ok_iff, Grammar.derives_iff_exists_chains]
    exact ⟨terms, trees, h.segmented, h.connectives, h.derived, rfl⟩
  · rw [Matcher.ofTree_ofChain, h.tested]
    rfl

/-- The tests stand behind the connectives that the filter is cut at. -/
theorem connectives_tests (h : Compiled spelling text terms trees tests) :
    terms.connectives = tests.connectives :=
  h.connectives.trans (Chain.traverse_eq_ok_iff.1 h.tested).1

/-- A filter behind another one has the chains of both behind each other. -/
theorem append (h : Compiled spelling text terms trees tests) (connective : Connective)
    (h' : Compiled spelling text' terms' trees' tests') :
    Compiled spelling (text ++ [' '] ++ connective.keyword ++ ([' '] ++ text'))
      (terms.append connective terms') (trees.append connective trees')
      (tests.append connective tests') := by
  rcases Chain.traverse_eq_ok_iff.1 h.tested with ⟨htests, hitems⟩
  rcases Chain.traverse_eq_ok_iff.1 h'.tested with ⟨htests', hitems'⟩
  refine ⟨?_, ?_, ?_, Chain.traverse_eq_ok_iff.2 ⟨?_, ?_⟩⟩
  · exact (h.segmented.append_right Text.isBlank_blank).join (Text.endsApart_append_blank text)
      (spelling.accepts_self connective.keyword) (Text.beginsApart_blank_append text')
      (h'.segmented.append_left Text.isBlank_blank)
  · rw [Chain.connectives_append, Chain.connectives_append, h.connectives, h'.connectives]
  · rw [Chain.items_append, Chain.items_append]
    exact List.rel_append h.derived h'.derived
  · rw [Chain.connectives_append, Chain.connectives_append, htests, htests']
  · rw [Chain.items_append, Chain.items_append]
    exact List.rel_append hitems hitems'

end Compiled

/-- Two filters with ` OR ` between them are a filter that passes the listings that one of the two
passes. With ` AND ` between them they are one that passes the listings that both pass, if neither is
cut at an `OR`. -/
theorem Settings.parse_concatenation {spelling : Spelling} {text text' : Text} {tree tree' : Tree}
    {matcher matcher' : Matcher} (h : (unlimited spelling).parse text = .ok tree)
    (h' : (unlimited spelling).parse text' = .ok tree') (htree : Matcher.ofTree tree = .ok matcher)
    (htree' : Matcher.ofTree tree' = .ok matcher') :
    (∃ whole test, (unlimited spelling).parse (text ++ " OR ".toList ++ text') = .ok whole ∧
      Matcher.ofTree whole = .ok test ∧
        ∀ listing, test listing = (matcher listing || matcher' listing)) ∧
    ((∀ terms, text.segments spelling = .ok terms → .or ∉ terms.connectives) →
      (∀ terms, text'.segments spelling = .ok terms → .or ∉ terms.connectives) →
      ∃ whole test, (unlimited spelling).parse (text ++ " AND ".toList ++ text') = .ok whole ∧
        Matcher.ofTree whole = .ok test ∧
          ∀ listing, test listing = (matcher listing && matcher' listing)) := by
  rcases Compiled.exists_of_parse h htree with ⟨terms, trees, tests, hcompiled, rfl⟩
  rcases Compiled.exists_of_parse h' htree' with ⟨terms', trees', tests', hcompiled', rfl⟩
  have hspaced : ∀ connective : Connective,
      text ++ [' '] ++ connective.keyword ++ ([' '] ++ text') =
        text ++ (' ' :: connective.keyword ++ [' ']) ++ text' := by
    intro connective
    simp
  constructor
  · have hwhole := (hcompiled.append .or hcompiled').parse
    rw [hspaced] at hwhole
    exact ⟨_, _, hwhole.1, hwhole.2, Matcher.joined_append_or tests tests'⟩
  · intro hnone hnone'
    have htests : .or ∉ tests.connectives := by
      rw [← hcompiled.connectives_tests]
      exact hnone terms (Text.segments_eq_ok_iff.2 hcompiled.segmented)
    have htests' : .or ∉ tests'.connectives := by
      rw [← hcompiled'.connectives_tests]
      exact hnone' terms' (Text.segments_eq_ok_iff.2 hcompiled'.segmented)
    have hwhole := (hcompiled.append .and hcompiled').parse
    rw [hspaced] at hwhole
    exact ⟨_, _, hwhole.1, hwhole.2, Matcher.joined_append_and htests htests'⟩

/-- A title or remote work, and a title and remote work. -/
theorem Settings.parse_concatenation_titleAndRemote :
    (∃ whole test, (unlimited .anyCase).parse "title = a OR is_remote = true".toList = .ok whole ∧
      Matcher.ofTree whole = .ok test ∧ test { title := "a".toList } = true) ∧
    (∃ whole test, (unlimited .anyCase).parse "title = a AND is_remote = true".toList = .ok whole ∧
      Matcher.ofTree whole = .ok test ∧ test { title := "a".toList } = false ∧
        test { title := "a".toList, isRemote := true } = true) := by
  have htitle : (unlimited .anyCase).parse "title = a".toList =
      .ok (.leaf ⟨.standard "title".toList, .equal, .single (.text "a".toList), none⟩) := by
    decide +kernel
  have hremote : (unlimited .anyCase).parse "is_remote = true".toList =
      .ok (.leaf ⟨.standard "is_remote".toList, .equal, .single (.boolean true), none⟩) := by
    decide +kernel
  have hnone : ∀ text : Text, text.segments .anyCase = .ok ⟨text, []⟩ →
      ∀ terms, text.segments .anyCase = .ok terms → .or ∉ terms.connectives := by
    intro text hwhole terms hterms
    rw [hwhole] at hterms
    cases hterms
    exact List.not_mem_nil
  rcases parse_concatenation htitle hremote rfl rfl with ⟨hor, hand⟩
  constructor
  · rcases hor with ⟨whole, test, hparse, htest, hmeaning⟩
    exact ⟨whole, test, hparse, htest, (hmeaning _).trans (by decide)⟩
  · rcases hand (hnone _ (by decide +kernel)) (hnone _ (by decide +kernel)) with
      ⟨whole, test, hparse, htest, hmeaning⟩
    exact ⟨whole, test, hparse, htest, (hmeaning _).trans (by decide),
      (hmeaning _).trans (by decide)⟩

end ListingFilter
