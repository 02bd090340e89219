import ListingFilter.Proofs.Denotation
import ListingFilter.Proofs.Phrases
import ListingFilter.Proofs.Queries

/-!
# Memberships — the tests of linked records

Linked records are tested by equality, `IS_ANY`, `HAS_ANY`, inequality and `EXISTS`. All of them read
the text of their labels in the same way, so a list without a label is refused by all but `EXISTS`.
The first three ask whether a linked record carries one of the labels, inequality asks the opposite,
and `EXISTS` asks for any record and does not mind labels.

The main statement, `Settings.parse_memberships`, says how the five tests of one text of labels
belong together.
-/

namespace ListingFilter

/-- A test of linked records for labels. -/
def Condition.linked (link : Link) (operator : Operator) (labels : List Text) : Condition :=
  ⟨.relationship link, operator, .list (labels.map .text),
    if operator = .hasAny then some .countGuard else none⟩

/-- The operators that test linked records for labels. -/
def Operator.labelTests : List Operator :=
  [.equal, .isAny, .hasAny, .notEqual]

/-! ## Reading -/

theorem Field.ofToken_name (link : Link) : ofToken link.name = .relationship link := by
  cases link <;> rfl

variable {spelling : Spelling} {operator : Operator} {labels : Text}

/-- A test of linked records is read as the labels are, whatever the operator is. -/
theorem Condition.read_linked (link : Link) {text : Text}
    (h : Clause.read text = .ok ⟨link.name, operator, labels⟩)
    (hallows : FieldKind.relationship.allows operator) :
    Condition.read text =
      if operator ≠ .exists ∧ labels.strip.listItems = [] then
        .error (.malformed labels.trim .missingValue)
      else .ok (.linked link operator labels.strip.listItems) := by
  have hitems : labels.strip.listItems.mapM ((Field.relationship link).readItem operator) =
      .ok (labels.strip.listItems.map .text) :=
    Field.mapM_readItem_of_texts (fun _ => rfl) _
  have hfield := Field.ofToken_name link
  rw [read_of_clause h (by rw [hfield]; exact hallows)]
  simp only [hfield]
  rw [Value.read_list rfl, hitems]
  split <;> rfl

/-- A filter that tests linked records for labels. -/
theorem Settings.parse_linked (link : Link) (hlabels : labels.IsOperand spelling)
    (hallows : FieldKind.relationship.allows operator) :
    (unlimited spelling).parse (Clause.written ⟨link.name, operator, labels⟩) =
      if operator ≠ .exists ∧ labels.strip.listItems = [] then
        .error (.malformed labels .missingValue)
      else .ok (.leaf (.linked link operator labels.strip.listItems)) := by
  have hname : link.name.IsSegment spelling ∧ '(' ∉ link.name ∧ Operator.find? link.name = none := by
    refine ⟨Text.segments_self_iff.1 ?_, ?_, ?_⟩
    · cases spelling <;> cases link <;> decide +kernel
    · cases link <;> decide
    · cases link <;> decide +kernel
  rcases hname with ⟨hsegment, hopen, hnone⟩
  have hclause : Clause.read (Clause.written ⟨link.name, operator, labels⟩) =
      .ok ⟨link.name, operator, labels⟩ :=
    Clause.read_written hsegment hlabels.isSegment (Operator.find?_eq_none_iff.1 hnone)
      hlabels.not_standsIn
  rw [parse_of_isAtom (Clause.isAtom_written hsegment hopen hlabels.isSegment),
    Condition.read_linked link hclause hallows, hlabels.isSegment.tight.trim_eq]
  split <;> rfl

/-! ## Testing -/

/-- The test of linked records is that of the labels that a listing has. -/
theorem Matcher.ofTree_linked (link : Link) (operator : Operator) (labels : List Text)
    {membership : Membership}
    (h : Membership.of? (.linked link operator labels) = some membership) :
    ofTree (.leaf (.linked link operator labels)) =
      .ok fun listing => membership.holds (listing.labels link) labels := by
  have hprobe : Probe.of (.linked link operator labels) = .ok (.linked link membership labels) := by
    have hlabels := Value.labels_texts labels
    simp only [Condition.linked] at h ⊢
    simp [Probe.of, h, hlabels]
  rw [ofTree_leaf, hprobe]
  rfl

/-- The filter is read and compiled to the test. -/
def Settings.Compiles (settings : Settings) (text : Text) (matcher : Matcher) : Prop :=
  ∃ tree, settings.parse text = .ok tree ∧ Matcher.ofTree tree = .ok matcher

/-- A test of linked records for labels is compiled, if there are labels or they do not matter. -/
theorem Settings.compiles_linked (link : Link) (hlabels : labels.IsOperand spelling)
    (hallows : FieldKind.relationship.allows operator)
    (hitems : operator = .exists ∨ labels.strip.listItems ≠ []) {membership : Membership}
    (h : Membership.of? (.linked link operator labels.strip.listItems) = some membership) :
    (unlimited spelling).Compiles (Clause.written ⟨link.name, operator, labels⟩)
      fun listing => membership.holds (listing.labels link) labels.strip.listItems := by
  refine ⟨_, ?_, Matcher.ofTree_linked link operator _ h⟩
  rw [parse_linked link hlabels hallows, if_neg fun hnone => hitems.elim hnone.1 (absurd hnone.2)]

/-- A test for any linked record, with no labels written. -/
theorem Settings.compiles_exists (spelling : Spelling) (link : Link) :
    (unlimited spelling).Compiles (link.name ++ " EXISTS".toList)
      fun listing => !(listing.labels link).isEmpty := by
  have hparse : (unlimited spelling).parse (link.name ++ " EXISTS".toList) =
      .ok (.leaf (.linked link .exists [])) := by
    cases spelling <;> cases link <;> decide +kernel
  exact ⟨_, hparse, Matcher.ofTree_linked link .exists [] rfl⟩

/-- The tests of linked records for one text of labels are all refused, since there is no label in
it, or all compiled. Then equality, `IS_ANY` and `HAS_ANY` pass the listings that have one of the
labels, inequality passes the others, and `EXISTS` passes those that have any label, with labels
written behind it or not. -/
theorem Settings.parse_memberships (link : Link) (hlabels : labels.IsOperand spelling) :
    (∀ operator ∈ Operator.labelTests,
      (unlimited spelling).parse (Clause.written ⟨link.name, operator, labels⟩) =
        .error (.malformed labels .missingValue)) ∨
    ∃ (test : Operator → Matcher) (linked : Matcher),
      (∀ operator ∈ .exists :: Operator.labelTests,
        (unlimited spelling).Compiles (Clause.written ⟨link.name, operator, labels⟩)
          (test operator)) ∧
      (unlimited spelling).Compiles (link.name ++ " EXISTS".toList) linked ∧
      ∀ listing,
        test .isAny listing = test .equal listing ∧
        test .hasAny listing = test .equal listing ∧
        test .notEqual listing = !test .equal listing ∧
        (test .equal listing → linked listing) ∧
        test .exists listing = linked listing ∧
        (test .equal listing ↔
          ∃ label ∈ listing.labels link, ∃ piece ∈ labels.strip.pieces ',',
            ¬ piece.isBlank ∧ piece.trim = label) := by
  have hallows : ∀ operator ∈ .exists :: Operator.labelTests,
      FieldKind.relationship.allows operator := by
    decide
  by_cases hitems : labels.strip.listItems = []
  · left
    intro operator hoperator
    have hexists : operator ≠ .exists := by
      rintro rfl
      exact absurd hoperator (by decide)
    rw [parse_linked link hlabels (hallows operator (List.mem_cons_of_mem _ hoperator)),
      if_pos ⟨hexists, hitems⟩]
  · right
    -- what the operators ask for
    let test (operator : Operator) : Matcher := fun listing =>
      (Membership.of? (.linked link operator labels.strip.listItems)).any fun membership =>
        membership.holds (listing.labels link) labels.strip.listItems
    refine ⟨test, _, ?_, compiles_exists spelling link, ?_⟩
    · intro operator hoperator
      have hallowed := hallows operator hoperator
      simp only [Operator.labelTests, List.mem_cons, List.not_mem_nil, or_false] at hoperator
      rcases hoperator with rfl | rfl | rfl | rfl | rfl
      all_goals exact compiles_linked link hlabels hallowed (.inr hitems) rfl
    · intro listing
      have hequal : test .equal listing ↔ ∃ label ∈ listing.labels link,
          label ∈ labels.strip.listItems := by
        show (Membership.anyOf false).holds (listing.labels link) labels.strip.listItems ↔ _
        exact Matcher.holds_iff
      refine ⟨rfl, rfl, rfl, ?_, rfl, ?_⟩
      · intro hpasses
        rcases hequal.1 hpasses with ⟨label, hlabel, -⟩
        simpa using List.ne_nil_of_mem hlabel
      · simpa only [Text.mem_listItems_iff] using hequal

/-- Labels with an empty one between them and parentheses of their own. -/
theorem Settings.parse_memberships_nested :
    ∃ test : Operator → Matcher,
      (∀ operator ∈ .exists :: Operator.labelTests,
        (unlimited .anyCase).Compiles
          (Clause.written ⟨"languages".toList, operator, "(Go, , C (ISO))".toList⟩)
          (test operator)) ∧
      test .hasAny { languages := ["C (ISO)".toList] } = true ∧
      test .notEqual {} = true := by
  have hlabels : Text.IsOperand .anyCase "(Go, , C (ISO))".toList := by
    decide +kernel
  rcases parse_memberships .languages hlabels with hrefused | ⟨test, linked, htests, -, hmeaning⟩
  · have hnone := hrefused .equal (by decide)
    have hparse : (unlimited .anyCase).parse
        (Clause.written ⟨"languages".toList, .equal, "(Go, , C (ISO))".toList⟩) =
        .ok (.leaf (.linked .languages .equal ["Go".toList, "C (ISO)".toList])) := by
      decide +kernel
    exact absurd (hparse.symm.trans hnone) nofun
  · refine ⟨test, htests, ?_, ?_⟩
    · rcases hmeaning { languages := ["C (ISO)".toList] } with ⟨-, hany, -, -, -, hequal⟩
      rw [hany]
      exact hequal.2 ⟨_, List.mem_singleton.2 rfl, " C (ISO)".toList, by decide, by decide,
        by decide⟩
    · rcases hmeaning {} with ⟨-, -, hnot, -, -, hequal⟩
      have hnone : test .equal {} = false := by
        rw [← Bool.not_eq_true, hequal]
        rintro ⟨label, hlabel, -⟩
        cases hlabel
      rw [hnot, hnone]
      rfl

end ListingFilter
