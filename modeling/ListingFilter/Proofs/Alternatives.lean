import ListingFilter.Proofs.Concatenation
import ListingFilter.Proofs.Phrases

/-!
# Alternatives — a list of values and a chain of conditions

`IN` with a list asks whether a stored value equals one of the items, and so does a chain of
equalities with `OR` between them. The two are read along different ways: the list is stripped, cut
at its commas and read item by item, the chain is cut at its connectives and read condition by
condition. Both read the same items from left to right, so they are refused with the same fault, and
what they are compiled to passes the same listings (`Settings.agree_alternatives`).
-/

namespace ListingFilter

/-! ## Chains of alternatives -/

namespace Chain

variable {α β ε : Type}

/-- The items with `OR` between them. -/
def alternatives (first : α) (rest : List α) : Chain α :=
  ⟨first, rest.map fun item => (.or, item)⟩

@[simp] theorem items_alternatives (first : α) (rest : List α) :
    (alternatives first rest).items = first :: rest := by
  simp [items, alternatives, Function.comp_def]

theorem traverse_alternatives (f : α → Except ε β) (first : α) (rest : List α) :
    (alternatives first rest).traverse f = do
      return alternatives (← f first) (← rest.mapM f) := by
  have hmember : ∀ item ∈ rest, (do return (.or, ← f item) : Except ε (Connective × β)) =
      (fun b => (.or, b)) <$> f item := by
    intro item _
    cases f item <;> rfl
  have hrest := (mapM_congr hmember).trans (mapM_map_eq _ _ _)
  simp only [traverse, alternatives, List.mapM_map, Function.comp_def, hrest]
  cases f first with
  | error fault => rfl
  | ok b => cases rest.mapM f <;> rfl

end Chain

/-- Segments with `OR` between them are a text with these segments. -/
theorem Text.segmented_alternatives {spelling : Spelling} {first : Text} {rest : List Text}
    (h : ∀ text ∈ first :: rest, text.IsSegment spelling) :
    Segmented spelling (" OR ".toList.intercalate (first :: rest))
      (Chain.alternatives first rest) := by
  induction rest generalizing first with
  | nil => simpa [Chain.alternatives] using (h first List.mem_cons_self).segmented
  | cons second rest ih =>
    rw [List.forall_mem_cons] at h
    have hjoined := (h.1.segmented.append_right isBlank_blank).join (endsApart_append_blank first)
      (spelling.accepts_self Connective.or.keyword) (beginsApart_blank_append _)
      ((ih h.2).append_left isBlank_blank)
    have htext : " OR ".toList.intercalate (first :: second :: rest) =
        first ++ [' '] ++ Connective.or.keyword ++
          ([' '] ++ " OR ".toList.intercalate (second :: rest)) := by
      simp [List.intercalate_cons_cons, Connective.keyword]
    rw [htext]
    exact hjoined

/-- One of the tests has to hold. -/
theorem Matcher.joined_alternatives {α : Type} (test : α → Matcher) (first : α) (rest : List α)
    (listing : Listing) :
    joined (Chain.alternatives (test first) (rest.map test)) listing =
      (first :: rest).any fun item => test item listing := by
  induction rest generalizing first with
  | nil => simp [joined, Chain.alternatives, join]
  | cons second rest ih =>
    show (test first listing ||
      joined (Chain.alternatives (test second) (rest.map test)) listing) = _
    rw [ih]
    rfl

/-! ## Reading -/

/-- The token of a column or a free attribute that stands apart from an operator behind it. -/
structure Text.IsPlainField (spelling : Spelling) (token : Text) : Prop where
  /-- The token names no kind of linked records. -/
  not_linked : ∀ link, Field.ofToken token ≠ .relationship link
  /-- The token has no parentheses. -/
  no_parenthesis : '(' ∉ token ∧ ')' ∉ token
  /-- No operator stands alone in it. -/
  no_operator : ∀ operator : Operator, ¬ operator.StandsIn token
  /-- The token is its own only segment, so it is tight and not empty. -/
  segments : token.segments spelling = .ok ⟨token, []⟩

/-- A text that can be an item of a list and the value of an equality. -/
structure Text.IsAlternative (spelling : Spelling) (item : Text) : Prop
    extends item.IsOperand spelling where
  no_comma : ',' ∉ item
  no_parenthesis : '(' ∉ item ∧ ')' ∉ item

variable {spelling : Spelling} {token first : Text} {rest : List Text}

/-- The condition of a field that is not linked, without anything beyond its plain comparison. -/
def Condition.plain (field : Field) (operator : Operator) (value : Value) : Condition :=
  ⟨field, operator, value, none⟩

/-- Equality with one scalar. -/
def Tree.equality (field : Field) (scalar : Scalar) : Tree :=
  .leaf (.plain field .equal (.single scalar))

/-- Equality and `IN` need nothing beyond the plain comparison. -/
theorem Condition.read_plain {text value : Text} {operator : Operator}
    (h : Clause.read text = .ok ⟨token, operator, value⟩)
    (hlinked : ∀ link, Field.ofToken token ≠ .relationship link)
    (hoperator : operator = .equal ∨ operator = .isIn) :
    Condition.read text =
      Condition.plain (Field.ofToken token) operator <$>
        Value.read value (Field.ofToken token) operator := by
  have hallows : (Field.ofToken token).kind.allows operator := by
    cases hfield : Field.ofToken token with
    | relationship link => exact absurd hfield (hlinked link)
    | standard name => rcases hoperator with rfl | rfl <;> rfl
    | «attribute» name => rcases hoperator with rfl | rfl <;> rfl
  have hproviso : ∀ value, Proviso.find? (Field.ofToken token) operator value = .ok none := by
    intro value
    cases hfield : Field.ofToken token with
    | relationship link => exact absurd hfield (hlinked link)
    | standard name => rfl
    | «attribute» name => rcases hoperator with rfl | rfl <;> rfl
  rw [read_of_clause h hallows]
  simp only [hproviso]
  cases Value.read value (Field.ofToken token) operator <;> rfl

namespace Text

theorem IsAlternative.strip_eq {item : Text} (h : item.IsAlternative spelling) :
    item.strip = item := by
  refine h.isSegment.tight.strip_eq (enclosed?_eq_none_iff.2 ?_)
  intro inner _ hgroup
  exact h.no_parenthesis.1 (by simp [hgroup])

theorem IsAlternative.isItem {item : Text} (h : item.IsAlternative spelling) : item.IsItem :=
  ⟨h.isSegment.ne_nil, h.isSegment.tight, h.no_comma⟩

/-- Items in parentheses are a segment that is read as a list of these items, and no operator stands
in it. -/
theorem isSegment_alternatives (h : ∀ item ∈ first :: rest, item.IsAlternative spelling) :
    IsSegment spelling ('(' :: [','].intercalate (first :: rest) ++ [')']) ∧
      Text.listItems (strip ('(' :: [','].intercalate (first :: rest) ++ [')'])) = first :: rest ∧
      ∀ operator : Operator,
        ¬ operator.StandsIn ('(' :: [','].intercalate (first :: rest) ++ [')']) := by
  have hbalanced : Balanced ([','].intercalate (first :: rest)) := by
    apply balanced_of_parentheses
    rw [parentheses_intercalate, List.flatMap_eq_nil_iff]
    exact fun item hitem => parentheses_eq_nil_of_not_mem (h item hitem).no_parenthesis
  have hitems : ∀ item ∈ first :: rest, item.IsItem := fun item hitem => (h item hitem).isItem
  refine ⟨hbalanced.isSegment_group spelling, ?_, ?_⟩
  · rw [hbalanced.strip_group, (tight_intercalate hitems).trim_eq, listItems_intercalate hitems]
  · intro operator
    rw [List.cons_append, Operator.standsIn_cons_gap_iff (Operator.gap_open.ignores _),
      Operator.standsIn_append_gap_iff (Operator.gap_close.ignores _),
      Operator.standsIn_intercalate_iff (Operator.gap_comma.ignores _)]
    rintro ⟨item, hitem, hstands⟩
    exact (h item hitem).not_standsIn operator hstands

end Text

namespace Settings

/-- Equality with one item is read as the item is. -/
theorem isAtom_and_read_equality (hfield : token.IsPlainField spelling) {item : Text}
    (hitem : item.IsAlternative spelling) :
    (Clause.written ⟨token, .equal, item⟩).IsAtom spelling ∧
      Condition.read (Clause.written ⟨token, .equal, item⟩) =
        (fun scalar => .plain (Field.ofToken token) .equal (.single scalar)) <$>
          (Field.ofToken token).readItem .equal item := by
  have htoken := Text.segments_self_iff.1 hfield.segments
  have hlist : ¬ (Field.ofToken token).takesList .equal := by
    cases hkind : Field.ofToken token with
    | relationship link => exact absurd hkind (hfield.not_linked link)
    | standard name => exact Bool.false_ne_true
    | «attribute» name => exact Bool.false_ne_true
  refine ⟨Clause.isAtom_written htoken hfield.no_parenthesis.1 hitem.isSegment, ?_⟩
  rw [Condition.read_plain (Clause.read_written htoken hitem.isSegment hfield.no_operator
    hitem.not_standsIn) hfield.not_linked (.inl rfl), Value.read_single hlist, hitem.strip_eq,
    if_neg fun hempty => hitem.isSegment.ne_nil hempty.2]
  cases (Field.ofToken token).readItem .equal item <;> rfl

/-- `IN` with a list reads the items as equality does. -/
theorem parse_isIn (hfield : token.IsPlainField spelling)
    (hitems : ∀ item ∈ first :: rest, item.IsAlternative spelling) :
    (unlimited spelling).parse
        (Clause.written ⟨token, .isIn, '(' :: [','].intercalate (first :: rest) ++ [')']⟩) =
      (fun scalars => .leaf (.plain (Field.ofToken token) .isIn (.list scalars))) <$>
        (first :: rest).mapM ((Field.ofToken token).readItem .equal) := by
  have htoken := Text.segments_self_iff.1 hfield.segments
  rcases Text.isSegment_alternatives hitems with ⟨hsegment, hlistItems, hnone⟩
  have hlist : (Field.ofToken token).takesList .isIn := by
    cases Field.ofToken token <;> rfl
  have hread : (Field.ofToken token).readItem .isIn = (Field.ofToken token).readItem .equal := by
    cases Field.ofToken token <;> rfl
  rw [parse_of_isAtom (Clause.isAtom_written htoken hfield.no_parenthesis.1 hsegment),
    Condition.read_plain (Clause.read_written htoken hsegment hfield.no_operator hnone)
      hfield.not_linked (.inr rfl), Value.read_list hlist, hlistItems, hread,
    if_neg fun hempty => List.cons_ne_nil _ _ hempty.2]
  cases (first :: rest).mapM ((Field.ofToken token).readItem .equal) <;> rfl

/-- The chain of the equalities is read item by item. -/
theorem parse_equalities (hfield : token.IsPlainField spelling)
    (hitems : ∀ item ∈ first :: rest, item.IsAlternative spelling) :
    (unlimited spelling).parse (" OR ".toList.intercalate
        ((first :: rest).map fun item => Clause.written ⟨token, .equal, item⟩)) = do
      let scalar ← (Field.ofToken token).readItem .equal first
      let scalars ← rest.mapM ((Field.ofToken token).readItem .equal)
      return Tree.ofChain (Chain.alternatives (.equality (Field.ofToken token) scalar)
        (scalars.map (.equality (Field.ofToken token)))) := by
  have hatoms : ∀ text ∈ (first :: rest).map fun item => Clause.written ⟨token, .equal, item⟩,
      text.IsAtom spelling := by
    intro text htext
    rcases List.mem_map.1 htext with ⟨item, hitem, rfl⟩
    exact (isAtom_and_read_equality hfield (hitems item hitem)).1
  have hread : ∀ item ∈ first :: rest,
      Tree.leaf <$> Condition.read (Clause.written ⟨token, .equal, item⟩) =
        Tree.equality (Field.ofToken token) <$> (Field.ofToken token).readItem .equal item := by
    intro item hitem
    rw [(isAtom_and_read_equality hfield (hitems item hitem)).2]
    cases (Field.ofToken token).readItem .equal item <;> rfl
  have hrest : (rest.map fun item => Clause.written ⟨token, .equal, item⟩).mapM
      (fun text => Tree.leaf <$> Condition.read text) =
        List.map (Tree.equality (Field.ofToken token)) <$>
          rest.mapM ((Field.ofToken token).readItem .equal) := by
    rw [List.mapM_map, ← mapM_map_eq]
    exact mapM_congr fun item hitem => hread item (List.mem_cons_of_mem _ hitem)
  rw [List.map_cons] at hatoms ⊢
  rw [parse_of_atoms (Text.segmented_alternatives fun text htext => (hatoms text htext).toIsSegment)
    (by simpa using hatoms), Chain.traverse_alternatives, hread first List.mem_cons_self, hrest]
  cases (Field.ofToken token).readItem .equal first with
  | error fault => rfl
  | ok scalar => cases rest.mapM ((Field.ofToken token).readItem .equal) <;> rfl

end Settings

/-! ## Testing -/

namespace Matcher

/-- Of a field that is not linked, either no condition can be tested, or all of them are tests of the
scalars that a listing has stored for the field. -/
theorem ofTree_plain {field : Field} (hlinked : ∀ link, field ≠ .relationship link) :
    (∃ fault, ∀ operator value, ofTree (.leaf (.plain field operator value)) = .error fault) ∨
      ∃ stored : Listing → List Scalar, ∀ operator value,
        ofTree (.leaf (.plain field operator value)) =
          .ok fun listing => (stored listing).any fun actual => actual.passes operator value := by
  cases field with
  | relationship link => exact absurd rfl (hlinked link)
  | standard name =>
    cases hcolumn : Column.ofName? name with
    | none =>
      refine .inl ⟨.unknownColumn name, fun operator value => ?_⟩
      rw [ofTree_leaf]
      simp [Condition.plain, Probe.of, Except.bind, ofProbe, hcolumn]
    | some column =>
      refine .inr ⟨fun listing => (listing.value? column).toList, fun operator value => ?_⟩
      rw [ofTree_leaf]
      simp only [Condition.plain, Probe.of, Except.bind, ofProbe, hcolumn, Except.ok.injEq]
      funext listing
      cases listing.value? column <;> simp
  | «attribute» name =>
    refine .inr ⟨fun listing => (listing.attributes.filter fun row => row.name == name).map
      fun row => .text row.value, fun operator value => ?_⟩
    rw [ofTree_leaf]
    simp only [Condition.plain, Probe.of, Except.bind, ofProbe, Except.ok.injEq]
    funext listing
    rw [List.any_map, List.any_filter]
    rfl

/-- One of the stored scalars equals the expected one. -/
def stores (stored : Listing → List Scalar) (expected : Scalar) : Matcher :=
  fun listing => (stored listing).any fun actual => actual.compares .equal expected

/-- One of the stored scalars is among the expected ones if one of these is stored. -/
theorem any_passes_isIn (stored : Listing → List Scalar) (scalars : List Scalar)
    (listing : Listing) :
    ((stored listing).any fun actual => actual.passes .isIn (.list scalars)) =
      scalars.any fun expected => stores stored expected listing := by
  rw [Bool.eq_iff_iff]
  simp only [List.any_eq_true, Scalar.passes, Value.scalars, stores]
  constructor
  · rintro ⟨actual, hactual, expected, hexpected, hequal⟩
    exact ⟨expected, hexpected, actual, hactual, hequal⟩
  · rintro ⟨expected, hexpected, actual, hactual, hequal⟩
    exact ⟨actual, hactual, expected, hexpected, hequal⟩

/-- The chain of equalities is compiled to the chain of their tests. -/
theorem ofTree_equalities {field : Field} {test : Scalar → Matcher}
    (h : ∀ scalar, ofTree (.equality field scalar) = .ok (test scalar)) (scalar : Scalar)
    (scalars : List Scalar) :
    ofTree (Tree.ofChain (Chain.alternatives (.equality field scalar)
        (scalars.map (.equality field)))) =
      .ok (joined (Chain.alternatives (test scalar) (scalars.map test))) := by
  have hrest : (scalars.map (.equality field)).mapM ofTree = .ok (scalars.map test) := by
    rw [List.mapM_map]
    exact (mapM_congr fun scalar _ => h scalar).trans List.mapM_pure
  rw [ofTree_ofChain, Chain.traverse_alternatives, h, hrest]
  rfl

end Matcher

/-- The two filters come to the same: they are refused with the same fault when they are read, or
when they are compiled, or they pass the same listings. -/
def Settings.Agree (settings : Settings) (text text' : Text) : Prop :=
  (∃ fault, settings.parse text = .error fault ∧ settings.parse text' = .error fault) ∨
  ∃ tree tree', settings.parse text = .ok tree ∧ settings.parse text' = .ok tree' ∧
    ((∃ fault, Matcher.ofTree tree = .error fault ∧ Matcher.ofTree tree' = .error fault) ∨
      ∃ matcher matcher', Matcher.ofTree tree = .ok matcher ∧ Matcher.ofTree tree' = .ok matcher' ∧
        ∀ listing, matcher listing = matcher' listing)

/-- `IN` with a list comes to the same as the chain of the equalities with `OR` between them. -/
theorem Settings.agree_alternatives (hfield : token.IsPlainField spelling)
    (hitems : ∀ item ∈ first :: rest, item.IsAlternative spelling) :
    (unlimited spelling).Agree
      (Clause.written ⟨token, .isIn, '(' :: [','].intercalate (first :: rest) ++ [')']⟩)
      (" OR ".toList.intercalate
        ((first :: rest).map fun item => Clause.written ⟨token, .equal, item⟩)) := by
  unfold Agree
  rw [parse_isIn hfield hitems, parse_equalities hfield hitems, List.mapM_cons]
  -- both are refused with the fault of the leftmost item that has one
  cases (Field.ofToken token).readItem .equal first with
  | error fault => exact .inl ⟨fault, rfl, rfl⟩
  | ok scalar =>
    cases rest.mapM ((Field.ofToken token).readItem .equal) with
    | error fault => exact .inl ⟨fault, rfl, rfl⟩
    | ok scalars =>
      refine .inr ⟨_, _, rfl, rfl, ?_⟩
      rcases Matcher.ofTree_plain hfield.not_linked with ⟨fault, hfault⟩ | ⟨stored, hstored⟩
      · -- the column is unknown to both
        refine .inl ⟨fault, hfault _ _, ?_⟩
        rw [Matcher.ofTree_ofChain, Chain.traverse_alternatives, Tree.equality, hfault]
        rfl
      · have htest : ∀ scalar, Matcher.ofTree (.equality (Field.ofToken token) scalar) =
            .ok (Matcher.stores stored scalar) := fun scalar => hstored .equal (.single scalar)
        refine .inr ⟨_, _, hstored _ _, Matcher.ofTree_equalities htest scalar scalars, ?_⟩
        intro listing
        rw [Matcher.joined_alternatives, Matcher.any_passes_isIn]

/-- Two salaries, the second of them with a fraction. -/
theorem Settings.agree_alternatives_salaries :
    (unlimited .anyCase).Agree "salary_min IN (50000,60000.5)".toList
      "salary_min = 50000 OR salary_min = 60000.5".toList := by
  have hfield : Text.IsPlainField .anyCase "salary_min".toList := by
    refine ⟨?_, by decide, Operator.find?_eq_none_iff.1 (by decide +kernel), by decide +kernel⟩
    intro link hlink
    cases hlink
  have hitems : ∀ item ∈ "50000".toList :: ["60000.5".toList],
      Text.IsAlternative .anyCase item := by
    simp only [List.forall_mem_cons, List.not_mem_nil, false_implies, implies_true, and_true]
    exact ⟨⟨by decide +kernel, by decide, by decide⟩, ⟨by decide +kernel, by decide, by decide⟩⟩
  have hlist : "salary_min IN (50000,60000.5)".toList = Clause.written ⟨"salary_min".toList, .isIn,
      '(' :: [','].intercalate ["50000".toList, "60000.5".toList] ++ [')']⟩ := by
    decide
  have hchain : "salary_min = 50000 OR salary_min = 60000.5".toList = " OR ".toList.intercalate
      (["50000".toList, "60000.5".toList].map fun item =>
        Clause.written ⟨"salary_min".toList, .equal, item⟩) := by
    decide
  rw [hlist, hchain]
  exact agree_alternatives hfield hitems

end ListingFilter
