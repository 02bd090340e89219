import ListingFilter.Proofs.Comparison
import ListingFilter.Proofs.Outcomes
import Mathlib.Data.List.SplitBy

/-!
# Denotation — what a tree says about a listing

`Tree.Holds` reads a tree as a query language does. The members of a group are cut into runs before
every member but the first that is joined by `OR`, and a group holds when all members of one of its
runs hold. A condition holds by the kind of its field: a column, the labels of linked records, or
the rows of a free attribute.

The main statement, `apply_iff_holds`, says that the test of a tree computes this.
-/

namespace ListingFilter

/-! ## Conditions -/

/-- A scalar of a listing meets a test: `LIKE` looks in it for the first scalar of the value, `IN`
asks for one equal to it, and a comparison compares it with the first. -/
def Scalar.Meets (actual : Scalar) (operator : Operator) (value : Value) : Prop :=
  match operator with
  | .like =>
    ∃ pattern, value.scalars.head? = some pattern ∧ pattern.written.lower <:+: actual.written.lower
  | .isIn => ∃ expected ∈ value.scalars, actual.Alike expected
  | operator => ∃ expected, value.scalars.head? = some expected ∧ operator.Relates actual expected

/-- A stored text and the first scalar of the value, both read as finite numbers, stand as the
comparison operator says. -/
def Text.MeetsAsNumber (stored : Text) (operator : Operator) (value : Value) : Prop :=
  ∃ (actual expected : Number) (content : Text), Number.ofText? stored = some actual ∧
    value.scalars.head? = some (.text content) ∧ Number.ofText? content = some expected ∧
    operator.Relates (.number actual) (.number expected)

/-- The listing meets the condition. A column without a value meets none. -/
def Condition.Holds (listing : Listing) (condition : Condition) : Prop :=
  match condition.field with
  | .standard name =>
    ∃ column actual, Column.name column = name ∧ listing.value? column = some actual ∧
      actual.Meets condition.operator condition.value
  | .relationship link =>
    match condition.operator with
    | .equal | .isAny | .hasAny => ∃ label ∈ listing.labels link, label ∈ condition.value.labels
    | .notEqual => ¬ ∃ label ∈ listing.labels link, label ∈ condition.value.labels
    | .exists => ∃ label, label ∈ listing.labels link
    | _ => False
  | .attribute name =>
    ∃ row ∈ listing.attributes, row.name = name ∧
      if condition.proviso = some .numericCast then
        row.value.MeetsAsNumber condition.operator condition.value
      else (Scalar.text row.value).Meets condition.operator condition.value

/-! ## Trees -/

/-- The members cut before every one but the first that is joined by `OR`. -/
def Tree.runs (members : List Member) : List (List Member) :=
  members.splitBy fun _ next => next.1 != some .or

/-- The listing passes: it meets the condition, or all members of one run of the group. -/
inductive Tree.Holds (listing : Listing) : Tree → Prop where
  | leaf {condition : Condition} : condition.Holds listing → Holds listing (.leaf condition)
  | group {members run : List Member} :
      run ∈ runs members → (∀ member ∈ run, Holds listing member.2) →
      Holds listing (.group members)

theorem Tree.holds_leaf_iff {listing : Listing} {condition : Condition} :
    (Tree.leaf condition).Holds listing ↔ condition.Holds listing := by
  constructor
  · intro h
    cases h with
    | leaf h => exact h
  · exact .leaf

theorem Tree.holds_group_iff {listing : Listing} {members : List Member} :
    (Tree.group members).Holds listing ↔
      ∃ run ∈ runs members, ∀ member ∈ run, member.2.Holds listing := by
  constructor
  · intro h
    cases h with
    | group hrun hall => exact ⟨_, hrun, hall⟩
  · rintro ⟨run, hrun, hall⟩
    exact .group hrun hall

namespace Matcher

/-! ## The test of a condition -/

theorem passes_iff {actual : Scalar} {operator : Operator} {value : Value} :
    actual.passes operator value ↔ actual.Meets operator value := by
  cases operator <;> simp [Scalar.passes, Scalar.Meets, Scalar.resembles, Text.occursIn_iff,
    Scalar.compares_iff, Option.any_eq_true, Operator.Relates]

theorem passesAsNumber_iff {stored : Text} {operator : Operator} {value : Value} :
    passesAsNumber stored operator value ↔ stored.MeetsAsNumber operator value := by
  rw [passesAsNumber, Text.MeetsAsNumber]
  cases hstored : Number.ofText? stored with
  | none => simp
  | some actual =>
    cases hhead : value.scalars.head? with
    | none => simp
    | some scalar =>
      cases scalar with
      | text content =>
        simp only [Option.bind_some, Scalar.asText?, Option.any_eq_true, Scalar.compares_iff]
        constructor
        · rintro ⟨expected, hexpected, hrelates⟩
          exact ⟨actual, expected, content, rfl, rfl, hexpected, hrelates⟩
        · rintro ⟨_, expected, _, ⟨⟩, ⟨⟩, hexpected, hrelates⟩
          exact ⟨expected, hexpected, hrelates⟩
      | number value => simp [Scalar.asText?]
      | boolean flag => simp [Scalar.asText?]
      | instant value => simp [Scalar.asText?]

theorem holds_iff {membership : Membership} {linked listed : List Text} :
    membership.holds linked listed ↔
      match membership with
      | .anyOf _ => ∃ label ∈ linked, label ∈ listed
      | .noneOf => ¬ ∃ label ∈ linked, label ∈ listed
      | .exists => ∃ label, label ∈ linked := by
  cases membership with
  | anyOf countGuard => simp [Membership.holds]
  | noneOf => simp [Membership.holds]
  | «exists» =>
    cases linked <;> simp [Membership.holds]

/-- The test of a condition. -/
theorem leaf_apply_iff {condition : Condition} {matcher : Matcher}
    (h : ofTree (.leaf condition) = .ok matcher) (listing : Listing) :
    matcher listing ↔ condition.Holds listing := by
  rcases condition with ⟨field, operator, value, proviso⟩
  rw [ofTree_leaf] at h
  cases field with
  | standard name =>
    simp only [Probe.of, Except.bind, ofProbe] at h
    cases hcolumn : Column.ofName? name with
    | none =>
      rw [hcolumn] at h
      cases h
    | some column =>
      rw [hcolumn] at h
      cases h
      simp only [Condition.Holds, Option.any_eq_true, passes_iff]
      constructor
      · rintro ⟨actual, hactual, hmeets⟩
        exact ⟨column, actual, Column.name_of_ofName? hcolumn, hactual, hmeets⟩
      · rintro ⟨other, actual, hother, hactual, hmeets⟩
        rw [← hother, Column.ofName?_name, Option.some.injEq] at hcolumn
        exact ⟨actual, hcolumn ▸ hactual, hmeets⟩
  | relationship link =>
    -- only the membership operators have a test
    cases operator <;> cases h <;> simp only [Condition.Holds, holds_iff]
  | «attribute» name =>
    cases h
    simp only [Condition.Holds, List.any_eq_true, Bool.and_eq_true, beq_iff_eq,
      AttributeRow.passes, Condition.has]
    refine exists_congr fun row => and_congr_right fun _ => and_congr_right fun _ => ?_
    by_cases hcast : proviso = some .numericCast
    · simp [hcast, passesAsNumber_iff]
    · simp [hcast, passes_iff]

/-! ## The test of a group -/

/-- The query stands behind the connective of the member and tests what the member says. -/
def Tests (listing : Listing) (member : Member) (query : Connective × Matcher) : Prop :=
  query.1 = member.1.getD .and ∧ (query.2 listing ↔ member.2.Holds listing)

/-- The queries of the members test what the members say, if those of each of them do. -/
theorem tests_of_ofMembers {listing : Listing} {members : List Member}
    {queries : List (Connective × Matcher)} (h : ofMembers members = .ok queries)
    (hmembers : ∀ member ∈ members, ∀ matcher, ofTree member.2 = .ok matcher →
      (matcher listing ↔ member.2.Holds listing)) :
    List.Forall₂ (Tests listing) members queries := by
  induction members generalizing queries with
  | nil =>
    cases h
    exact .nil
  | cons member members ih =>
    rcases member with ⟨joint, tree⟩
    unfold ofMembers at h
    simp only [bind_eq_ok_iff, pure_eq_ok_iff] at h
    rcases h with ⟨first, hfirst, rest, hrest, rfl⟩
    rw [List.forall_mem_cons] at hmembers
    exact .cons ⟨rfl, hmembers.1 first hfirst⟩ (ih hrest hmembers.2)

/-- A chain of tests holds when a run of the members does. The members of the run at hand are those
that the test `piece` stands for, and the other queries follow. -/
theorem join_apply_iff {listing : Listing} {run rest : List Member} {piece : Matcher}
    {queries : List (Connective × Matcher)} (hne : run ≠ [])
    (hrun : run.IsChain fun _ next => next.1 != some .or)
    (hpiece : piece listing ↔ ∀ member ∈ run, member.2.Holds listing)
    (hrest : List.Forall₂ (Tests listing) rest queries) :
    join piece queries listing ↔
      ∃ whole ∈ Tree.runs (run ++ rest), ∀ member ∈ whole, member.2.Holds listing := by
  induction hrest generalizing run piece with
  | nil =>
    rw [List.append_nil, Tree.runs, List.splitBy_of_isChain hne hrun, join, hpiece]
    simp
  | @cons member query rest queries htest _ ih =>
    rcases query with ⟨connective, next⟩
    rcases htest with ⟨rfl, hnext⟩
    by_cases hor : member.1 = some .or
    · -- another run begins
      have hcut : Tree.runs (run ++ member :: rest) = run :: Tree.runs ([member] ++ rest) := by
        rw [Tree.runs, List.splitBy_append_cons _ (by simp [hor]), List.splitBy_of_isChain hne hrun]
        rfl
      have hnextRun : next listing ↔ ∀ other ∈ [member], other.2.Holds listing := by
        simpa using hnext
      have hlater := ih (List.cons_ne_nil member []) (List.isChain_singleton member) hnextRun
      rw [hor, hcut, List.exists_mem_cons_iff]
      change (piece listing || join next queries listing) ↔ _
      rw [Bool.or_eq_true, hpiece, hlater]
    · -- the run goes on
      have hand : member.1.getD .and = .and := by
        cases hjoint : member.1 with
        | none => rfl
        | some connective =>
          cases connective with
          | and => rfl
          | or => exact absurd hjoint hor
      have hlonger : (run ++ [member]).IsChain fun _ next => next.1 != some .or :=
        List.isChain_append.2 ⟨hrun, List.isChain_singleton member, by simp [hor]⟩
      have hboth : piece.both next listing ↔
          ∀ other ∈ run ++ [member], other.2.Holds listing := by
        rw [List.forall_mem_append, List.forall_mem_singleton, ← hpiece, ← hnext]
        exact Bool.and_eq_true_iff
      have hlater := ih (by simp) hlonger hboth
      rw [List.append_assoc] at hlater
      rw [hand]
      exact hlater

end Matcher

/-- The test of a tree computes what the tree says. -/
theorem Matcher.apply_iff_holds {tree : Tree} {matcher : Matcher}
    (h : Matcher.ofTree tree = .ok matcher) (listing : Listing) :
    matcher listing = true ↔ tree.Holds listing := by
  induction tree using Tree.induction generalizing matcher with
  | leaf condition => rw [leaf_apply_iff h, Tree.holds_leaf_iff]
  | group members ih =>
    rw [ofTree_group] at h
    rw [Tree.holds_group_iff]
    cases hqueries : ofMembers members with
    | error fault =>
      rw [hqueries] at h
      cases h
    | ok queries =>
      have htests : List.Forall₂ (Tests listing) members queries :=
        tests_of_ofMembers hqueries fun member hmember matcher => ih member hmember
      rw [hqueries] at h
      cases htests with
      | nil => cases h
      | @cons member query members queries htest hrest =>
        cases h
        have hfirst : query.2 listing ↔ ∀ other ∈ [member], other.2.Holds listing := by
          simpa using htest.2
        exact join_apply_iff (List.cons_ne_nil member []) (List.isChain_singleton member) hfirst
          hrest

/-- The tree of `title = a OR title = b AND is_remote = true`. -/
def Tree.unparenthesized : Tree :=
  let test (column : Column) (expected : Scalar) : Tree :=
    .leaf ⟨.standard column.name, .equal, .single expected, none⟩
  .group [(none, test .title (.text "a".toList)), (some .or, test .title (.text "b".toList)),
    (some .and, test .isRemote (.boolean true))]

/-- `AND` binds tighter than `OR`: the first title needs no remote work, the second does. -/
theorem Matcher.apply_iff_holds_unparenthesized :
    Tree.unparenthesized.Holds { title := "a".toList } ∧
      ¬ Tree.unparenthesized.Holds { title := "b".toList } ∧
      Tree.unparenthesized.Holds { title := "b".toList, isRemote := true } := by
  refine ⟨?_, ?_, ?_⟩
  · exact (apply_iff_holds rfl _).1 (by decide)
  · exact fun h => absurd ((apply_iff_holds rfl _).2 h) (by decide)
  · exact (apply_iff_holds rfl _).1 (by decide)

end ListingFilter
