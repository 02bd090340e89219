import ListingFilter.Proofs.Alternatives
import ListingFilter.Proofs.Comparison

/-!
# Columns — comparing a column with a value

The type of a value comes from the name of its column, the type of what a listing stores from the
listing. The two agree (`Listing.type_of_value?`), so what is stored and what it is compared with are
always ordered, unless what is stored is not-a-number (`Scalar.exists_order`). The six comparisons
are then the six readings of that order.

The main statement is `Column.comparisons_trichotomous`.
-/

namespace ListingFilter

/-! ## Types -/

/-- What a listing stores in a column is of the type that the name of the column asks for. -/
theorem Listing.type_of_value? {listing : Listing} {column : Column} {actual : Scalar}
    (h : listing.value? column = some actual) : ScalarType.ofColumn column.name = actual.type := by
  cases column
  case title | description | companyName | isRemote | jobType | status =>
    cases h
    rfl
  all_goals
    -- a salary or an instant may be missing
    rcases Option.map_eq_some_iff.1 h with ⟨stored, -, rfl⟩
    rfl

/-- A number has a place on the line of all numbers, unless it is not-a-number. -/
theorem Number.exists_place {number : Number} (h : number ≠ .nan) :
    ∃ place, number.place? = some place := by
  cases number with
  | nan => exact absurd rfl h
  | signed negative rank rank_le => exact ⟨_, rfl⟩

/-- Scalars of one type are ordered, unless one of them is not-a-number. -/
theorem Scalar.exists_order {a b : Scalar} (htype : a.type = b.type) (ha : a ≠ .number .nan)
    (hb : b ≠ .number .nan) : ∃ order, a.compare? b = some order := by
  cases a <;> cases b <;> try cases htype
  case number.number a b =>
    rcases Number.exists_place (mt (congrArg Scalar.number) ha) with ⟨m, hm⟩
    rcases Number.exists_place (mt (congrArg Scalar.number) hb) with ⟨n, hn⟩
    exact ⟨compare m n, Number.compare?_eq_some_iff.2 ⟨m, n, hm, hn, rfl⟩⟩
  all_goals exact ⟨_, rfl⟩

/-- No number that is read is not-a-number. -/
theorem Scalar.ne_nan_of_read {name text : Text} {scalar : Scalar}
    (h : Scalar.read name text = .ok scalar) : scalar ≠ .number .nan := by
  rintro rfl
  exact absurd (Number.isFinite_of_ofText? (read_eq_ok_iff.1 h).2) nofun

/-! ## The six comparisons -/

namespace Operator

/-- The operators that compare a scalar with one other. -/
def comparisons : List Operator :=
  [.equal, .notEqual, .greater, .less, .greaterOrEqual, .lessOrEqual]

/-- The three comparisons of which one holds at a time. -/
def orders : List Operator :=
  [.less, .equal, .greater]

/-- The one of them that asks for this order. -/
def ofOrder : Ordering → Operator
  | .lt => .less
  | .eq => .equal
  | .gt => .greater

theorem accepts_iff_eq_ofOrder (order : Ordering) :
    ∀ operator ∈ orders, operator.accepts order ↔ operator = ofOrder order := by
  cases order <;> decide

theorem ofOrder_mem_orders (order : Ordering) : ofOrder order ∈ orders := by
  cases order <;> decide

end Operator

/-- Of less, equal and greater the listing passes exactly one, and each of the other three
comparisons exactly if it does not pass its opposite. -/
structure Matcher.Trichotomous (test : Operator → Matcher) (listing : Listing) : Prop where
  one : ∃! operator, operator ∈ Operator.orders ∧ test operator listing
  notEqual : test .notEqual listing = !test .equal listing
  greaterOrEqual : test .greaterOrEqual listing = !test .less listing
  lessOrEqual : test .lessOrEqual listing = !test .greater listing

/-- Tests that are the verdicts on one order are trichotomous. -/
theorem Matcher.trichotomous_of_order {test : Operator → Matcher} {listing : Listing}
    (order : Ordering) (h : ∀ operator, test operator listing = operator.accepts order) :
    Trichotomous test listing := by
  refine ⟨⟨.ofOrder order, ⟨Operator.ofOrder_mem_orders order, ?_⟩, ?_⟩, ?_, ?_, ?_⟩
  · rw [h]
    exact (Operator.accepts_iff_eq_ofOrder order _ (Operator.ofOrder_mem_orders order)).2 rfl
  · rintro operator ⟨hmem, hpasses⟩
    rw [h] at hpasses
    exact (Operator.accepts_iff_eq_ofOrder order operator hmem).1 hpasses
  · rw [h, h]
    rfl
  · rw [h, h]
    rfl
  · rw [h, h]
    rfl

/-- The test of a column compares what a listing stores in it with the value. -/
theorem Matcher.ofTree_comparison (column : Column) (expected : Scalar) {operator : Operator}
    (h : operator ∈ Operator.comparisons) :
    ofTree (.leaf (.plain (.standard column.name) operator (.single expected))) =
      .ok fun listing =>
        (listing.value? column).any fun actual => actual.compares operator expected := by
  rw [ofTree_leaf]
  simp only [Condition.plain, Probe.of, Except.bind, ofProbe, Column.ofName?_name]
  simp only [Operator.comparisons, List.mem_cons, List.not_mem_nil, or_false] at h
  rcases h with rfl | rfl | rfl | rfl | rfl | rfl <;> rfl

/-- All six comparisons of a column read the text of their value in the same way. -/
theorem Value.read_comparison (column : Column) (text : Text) {operator : Operator}
    (h : operator ∈ Operator.comparisons) :
    Value.read text (.standard column.name) operator =
      if text.strip = [] then .error (.malformed text.trim .missingValue)
      else .single <$> Scalar.read column.name text.strip := by
  simp only [Operator.comparisons, List.mem_cons, List.not_mem_nil, or_false] at h
  have hlist : ¬ (Field.standard column.name).takesList operator := by
    rcases h with rfl | rfl | rfl | rfl | rfl | rfl <;> exact Bool.false_ne_true
  have hlike : operator ≠ .like := by
    rcases h with rfl | rfl | rfl | rfl | rfl | rfl <;> decide
  have hexists : operator ≠ .exists := by
    rcases h with rfl | rfl | rfl | rfl | rfl | rfl <;> decide
  rw [Value.read_single hlist]
  simp only [ne_eq, hexists, not_false_iff, true_and, Field.readItem, if_neg hlike]

/-- The six comparisons of a column read the text of their value in the same way, refused or not. What
they read is a single scalar of the type that listings store in the column. A listing that stores
nothing there passes none of the comparisons; one that stores anything but not-a-number passes exactly
one of less, equal and greater, and the others as the opposites of these. -/
theorem Column.comparisons_trichotomous (column : Column) (text : Text) :
    (∀ operator ∈ Operator.comparisons, Value.read text (.standard column.name) operator =
      Value.read text (.standard column.name) .equal) ∧
    ∀ value, Value.read text (.standard column.name) .equal = .ok value →
      ∃ (expected : Scalar) (test : Operator → Matcher), value = .single expected ∧
        (∀ operator ∈ Operator.comparisons,
          Matcher.ofTree (.leaf (.plain (.standard column.name) operator value)) =
            .ok (test operator)) ∧
        (∀ listing, listing.value? column = none →
          ∀ operator ∈ Operator.comparisons, test operator listing = false) ∧
        ∀ listing actual, listing.value? column = some actual →
          expected.type = actual.type ∧
          (actual ≠ .number .nan → Matcher.Trichotomous test listing) := by
  constructor
  · intro operator hoperator
    rw [Value.read_comparison column text hoperator,
      Value.read_comparison column text List.mem_cons_self]
  · intro value hvalue
    rw [Value.read_comparison column text List.mem_cons_self, ite_error_eq_ok_iff,
      map_eq_ok_iff] at hvalue
    rcases hvalue with ⟨-, expected, hexpected, rfl⟩
    refine ⟨expected, _, rfl, fun operator => Matcher.ofTree_comparison column expected, ?_, ?_⟩
    · intro listing hnone operator _
      simp only [hnone, Option.any_none]
    · intro listing actual hactual
      have htype : actual.type = expected.type := by
        rw [← Listing.type_of_value? hactual, (Scalar.read_eq_ok_iff.1 hexpected).1]
      refine ⟨htype.symm, fun hnan => ?_⟩
      rcases Scalar.exists_order htype hnan (Scalar.ne_nan_of_read hexpected) with ⟨order, horder⟩
      apply Matcher.trichotomous_of_order order
      intro operator
      simp only [hactual, Option.any_some, Scalar.compares, horder]

/-- The first instant of a day, compared with one of a later day and with none. -/
theorem Column.comparisons_trichotomous_march :
    Value.read "2025-03-01".toList (.standard Column.publishedAt.name) .equal =
        .ok (.single (.instant ⟨1740787200, 0⟩)) ∧
      ∃ test : Operator → Matcher,
        (∀ operator ∈ Operator.comparisons,
          Matcher.ofTree (.leaf (.plain (.standard Column.publishedAt.name) operator
            (.single (.instant ⟨1740787200, 0⟩)))) = .ok (test operator)) ∧
        Matcher.Trichotomous test { publishedAt := some ⟨1741597200, 0⟩ } ∧
        test .notEqual {} = false := by
  have hmarch : Value.read "2025-03-01".toList (.standard Column.publishedAt.name) .equal =
      .ok (.single (.instant ⟨1740787200, 0⟩)) := by
    decide +kernel
  rcases (comparisons_trichotomous .publishedAt "2025-03-01".toList).2 _ hmarch with
    ⟨expected, test, -, htest, hnone, hsome⟩
  exact ⟨hmarch, test, htest, (hsome _ (.instant ⟨1741597200, 0⟩) rfl).2 nofun,
    hnone {} rfl .notEqual (by decide)⟩

end ListingFilter
