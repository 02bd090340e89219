import ListingFilter.Proofs.Columns
import ListingFilter.Proofs.WellFormed

/-!
# Orderings — free attributes compared as numbers

Rows of free attributes hold texts, and an ordering condition compares them as numbers. Of a listing
its test sees nothing but the places that the numbers in the rows of the attribute have on the line of
all numbers, and of the text it compares them with nothing but its place
(`Matcher.ofOrdering_eq`). So neither the spelling of a number matters, nor any row that holds no
number or belongs to another attribute, and the tests follow the order of the numbers.

The main statement is `Matcher.orderings_by_number`.
-/

namespace ListingFilter

/-! ## Numbers and texts -/

/-- The first number is less than the second, or equal to it. -/
def Number.AtMost (a b : Number) : Prop :=
  a.compare? b = some .lt ∨ a.compare? b = some .eq

/-- The place of the number that a text stands for. -/
def Text.place? (text : Text) : Option Int :=
  (Number.ofText? text).bind Number.place?

theorem Text.place?_of_ofText? {text : Text} {number : Number}
    (h : Number.ofText? text = some number) : text.place? = number.place? := by
  rw [place?, h, Option.bind_some]

theorem Text.place?_eq_none {text : Text} (h : Number.ofText? text = none) : text.place? = none := by
  rw [place?, h, Option.bind_none]

theorem Number.AtMost.exists_places {a b : Number} (h : a.AtMost b) :
    ∃ m n, a.place? = some m ∧ b.place? = some n ∧ m ≤ n := by
  rcases h with hlt | heq
  · rcases compare?_eq_some_iff.1 hlt with ⟨m, n, ha, hb, hplaces⟩
    exact ⟨m, n, ha, hb, Int.le_of_lt (Int.compare_eq_lt.1 hplaces)⟩
  · rcases compare?_eq_some_iff.1 heq with ⟨m, n, ha, hb, hplaces⟩
    exact ⟨m, n, ha, hb, Int.le_of_eq (Int.compare_eq_eq.1 hplaces)⟩

/-- Equal numbers have one place. -/
theorem Number.place?_eq_of_equals {a b : Number} (h : a.equals b) : a.place? = b.place? := by
  rw [equals, beq_iff_eq] at h
  rcases compare?_eq_some_iff.1 h with ⟨m, n, ha, hb, hplaces⟩
  rw [ha, hb, Int.compare_eq_eq.1 hplaces]

/-- Comparing two texts as numbers compares their places. -/
theorem passesAsNumber_eq (stored : Text) (operator : Operator) (bound : Text) :
    passesAsNumber stored operator (.single (.text bound)) =
      stored.place?.any fun m => bound.place?.any fun n => operator.accepts (compare m n) := by
  have hhead : (Value.single (.text bound)).scalars.head?.bind Scalar.asText? = some bound := rfl
  rw [passesAsNumber, hhead, Text.place?, Text.place?]
  cases Number.ofText? stored with
  | none => rfl
  | some actual =>
    show ((Number.ofText? bound).any fun expected =>
      (Scalar.number actual).compares operator (.number expected)) = _
    cases Number.ofText? bound with
    | none => cases hplace : actual.place? <;> simp [hplace]
    | some expected =>
      simp only [Option.any_some, Option.bind_some, Scalar.compares, Scalar.compare?, Number.compare?]
      cases actual.place? <;> cases expected.place? <;> rfl

/-! ## Rows -/

/-- The place of the number in a row of this attribute. -/
def AttributeRow.place? (row : AttributeRow) (name : Text) : Option Int :=
  if row.name = name then row.value.place? else none

/-- The places of the numbers in all rows of this attribute. -/
def Listing.places (listing : Listing) (name : Text) : List Int :=
  listing.attributes.filterMap (·.place? name)

namespace Matcher

/-- The test of an ordering condition on a free attribute. -/
def ofOrdering (name : Text) (operator : Operator) (bound : Text) : Matcher :=
  fun listing => listing.attributes.any fun row =>
    row.name == name && row.passes operator (.single (.text bound)) true

/-- The test sees only places. -/
theorem ofOrdering_eq (name : Text) (operator : Operator) (bound : Text) (listing : Listing) :
    ofOrdering name operator bound listing = (listing.places name).any fun m =>
      bound.place?.any fun n => operator.accepts (compare m n) := by
  rw [ofOrdering, Listing.places, List.any_filterMap]
  congr 1
  funext row
  rw [AttributeRow.place?]
  by_cases hname : row.name = name
  · have hpasses : row.passes operator (.single (.text bound)) true =
        passesAsNumber row.value operator (.single (.text bound)) := rfl
    rw [if_pos hname, hname, beq_self_eq_true, Bool.true_and, hpasses, passesAsNumber_eq]
    cases row.value.place? <;> rfl
  · simp [hname]

/-! ## The order of the tests -/

/-- What the ordering operators say of two places. -/
theorem accepts_compare_iff (m n : Int) :
    (Operator.greaterOrEqual.accepts (compare m n) ↔ n ≤ m) ∧
      (Operator.greater.accepts (compare m n) ↔ n < m) ∧
      (Operator.lessOrEqual.accepts (compare m n) ↔ m ≤ n) ∧
      (Operator.less.accepts (compare m n) ↔ m < n) := by
  rcases Int.lt_trichotomy m n with hlt | heq | hgt
  · simp [Operator.accepts, Int.compare_eq_lt.2 hlt]
    omega
  · simp [Operator.accepts, Int.compare_eq_eq.2 heq]
    omega
  · simp [Operator.accepts, Int.compare_eq_gt.2 hgt]
    omega

/-- One test passes wherever another does, if it accepts the places that the other accepts. -/
theorem ofOrdering_imp {name : Text} {first second : Operator} {low high : Text} {m n : Int}
    (hlow : low.place? = some m) (hhigh : high.place? = some n)
    (h : ∀ k : Int, first.accepts (compare k m) → second.accepts (compare k n)) {listing : Listing}
    (hpasses : ofOrdering name first low listing) : ofOrdering name second high listing := by
  rw [ofOrdering_eq, hlow, List.any_eq_true] at hpasses
  rcases hpasses with ⟨k, hk, haccepts⟩
  rw [ofOrdering_eq, hhigh, List.any_eq_true]
  exact ⟨k, hk, h k haccepts⟩

/-- Raising the bound lets no other listings pass the tests for greater numbers, and keeps all that
pass the tests for lesser ones. The strict tests let no others pass than the lax ones. -/
structure Graded (test : Operator → Text → Matcher) (low high : Text) (listing : Listing) :
    Prop where
  greaterOrEqual : test .greaterOrEqual high listing → test .greaterOrEqual low listing
  greater : test .greater high listing → test .greater low listing
  lessOrEqual : test .lessOrEqual low listing → test .lessOrEqual high listing
  less : test .less low listing → test .less high listing
  greaterOrEqual_of_greater : test .greater low listing → test .greaterOrEqual low listing
  lessOrEqual_of_less : test .less low listing → test .lessOrEqual low listing

theorem graded_ofOrdering (name : Text) {low high : Text} {m n : Int} (hlow : low.place? = some m)
    (hhigh : high.place? = some n) (hle : m ≤ n) (listing : Listing) :
    Graded (ofOrdering name) low high listing := by
  constructor
  case greaterOrEqual | greater =>
    apply ofOrdering_imp hhigh hlow
    intro k haccepts
    simp only [accepts_compare_iff] at haccepts ⊢
    omega
  case lessOrEqual | less =>
    apply ofOrdering_imp hlow hhigh
    intro k haccepts
    simp only [accepts_compare_iff] at haccepts ⊢
    omega
  case greaterOrEqual_of_greater | lessOrEqual_of_less =>
    apply ofOrdering_imp hlow hlow
    intro k haccepts
    simp only [accepts_compare_iff] at haccepts ⊢
    omega

/-- Every ordering condition on a free attribute in a tree that is read is tested in this way, against
a text that stands for a number. -/
theorem ofTree_ordering {settings : Settings} {text : Text} {tree : Tree}
    (h : settings.parse text = .ok tree) {condition : Condition}
    (hmem : condition ∈ tree.conditions) {name : Text} (hfield : condition.field = .attribute name)
    (hordering : condition.operator.isOrdering) :
    ∃ bound number, condition.value = .single (.text bound) ∧ Number.ofText? bound = some number ∧
      ofTree (.leaf condition) = .ok (ofOrdering name condition.operator bound) := by
  have hwell := (Settings.wellFormed_of_parse h).of_mem_conditions condition hmem
  have hcast := hwell.numericCast.2 ⟨⟨name, hfield⟩, hordering⟩
  rcases hwell.numeric hcast with ⟨bound, number, hvalue, hnumber, -⟩
  refine ⟨bound, number, hvalue, hnumber, ?_⟩
  have hprobe : Probe.of condition =
      .ok (.attribute name condition.operator (.single (.text bound)) true) := by
    simp [Probe.of, hfield, hvalue, Condition.has, hcast]
  rw [ofTree_leaf, hprobe]
  rfl

/-! ## Rows that make no difference -/

/-- A row of another attribute, or one that holds no number, does not matter. -/
theorem ofOrdering_erase_row {name : Text} {row : AttributeRow}
    (hrow : row.name ≠ name ∨ Number.ofText? row.value = none) (operator : Operator) (bound : Text)
    (listing : Listing) (before after : List AttributeRow) :
    ofOrdering name operator bound { listing with attributes := before ++ row :: after } =
      ofOrdering name operator bound { listing with attributes := before ++ after } := by
  have hplace : row.place? name = none := by
    rw [AttributeRow.place?]
    rcases hrow with hname | hvalue
    · exact if_neg hname
    · rw [Text.place?_eq_none hvalue, ite_self]
  simp only [ofOrdering_eq, Listing.places, List.filterMap_append, List.filterMap_cons, hplace]

/-- How a number in a row is spelled does not matter. -/
theorem ofOrdering_respell_row {name spelling spelling' : Text} {a b : Number}
    (ha : Number.ofText? spelling = some a) (hb : Number.ofText? spelling' = some b)
    (hequals : a.equals b) (operator : Operator) (bound other : Text) (listing : Listing)
    (before after : List AttributeRow) :
    ofOrdering name operator bound
        { listing with attributes := before ++ ⟨other, spelling⟩ :: after } =
      ofOrdering name operator bound
        { listing with attributes := before ++ ⟨other, spelling'⟩ :: after } := by
  have hplace : AttributeRow.place? ⟨other, spelling⟩ name =
      AttributeRow.place? ⟨other, spelling'⟩ name := by
    rw [AttributeRow.place?, AttributeRow.place?, Text.place?_of_ofText? ha,
      Text.place?_of_ofText? hb, Number.place?_eq_of_equals hequals]
  simp only [ofOrdering_eq, Listing.places, List.filterMap_append, List.filterMap_cons, hplace]

/-! ## The whole of it -/

/-- The test of an ordering condition on a free attribute, which every condition of this kind in a
tree that is read is tested by, depends on numbers only and respects their order. -/
theorem orderings_by_number (name : Text) :
    (∀ operator bound, ofProbe (.attribute name operator (.single (.text bound)) true) =
      .ok (ofOrdering name operator bound)) ∧
    (∀ settings text tree, Settings.parse settings text = .ok tree →
      ∀ condition ∈ tree.conditions, condition.field = .attribute name →
        condition.operator.isOrdering → ∃ bound number, condition.value = .single (.text bound) ∧
          Number.ofText? bound = some number ∧
          ofTree (.leaf condition) = .ok (ofOrdering name condition.operator bound)) ∧
    (∀ v w a b, Number.ofText? v = some a → Number.ofText? w = some b → a.AtMost b →
      ∀ listing, Graded (ofOrdering name) v w listing) ∧
    (∀ v w a b, Number.ofText? v = some a → Number.ofText? w = some b → a.equals b →
      ∀ operator listing,
        ofOrdering name operator v listing = ofOrdering name operator w listing) ∧
    ∀ operator bound (listing : Listing) (before after : List AttributeRow),
      (∀ row : AttributeRow, row.name ≠ name ∨ Number.ofText? row.value = none →
        ofOrdering name operator bound { listing with attributes := before ++ row :: after } =
          ofOrdering name operator bound { listing with attributes := before ++ after }) ∧
      ∀ other spelling spelling' a b, Number.ofText? spelling = some a →
        Number.ofText? spelling' = some b → a.equals b →
          ofOrdering name operator bound
              { listing with attributes := before ++ ⟨other, spelling⟩ :: after } =
            ofOrdering name operator bound
              { listing with attributes := before ++ ⟨other, spelling'⟩ :: after } := by
  refine ⟨fun operator bound => rfl, ?_, ?_, ?_, ?_⟩
  · intro settings text tree h condition hmem hfield hordering
    exact ofTree_ordering h hmem hfield hordering
  · intro v w a b hv hw hle listing
    rcases hle.exists_places with ⟨m, n, hm, hn, hplaces⟩
    rw [← Text.place?_of_ofText? hv] at hm
    rw [← Text.place?_of_ofText? hw] at hn
    exact graded_ofOrdering name hm hn hplaces listing
  · intro v w a b hv hw hequals operator listing
    have hplace : v.place? = w.place? := by
      rw [Text.place?_of_ofText? hv, Text.place?_of_ofText? hw, Number.place?_eq_of_equals hequals]
    rw [ofOrdering_eq, ofOrdering_eq, hplace]
  · intro operator bound listing before after
    constructor
    · intro row hrow
      exact ofOrdering_erase_row hrow operator bound listing before after
    · intro other spelling spelling' a b ha hb hequals
      exact ofOrdering_respell_row ha hb hequals operator bound other listing before after

/-- Seven years are at least seven, and so at least five, though `07` comes before `5` as a text. -/
theorem orderings_by_number_years :
    ofOrdering "years".toList .greaterOrEqual "7.0".toList
        { attributes := [⟨"years".toList, "n/a".toList⟩, ⟨"years".toList, "07".toList⟩] } ∧
      ofOrdering "years".toList .greaterOrEqual "5".toList
        { attributes := [⟨"years".toList, "n/a".toList⟩, ⟨"years".toList, "07".toList⟩] } := by
  have hfive : Number.ofText? "5".toList = some (.ofRank false 0x4014000000000000) := by
    decide +kernel
  have hseven : Number.ofText? "7.0".toList = some (.ofRank false 0x401c000000000000) := by
    decide +kernel
  have hpasses : ofOrdering "years".toList .greaterOrEqual "7.0".toList
      { attributes := [⟨"years".toList, "n/a".toList⟩, ⟨"years".toList, "07".toList⟩] } := by
    decide +kernel
  have hle : Number.AtMost (.ofRank false 0x4014000000000000) (.ofRank false 0x401c000000000000) :=
    .inl (by decide +kernel)
  have hgraded := (orderings_by_number "years".toList).2.2.1 _ _ _ _ hfive hseven hle
  exact ⟨hpasses, (hgraded _).greaterOrEqual hpasses⟩

end Matcher

end ListingFilter
