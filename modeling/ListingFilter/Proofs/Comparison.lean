import ListingFilter.Listing.Matcher
import Mathlib.Data.Char
import Mathlib.Order.Compare

/-!
# Comparison — which scalars come before which

`Less` and `Alike` say when one scalar comes before another and when the two are equal, type by
type: scalars of different types are neither, and so is not-a-number. The order that scalars are
compared by is this one (`compare?_eq_lt_iff`, `compare?_eq_gt_iff`, `compare?_eq_eq_iff`), and each
comparison operator asks for what it says (`compares_iff`).
-/

namespace ListingFilter

namespace Scalar

/-- The first scalar comes before the second. Texts are ordered as in a dictionary by the codes of
their characters, numbers by their value, and points in time by time. -/
inductive Less : Scalar → Scalar → Prop where
  | text {a b : Text} : a < b → Less (.text a) (.text b)
  | number {a b : Number} {m n : Int} : a.place? = some m → b.place? = some n → m < n →
      Less (.number a) (.number b)
  | boolean : Less (.boolean false) (.boolean true)
  | seconds {a b : Instant} : a.seconds < b.seconds → Less (.instant a) (.instant b)
  | nanos {a b : Instant} : a.seconds = b.seconds → a.nanos < b.nanos → Less (.instant a) (.instant b)

/-- The two scalars are equal, with numbers compared by their value. -/
inductive Alike : Scalar → Scalar → Prop where
  | text (a : Text) : Alike (.text a) (.text a)
  | number {a b : Number} {m : Int} : a.place? = some m → b.place? = some m →
      Alike (.number a) (.number b)
  | boolean (a : Bool) : Alike (.boolean a) (.boolean a)
  | instant (a : Instant) : Alike (.instant a) (.instant a)

end Scalar

/-! ## The order type by type -/

theorem Text.compare_eq_lt_iff {a b : Text} : compare a b = .lt ↔ a < b := by
  induction a generalizing b with
  | nil => cases b <;> simp [List.compare_nil_cons]
  | cons c a ih =>
    cases b with
    | nil => simp [List.compare_cons_nil]
    | cons d b =>
      rw [List.compare_cons_cons, Ordering.then_eq_lt, compare_lt_iff_lt, compare_eq_iff_eq, ih,
        List.cons_lt_cons_iff]

theorem Text.compare_eq_gt_iff {a b : Text} : compare a b = .gt ↔ b < a := by
  rw [Std.OrientedCmp.gt_iff_lt, compare_eq_lt_iff]

theorem Number.compare?_eq_some_iff {a b : Number} {order : Ordering} :
    a.compare? b = some order ↔
      ∃ m n, a.place? = some m ∧ b.place? = some n ∧ compare m n = order := by
  unfold compare?
  cases a.place? <;> cases b.place? <;> simp

theorem Instant.compare_eq_lt_iff {a b : Instant} :
    a.compare b = .lt ↔ a.seconds < b.seconds ∨ a.seconds = b.seconds ∧ a.nanos < b.nanos := by
  rw [compare, Ordering.then_eq_lt, Int.compare_eq_lt, Int.compare_eq_eq, Nat.compare_eq_lt]

theorem Instant.compare_eq_gt_iff {a b : Instant} :
    a.compare b = .gt ↔ b.seconds < a.seconds ∨ b.seconds = a.seconds ∧ b.nanos < a.nanos := by
  rw [compare, Ordering.then_eq_gt, Int.compare_eq_gt, Int.compare_eq_eq, Nat.compare_eq_gt,
    @eq_comm _ a.seconds]

theorem Instant.compare_eq_eq_iff {a b : Instant} : a.compare b = .eq ↔ a = b := by
  rw [compare, Ordering.then_eq_eq, Int.compare_eq_eq, Nat.compare_eq_eq]
  rcases a with ⟨seconds, nanos⟩
  rcases b with ⟨seconds', nanos'⟩
  simp

/-! ## The order of scalars -/

namespace Scalar

theorem compare?_eq_lt_iff {a b : Scalar} : a.compare? b = some .lt ↔ Less a b := by
  constructor
  · intro h
    cases a <;> cases b <;> try cases h
    case text.text a b => exact .text (Text.compare_eq_lt_iff.1 (Option.some.inj h))
    case number.number a b =>
      rcases Number.compare?_eq_some_iff.1 h with ⟨m, n, ha, hb, hlt⟩
      exact .number ha hb (Int.compare_eq_lt.1 hlt)
    case boolean.boolean a b =>
      cases a <;> cases b <;> try cases h
      exact .boolean
    case instant.instant a b =>
      rcases Instant.compare_eq_lt_iff.1 (Option.some.inj h) with hlt | ⟨heq, hlt⟩
      · exact .seconds hlt
      · exact .nanos heq hlt
  · intro h
    cases h with
    | text hlt => exact congrArg some (Text.compare_eq_lt_iff.2 hlt)
    | number ha hb hlt =>
      exact Number.compare?_eq_some_iff.2 ⟨_, _, ha, hb, Int.compare_eq_lt.2 hlt⟩
    | boolean => rfl
    | seconds hlt => exact congrArg some (Instant.compare_eq_lt_iff.2 (.inl hlt))
    | nanos heq hlt => exact congrArg some (Instant.compare_eq_lt_iff.2 (.inr ⟨heq, hlt⟩))

/-- What compares as greater compares as less the other way around. -/
theorem compare?_eq_gt_iff {a b : Scalar} : a.compare? b = some .gt ↔ Less b a := by
  rw [← compare?_eq_lt_iff]
  cases a <;> cases b
  case text.text a b =>
    simp only [compare?, Option.some.injEq, Text.compare_eq_gt_iff, Text.compare_eq_lt_iff]
  case number.number a b =>
    simp only [compare?, Number.compare?_eq_some_iff, Int.compare_eq_gt, Int.compare_eq_lt]
    constructor
    · rintro ⟨m, n, ha, hb, hlt⟩
      exact ⟨n, m, hb, ha, hlt⟩
    · rintro ⟨m, n, hb, ha, hlt⟩
      exact ⟨n, m, ha, hb, hlt⟩
  case boolean.boolean a b => cases a <;> cases b <;> decide
  case instant.instant a b =>
    simp only [compare?, Option.some.injEq, Instant.compare_eq_gt_iff, Instant.compare_eq_lt_iff]
  all_goals simp [compare?]

theorem compare?_eq_eq_iff {a b : Scalar} : a.compare? b = some .eq ↔ Alike a b := by
  constructor
  · intro h
    cases a <;> cases b <;> try cases h
    case text.text a b =>
      have heq : a = b := Std.compare_eq_iff_eq.1 (Option.some.inj h)
      rw [heq]
      exact .text b
    case number.number a b =>
      rcases Number.compare?_eq_some_iff.1 h with ⟨m, n, ha, hb, heq⟩
      rw [Int.compare_eq_eq.1 heq] at ha
      exact .number ha hb
    case boolean.boolean a b =>
      cases a <;> cases b <;> try cases h
      · exact .boolean false
      · exact .boolean true
    case instant.instant a b =>
      rw [Instant.compare_eq_eq_iff.1 (Option.some.inj h)]
      exact .instant b
  · intro h
    cases h with
    | text a => exact congrArg some (Std.compare_eq_iff_eq.2 rfl)
    | number ha hb => exact Number.compare?_eq_some_iff.2 ⟨_, _, ha, hb, Int.compare_eq_eq.2 rfl⟩
    | boolean a => cases a <;> rfl
    | instant a => exact congrArg some (Instant.compare_eq_eq_iff.2 rfl)

end Scalar

/-- The two scalars stand as the comparison operator says; the other operators say nothing. -/
def Operator.Relates (operator : Operator) (actual expected : Scalar) : Prop :=
  match operator with
  | .equal => actual.Alike expected
  | .notEqual => actual.Less expected ∨ expected.Less actual
  | .greater => expected.Less actual
  | .less => actual.Less expected
  | .greaterOrEqual => expected.Less actual ∨ actual.Alike expected
  | .lessOrEqual => actual.Less expected ∨ actual.Alike expected
  | .like | .isIn | .hasAny | .isAny | .exists => False

theorem Scalar.compares_iff {actual expected : Scalar} {operator : Operator} :
    actual.compares operator expected ↔ operator.Relates actual expected := by
  have horder : operator.Relates actual expected ↔
      ∃ order, actual.compare? expected = some order ∧ operator.accepts order := by
    cases operator <;> simp only [Operator.Relates, Operator.accepts, ← compare?_eq_eq_iff,
      ← compare?_eq_lt_iff (a := actual), ← compare?_eq_gt_iff (a := actual)] <;>
      cases actual.compare? expected with
      | none => simp
      | some order => cases order <;> simp
  rw [horder, compares]
  cases actual.compare? expected <;> simp

end ListingFilter
