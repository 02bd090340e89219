import ListingFilter.Proofs.Values

/-!
# Casts — the scalars of a column, written and read again

A column reads each of its scalars again from the written form, with one exception: an instant in a
year that is not written in four digits. Such an instant is written with the sign of its year, and no
form of an instant that has a `T` begins with one.
-/

namespace ListingFilter

namespace Scalar

variable {column text : Text} {scalar : Scalar}

/-- The written form of an instant is refused, if its year does not fit. -/
theorem read_written_of_not_yearFits (h : Scalar.read column text = .ok scalar)
    (hyear : ¬ scalar.YearFits) :
    Scalar.read column scalar.written = .error (.notInstant column scalar.written) := by
  cases scalar with
  | text content => exact absurd trivial hyear
  | number value => exact absurd trivial hyear
  | boolean flag => exact absurd trivial hyear
  | instant value =>
    have htype : ScalarType.ofColumn column = .instant := (read_eq_ok_iff.1 h).1
    have hnone : Instant.ofText? (instant value).written = none := Instant.ofText?_text_eq_none hyear
    simp only [Scalar.read, htype, hnone]

/-- What is read as the type of a column is read again from its written form exactly if its year
fits; otherwise the written form is refused. All scalars of the values that the column is compared
with were read in this way. -/
theorem written_reads_back_iff (column : Text) :
    (∀ text scalar, Scalar.read column text = .ok scalar →
      (Scalar.read column scalar.written = .ok scalar ↔ scalar.YearFits) ∧
        (¬ scalar.YearFits →
          Scalar.read column scalar.written = .error (.notInstant column scalar.written))) ∧
    ∀ text operator value, operator ≠ .like →
      Value.read text (.standard column) operator = .ok value →
        ∀ scalar ∈ value.scalars, ∃ item, Scalar.read column item = .ok scalar := by
  constructor
  · intro text scalar h
    refine ⟨?_, read_written_of_not_yearFits h⟩
    have hitem : Operator.equal ≠ .like := by decide
    rw [← Field.readItem_standard hitem] at h ⊢
    rw [Field.readItem_written_iff h, and_iff_right rfl]
  · intro text operator value hlike hvalue scalar hscalar
    rcases Value.exists_readItem (Value.read_eq_ok_iff.1 hvalue).1 hscalar with ⟨item, hitem⟩
    rw [Field.readItem_standard hlike] at hitem
    exact ⟨item, hitem⟩

/-- A leap second is written as it was read. -/
theorem written_reads_back_iff_leapSecond :
    Scalar.read "created_at".toList "2016-12-31T23:59:60Z".toList =
        .ok (.instant ⟨1483228799, 1000000000⟩) ∧
      Scalar.read "created_at".toList (written (.instant ⟨1483228799, 1000000000⟩)) =
        .ok (.instant ⟨1483228799, 1000000000⟩) := by
  have hread : Scalar.read "created_at".toList "2016-12-31T23:59:60Z".toList =
      .ok (.instant ⟨1483228799, 1000000000⟩) := by decide +kernel
  have hyear : YearFits (.instant ⟨1483228799, 1000000000⟩) := by
    constructor <;> decide +kernel
  exact ⟨hread, ((written_reads_back_iff "created_at".toList).1 _ _ hread).1.2 hyear⟩

/-- The last half hour of the year 9999 in a zone to the west is in the year 10000, and is not read
again. -/
theorem not_written_reads_back_yearTenThousand :
    Scalar.read "created_at".toList "9999-12-31T23:30:00-01:00".toList =
        .ok (.instant ⟨253402302600, 0⟩) ∧
      Scalar.read "created_at".toList (written (.instant ⟨253402302600, 0⟩)) ≠
        .ok (.instant ⟨253402302600, 0⟩) := by
  constructor <;> decide +kernel

end Scalar

end ListingFilter
