import ListingFilter.Proofs.InstantText
import ListingFilter.Proofs.Items
import ListingFilter.Proofs.NumberText

/-!
# Values — values written and read again

Whatever the field and the operator are, a value is read as a list of items or as one item
(`Value.readStripped_eq`), and each item is read in the same way. An item is read again from its
written form unless it is an instant in a year that is not written in four digits
(`Field.readItem_written_iff`).

A value comes back from its written form if, besides, that is a group in parentheses exactly for a
list (`Value.read_written`). Otherwise it does not come back: stripping takes off the parentheses that
a single text has of its own, and leaves those of a list that have other partners than each other
(`Value.enclosed_of_same`).
-/

namespace ListingFilter

/-! ## Items -/

namespace Field

/-- The field and the operator ask for a list. -/
def takesList : Field → Operator → Bool
  | .relationship _, _ => true
  | _, operator => operator.expectsList

/-- Reads one item of a value: as the type of the column, or as a text. -/
def readItem (field : Field) (operator : Operator) (text : Text) : Except Fault Scalar :=
  match field with
  | .standard name => if operator = .like then .ok (.text text) else Scalar.read name text
  | _ => .ok (.text text)

/-- Unless they are searched for, the items of a column are read as its type. -/
theorem readItem_standard {operator : Operator} (h : operator ≠ .like) (column : Text) :
    (standard column).readItem operator = Scalar.read column :=
  funext fun _ => if_neg h

end Field

theorem Field.mapM_readItem_of_texts {field : Field} {operator : Operator}
    (h : ∀ text, field.readItem operator text = .ok (.text text)) (texts : List Text) :
    texts.mapM (field.readItem operator) = .ok (texts.map .text) := by
  rw [show field.readItem operator = fun text => .ok (.text text) from funext h]
  exact List.mapM_pure

/-- A value is read item by item. -/
theorem Value.readStripped_eq (text : Text) (field : Field) (operator : Operator) :
    readStripped text field operator =
      if field.takesList operator then .list <$> text.listItems.mapM (field.readItem operator)
      else .single <$> field.readItem operator text := by
  cases field with
  | relationship link =>
    exact congrArg (Value.list <$> ·) (Field.mapM_readItem_of_texts (fun _ => rfl) _).symm
  | «attribute» name =>
    change (if operator.expectsList then _ else _) = if operator.expectsList then _ else _
    by_cases hlist : operator.expectsList
    · rw [if_pos hlist, if_pos hlist]
      exact congrArg (Value.list <$> ·) (Field.mapM_readItem_of_texts (fun _ => rfl) _).symm
    · rw [if_neg hlist, if_neg hlist]
      rfl
  | standard name =>
    by_cases hlike : operator = .like
    · subst hlike
      rfl
    · rw [readStripped, if_neg hlike, Field.readItem_standard hlike]
      change (if operator.expectsList then _ else _) = if operator.expectsList then _ else _
      by_cases hlist : operator.expectsList
      · rw [if_pos hlist, if_pos hlist]
        exact bind_pure_comp ..
      · rw [if_neg hlist, if_neg hlist]
        exact bind_pure_comp ..

/-- The instant is in a year of four digits; all other scalars are. -/
def Scalar.YearFits : Scalar → Prop
  | .instant value => 0 ≤ value.date.year ∧ value.date.year ≤ 9999
  | _ => True

theorem Scalar.asText?_eq_none_iff {scalar : Scalar} :
    scalar.asText? = none ↔ scalar.type ≠ .text := by
  cases scalar <;> simp [asText?, type]

namespace Field

variable {field : Field} {operator : Operator} {text : Text} {scalar : Scalar}

/-- An item is read as a text, or as the type of the column. -/
theorem readItem_eq (field : Field) (operator : Operator) :
    field.readItem operator = (fun text => .ok (.text text)) ∨
      ∃ name, field = .standard name ∧ field.readItem operator = Scalar.read name := by
  cases field with
  | relationship link => exact .inl rfl
  | «attribute» name => exact .inl rfl
  | standard name =>
    by_cases hlike : operator = .like
    · exact .inl (funext fun text => if_pos hlike)
    · exact .inr ⟨name, rfl, readItem_standard hlike name⟩

/-- The items of a field are all texts, or none of them is. -/
theorem readItem_cases (field : Field) (operator : Operator) :
    (∀ text, field.readItem operator text = .ok (.text text)) ∨
      ∀ text scalar, field.readItem operator text = .ok scalar → scalar.asText? = none := by
  rcases field.readItem_eq operator with htext | ⟨name, -, hread⟩
  · exact .inl fun text => by rw [htext]
  · by_cases htype : ScalarType.ofColumn name = .text
    · refine .inl ?_
      intro text
      rw [hread, Scalar.read, htype]
    · refine .inr ?_
      intro text scalar h
      rw [hread] at h
      rwa [Scalar.asText?_eq_none_iff, ← (Scalar.read_eq_ok_iff.1 h).1]

/-- An item is read again from its written form, if an instant is in a year of four digits. -/
theorem readItem_written_iff (h : field.readItem operator text = .ok scalar) {read : Scalar} :
    field.readItem operator scalar.written = .ok read ↔ read = scalar ∧ scalar.YearFits := by
  rcases field.readItem_eq operator with htext | ⟨name, -, hread⟩
  · rw [htext] at h ⊢
    cases h
    rw [Except.ok.injEq]
    exact ⟨fun hsame => ⟨hsame.symm, trivial⟩, fun hsame => hsame.1.symm⟩
  · rw [hread, Scalar.read_eq_ok_iff] at h
    rcases h with ⟨htype, hfrom⟩
    rw [hread, Scalar.read_eq_ok_iff, htype]
    -- only a scalar of the same type can be read, and each type reads its own written form
    cases scalar with
    | text content => cases read <;> simp [Scalar.type, Scalar.IsReadFrom, Scalar.written,
        Scalar.YearFits]
    | boolean flag =>
      have hflag : (Scalar.boolean flag).written.isTruthy = flag := by cases flag <;> decide
      cases read <;> simp [Scalar.type, Scalar.IsReadFrom, hflag, Scalar.YearFits, eq_comm]
    | number value =>
      have hfinite := Number.isFinite_of_ofText? hfrom
      cases read <;> simp [Scalar.type, Scalar.IsReadFrom, Scalar.written,
        Number.ofText?_text hfinite, Scalar.YearFits, eq_comm]
    | instant value =>
      have hregular := Instant.regular_of_ofText? hfrom
      cases read <;> simp [Scalar.type, Scalar.IsReadFrom, Scalar.written,
        Instant.ofText?_text_eq_some_iff hregular, Scalar.YearFits]

/-- An item equals itself, since no item is read as not-a-number. -/
theorem same_of_readItem (h : field.readItem operator text = .ok scalar) : scalar.same scalar := by
  rcases field.readItem_eq operator with htext | ⟨name, -, hread⟩
  · rw [htext] at h
    cases h
    simp [Scalar.same]
  · rw [hread] at h
    rcases Scalar.read_eq_ok_iff.1 h with ⟨-, hfrom⟩
    cases scalar with
    | text content => simp [Scalar.same]
    | boolean flag => simp [Scalar.same]
    | instant value => simp [Scalar.same]
    | number value =>
      have hfinite := Number.isFinite_of_ofText? hfrom
      rw [Scalar.same, Number.equals_self]
      cases value with
      | nan => cases hfinite
      | signed negative rank rank_le => rfl

/-- An item is written as an item of a list. -/
theorem isItem_written (hitem : text.IsItem) (h : field.readItem operator text = .ok scalar) :
    scalar.written.IsItem := by
  rcases field.readItem_cases operator with htexts | htyped
  · rw [htexts text] at h
    cases h
    exact hitem
  · exact (Scalar.plain_written (htyped text scalar h)).isItem

end Field

/-! ## Values -/

namespace Value

variable {field : Field} {operator : Operator} {text : Text} {value : Value}

/-- The written form without the parentheses of a list. -/
def inner : Value → Text
  | .single scalar => scalar.written
  | .list items => [','].intercalate (items.map Scalar.written)

/-- The written form is a group in parentheses exactly for a list. -/
def Enclosed (value : Value) : Prop :=
  value.written.enclosed?.isSome ↔ ∃ items, value = .list items

theorem readStripped_list_iff (h : field.takesList operator) :
    readStripped text field operator = .ok value ↔
      ∃ items, text.listItems.mapM (field.readItem operator) = .ok items ∧ .list items = value := by
  rw [readStripped_eq, if_pos h, map_eq_ok_iff]

theorem readStripped_single_iff (h : ¬ field.takesList operator) :
    readStripped text field operator = .ok value ↔
      ∃ scalar, field.readItem operator text = .ok scalar ∧ .single scalar = value := by
  rw [readStripped_eq, if_neg h, map_eq_ok_iff]

/-- Every scalar of a value was read as an item. -/
theorem exists_readItem (h : readStripped text field operator = .ok value) {scalar : Scalar}
    (hscalar : scalar ∈ value.scalars) : ∃ item, field.readItem operator item = .ok scalar := by
  by_cases hlist : field.takesList operator
  · rcases (readStripped_list_iff hlist).1 h with ⟨items, hitems, rfl⟩
    rcases exists_of_mapM_eq_ok hitems hscalar with ⟨item, -, hitem⟩
    exact ⟨item, hitem⟩
  · rcases (readStripped_single_iff hlist).1 h with ⟨found, hfound, rfl⟩
    obtain rfl : scalar = found := List.mem_singleton.1 hscalar
    exact ⟨text, hfound⟩

/-- Where items are not texts, the scalars of a value are written in plain characters. -/
theorem plain_of_typed (h : readStripped text field operator = .ok value)
    (htyped : ∀ text scalar, field.readItem operator text = .ok scalar → scalar.asText? = none) :
    ∀ scalar ∈ value.scalars, scalar.written.Plain := by
  intro scalar hscalar
  rcases exists_readItem h hscalar with ⟨item, hitem⟩
  exact Scalar.plain_written (htyped item scalar hitem)

theorem written_texts (texts : List Text) :
    (list (texts.map .text)).written = '(' :: [','].intercalate texts ++ [')'] := by
  simp [written, Scalar.written, Function.comp_def]

/-- The scalars of a list are written as items. -/
theorem isItem_of_list {items : List Scalar}
    (h : readStripped text field operator = .ok (.list items)) :
    ∀ item ∈ items.map Scalar.written, item.IsItem := by
  intro item hitem
  rcases List.mem_map.1 hitem with ⟨scalar, hscalar, rfl⟩
  by_cases hlist : field.takesList operator
  · rcases (readStripped_list_iff hlist).1 h with ⟨found, hfound, hsame⟩
    cases hsame
    rcases exists_of_mapM_eq_ok hfound hscalar with ⟨piece, hpiece, hread⟩
    exact Field.isItem_written (Text.isItem_of_mem_listItems hpiece) hread
  · rcases (readStripped_single_iff hlist).1 h with ⟨found, -, hsame⟩
    cases hsame

/-- Without the parentheses of a list, the written form is read as the value, unless an instant is
in another year than one of four digits. -/
theorem readStripped_inner_iff (h : readStripped text field operator = .ok value) {read : Value} :
    readStripped value.inner field operator = .ok read ↔
      read = value ∧ ∀ scalar ∈ value.scalars, scalar.YearFits := by
  by_cases hlist : field.takesList operator
  · rw [readStripped_list_iff hlist]
    rcases (readStripped_list_iff hlist).1 h with ⟨items, hitems, rfl⟩
    have hwritten : ∀ scalar ∈ items, ∀ read,
        field.readItem operator scalar.written = .ok read ↔ read = scalar ∧ scalar.YearFits := by
      intro scalar hscalar read
      rcases exists_of_mapM_eq_ok hitems hscalar with ⟨item, -, hitem⟩
      exact Field.readItem_written_iff hitem
    rw [inner, Text.listItems_intercalate (isItem_of_list h)]
    simp only [mapM_map_eq_ok_iff hwritten]
    constructor
    · rintro ⟨found, ⟨rfl, hyears⟩, rfl⟩
      exact ⟨rfl, hyears⟩
    · rintro ⟨rfl, hyears⟩
      exact ⟨items, ⟨rfl, hyears⟩, rfl⟩
  · rw [readStripped_single_iff hlist]
    rcases (readStripped_single_iff hlist).1 h with ⟨scalar, hscalar, rfl⟩
    simp only [inner, Field.readItem_written_iff hscalar, scalars, List.forall_mem_singleton]
    constructor
    · rintro ⟨found, ⟨rfl, hyear⟩, rfl⟩
      exact ⟨rfl, hyear⟩
    · rintro ⟨rfl, hyear⟩
      exact ⟨scalar, ⟨rfl, hyear⟩, rfl⟩

/-- The written form of a single scalar that was read, stripped text and all, is tight. -/
theorem tight_inner (htext : text.Tight) (h : readStripped text field operator = .ok value) :
    value.inner.Tight := by
  cases value with
  | list items => exact Text.tight_intercalate (isItem_of_list h)
  | single scalar =>
    rcases (eq_text_or_of_readStripped h).2 with rfl | hscalar
    · exact htext
    · exact (Scalar.plain_written hscalar).tight

/-- The written form of a scalar that is not a text is no group. -/
theorem enclosed?_plain {content : Text} (h : content.Plain) : content.enclosed? = none := by
  refine Text.enclosed?_eq_none_iff.2 ?_
  intro inside _ hsame
  exact (Text.parentheses_eq_nil_iff.1 h.parentheses '(' (by simp [hsame])).1 rfl

/-- Stripping takes off the parentheses of a list, and nothing of a single scalar, if the written
form is enclosed as it should be. -/
theorem Enclosed.strip_written (hvalue : value.Enclosed) (htext : text.Tight)
    (h : readStripped text field operator = .ok value) : value.written.strip = value.inner := by
  have htight := tight_inner htext h
  cases value with
  | single scalar =>
    refine Text.Tight.strip_eq htight (Option.not_isSome_iff_eq_none.1 ?_)
    intro hsome
    rcases hvalue.1 hsome with ⟨items, hitems⟩
    cases hitems
  | list items =>
    have hbalanced := Text.enclosed?_group.1 (hvalue.2 ⟨items, rfl⟩)
    exact hbalanced.strip_group.trans htight.trim_eq

/-! ## Sameness -/

theorem same_list_iff {as bs : List Scalar} :
    (list as).same (list bs) ↔ List.Forall₂ (fun a b => a.same b) as bs := by
  rw [same, Bool.and_eq_true, beq_iff_eq, List.forall₂_iff_zip, List.all_eq_true]
  exact and_congr_right fun _ => ⟨fun h a b hab => h (a, b) hab, fun h ab hab => h hab⟩

/-- Lists of texts are the same only if they are equal. -/
theorem eq_of_same_texts {as bs : List Text} (h : (list (as.map .text)).same (list (bs.map .text))) :
    as = bs := by
  rw [same_list_iff, List.forall₂_map_left_iff, List.forall₂_map_right_iff] at h
  rw [← List.forall₂_eq_eq_eq]
  apply h.imp
  intro a b hab
  simpa [Scalar.same] using hab

/-- A value equals itself. -/
theorem same_of_readStripped (h : readStripped text field operator = .ok value) :
    value.same value := by
  have hscalars : ∀ scalar ∈ value.scalars, scalar.same scalar := by
    intro scalar hscalar
    rcases exists_readItem h hscalar with ⟨item, hitem⟩
    exact Field.same_of_readItem hitem
  cases value with
  | single scalar => exact hscalars scalar (List.mem_singleton.2 rfl)
  | list items =>
    rw [same_list_iff, List.forall₂_same]
    exact hscalars

/-- A list of texts that is the same when its written form is read without stripping, or stripped,
was written in parentheses that have each other for partners. -/
theorem balanced_of_same_texts {items : List Text}
    (h : (list ((Text.strip (list (items.map .text)).written).listItems.map .text)).same
      (list (items.map .text))) : Text.Balanced ([','].intercalate items) := by
  have hitems := eq_of_same_texts h
  rw [written_texts] at hitems
  by_contra hunbalanced
  -- nothing is stripped, so the items read hold the outer parentheses too
  have hnone := Option.not_isSome_iff_eq_none.1 (mt Text.enclosed?_group.1 hunbalanced)
  rw [(Text.tight_group _).strip_eq hnone] at hitems
  have hparens := Text.parentheses_listItems ('(' :: [','].intercalate items ++ [')'])
  rw [hitems] at hparens
  have hcount := Text.count_eq_of_parentheses_eq hparens
  simp at hcount

/-- If what is read of the stripped written form is the same value, the written form is enclosed as
it should be. -/
theorem enclosed_of_same (h : readStripped text field operator = .ok value) {read : Value}
    (hread : readStripped value.written.strip field operator = .ok read)
    (hsame : read.same value) : value.Enclosed := by
  by_cases hlist : field.takesList operator
  · rcases (readStripped_list_iff hlist).1 h with ⟨items, hitems, rfl⟩
    rcases (readStripped_list_iff hlist).1 hread with ⟨found, hfound, rfl⟩
    refine iff_of_true (Text.enclosed?_group.2 ?_) ⟨items, rfl⟩
    rcases field.readItem_cases operator with htexts | htyped
    · rw [Field.mapM_readItem_of_texts htexts] at hitems hfound
      cases hitems
      cases hfound
      simpa [Scalar.written, Function.comp_def] using balanced_of_same_texts hsame
    · -- there are no parentheses inside of the outer ones
      have hplain := List.forall_mem_map.2 (plain_of_typed h htyped)
      exact Text.balanced_of_parentheses (Text.parentheses_intercalate_of_plain hplain)
  · rcases (readStripped_single_iff hlist).1 h with ⟨scalar, hscalar, rfl⟩
    rcases (readStripped_single_iff hlist).1 hread with ⟨found, hfound, rfl⟩
    have hnotList : ¬ ∃ items, single scalar = list items := by
      rintro ⟨items, hitems⟩
      cases hitems
    refine iff_of_false ?_ hnotList
    intro hsome
    rcases field.readItem_cases operator with htexts | htyped
    · rw [htexts] at hscalar hfound
      cases hscalar
      cases hfound
      -- the text has lost its own parentheses
      rcases Option.isSome_iff_exists.1 hsome with ⟨inside, henclosed⟩
      rcases Text.enclosed?_eq_some_iff_balanced.1 henclosed with ⟨hwritten, hinside⟩
      obtain rfl : text = '(' :: inside ++ [')'] := hwritten
      have hequal : Scalar.text (Text.strip ('(' :: inside ++ [')'])) =
          .text ('(' :: inside ++ [')']) := beq_iff_eq.1 hsame
      exact hinside.strip_group_ne (Scalar.text.inj hequal)
    · rw [written, enclosed?_plain (Scalar.plain_written (htyped text scalar hscalar))] at hsome
      cases hsome

/-! ## The whole of a value -/

/-- A value is read again from its written form, if that is enclosed as it should be and all years
fit. -/
theorem read_written (h : Value.read text field operator = .ok value) (hvalue : value.Enclosed)
    (hyears : ∀ scalar ∈ value.scalars, scalar.YearFits) :
    Value.read value.written field operator = .ok value := by
  rcases read_eq_ok_iff.1 h with ⟨hread, hempty⟩
  apply read_eq_ok_iff.2
  rw [hvalue.strip_written (Text.tight_strip text) hread]
  refine ⟨(readStripped_inner_iff hread).2 ⟨rfl, hyears⟩, hempty.imp_right ?_⟩
  rintro ⟨hne, hvalueNe⟩
  refine ⟨?_, hvalueNe⟩
  cases value with
  | single scalar =>
    rcases (eq_text_or_of_readStripped hread).2 with rfl | hscalar
    · exact hne
    · exact (Scalar.plain_written hscalar).ne_nil
  | list items =>
    cases items with
    | nil => exact absurd rfl hvalueNe
    | cons first rest =>
      have hfirst := isItem_of_list hread first.written (by simp)
      cases rest <;> simp [inner, List.intercalate_cons_cons, hfirst.ne_nil]

/-- A value that is the same when it is read again is written as it should be. -/
theorem enclosed_and_yearFits_of_read_written (h : Value.read text field operator = .ok value)
    {read : Value} (hread : Value.read value.written field operator = .ok read)
    (hsame : read.same value) : value.Enclosed ∧ ∀ scalar ∈ value.scalars, scalar.YearFits := by
  have hvalue := (read_eq_ok_iff.1 h).1
  have hagain := (read_eq_ok_iff.1 hread).1
  have henclosed := enclosed_of_same hvalue hagain hsame
  rw [henclosed.strip_written (Text.tight_strip text) hvalue] at hagain
  exact ⟨henclosed, ((readStripped_inner_iff hvalue).1 hagain).2⟩

end Value

end ListingFilter
