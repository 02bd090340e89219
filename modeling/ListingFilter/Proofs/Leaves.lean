import ListingFilter.Proofs.Phrases
import ListingFilter.Proofs.Roundtrip

/-!
# Leaves — conditions that survive being written

Of a filter that is read, each condition may be taken out and written on its own. A condition is tidy
if its texts cannot be mistaken for anything else when they are put behind each other with spaces:
the field has no parentheses and no connective severs it, a single text is no group and is not
severed either, and the scalars of a column are read from their written form. The written form of a
tidy condition is read as that condition (`Settings.parse_written_condition`). Lists need no care of
their own: the items that stand between commas hold together the parentheses of the list, so the list
is one group again. All conditions on linked records are tidy (`Condition.tidy_of_relationship`).
-/

namespace ListingFilter

/-! ## Scalars other than texts -/

theorem Spelling.lacks_of_toLower {spelling : Spelling} {c : Char}
    (h : ∀ connective : Connective, c.toLower ∉ connective.keyword.foldAscii) : spelling.Lacks c :=
  fun _ connective haccepts hc => h connective (Connective.toLower_mem_of_accepts haccepts hc)

theorem Spelling.lacks_of_isDigit {spelling : Spelling} {c : Char} (h : c.isDigit) :
    spelling.Lacks c := by
  have hnine : c.toNat < 58 := by
    have hle : c.toNat ≤ 57 := of_decide_eq_true (Bool.and_eq_true_iff.1 h).2
    omega
  have hall : ∀ n < 58, (Char.ofNat n).isDigit → ∀ connective ∈ [Connective.and, .or],
      (Char.ofNat n).toLower ∉ connective.keyword.foldAscii := by
    decide
  refine lacks_of_toLower fun connective => ?_
  rw [← Char.ofNat_toNat c] at h ⊢
  exact hall c.toNat hnine h connective (by cases connective <;> simp)

/-- A plain text with a character that is in no keyword is whole: with neither white space nor
parentheses in it, it would have to be a keyword to be severed. -/
theorem Text.Plain.whole {spelling : Spelling} {text : Text} (h : text.Plain) {c : Char}
    (hc : c ∈ text) (hlacks : spelling.Lacks c) : text.Whole spelling := by
  have hletter : ∀ d ∈ text, ¬ isSpace d ∧ d ≠ '(' ∧ d ≠ ')' := by
    intro d hd
    have hspecial := not_special_of_isPlain (h.isPlain hd)
    refine ⟨by simp [hspecial.1], ?_, ?_⟩
    · rintro rfl
      exact hspecial.2 (by simp)
    · rintro rfl
      exact hspecial.2 (by simp)
  refine ⟨balanced_of_parentheses h.parentheses, ?_⟩
  intro before word after k htext hsevers
  have hbefore : before = [] := by
    refine hsevers.before_apart.resolve_right ?_
    rintro ⟨d, hd, hapart⟩
    have hmem := hletter d (by simp [htext, List.mem_of_getLast? hd])
    exact hapart.elim hmem.1 hmem.2.2
  have hafter : after = [] := by
    refine hsevers.after_apart.resolve_right ?_
    rintro ⟨d, hd, hapart⟩
    have hmem := hletter d (by simp [htext, List.mem_of_head? hd])
    exact hapart.elim hmem.1 hmem.2.1
  rw [hbefore, hafter, List.nil_append, List.append_nil] at htext
  exact hlacks word k hsevers.accepted (htext ▸ hc)

theorem Decimal.exists_isDigit_text (decimal : Decimal) : ∃ c ∈ decimal.text, c.isDigit := by
  rcases List.exists_mem_of_ne_nil _
    (Text.plain_ofNat (decimal.units / tenTo decimal.places)).ne_nil with ⟨c, hc⟩
  refine ⟨c, ?_, Text.isDigit_of_mem_ofNat hc⟩
  unfold text
  split
  · exact hc
  · exact List.mem_append_left _ hc

/-- No connective severs a scalar that is not a text. -/
theorem Scalar.whole_written {spelling : Spelling} {column text : Text} {scalar : Scalar}
    (h : Scalar.read column text = .ok scalar) (htyped : scalar.asText? = none) :
    scalar.written.Whole spelling := by
  have hplain := Scalar.plain_written htyped
  cases scalar with
  | text content => cases htyped
  | boolean flag =>
    have he : 'e' ∈ (Scalar.boolean flag).written := by cases flag <;> decide
    exact hplain.whole he (Spelling.lacks_of_toLower (by rintro (_ | _) <;> decide))
  | instant value =>
    have hdash : '-' ∈ (Scalar.instant value).written := by
      simp [written, Instant.text, Date.text]
    exact hplain.whole hdash (Spelling.lacks_of_toLower (by rintro (_ | _) <;> decide))
  | number value =>
    have hfinite := Number.isFinite_of_ofText? (Scalar.read_eq_ok_iff.1 h).2
    cases value with
    | nan => cases hfinite
    | signed negative rank rank_le =>
      -- a finite number has a digit
      have hrank : rank ≠ Rank.infinite := Nat.ne_of_lt (of_decide_eq_true hfinite)
      rcases (Decimal.shortest rank).exists_isDigit_text with ⟨c, hc, hdigit⟩
      have hmem : c ∈ (Scalar.number (.signed negative rank rank_le)).written := by
        rw [written, Number.text, if_neg hrank]
        exact List.mem_append_right _ hc
      exact hplain.whole hmem (Spelling.lacks_of_isDigit hdigit)

theorem Field.whole_written_of_readItem {spelling : Spelling} {field : Field} {operator : Operator}
    {text : Text} {scalar : Scalar} (h : field.readItem operator text = .ok scalar)
    (htyped : scalar.asText? = none) : scalar.written.Whole spelling := by
  rcases field.readItem_eq operator with htexts | ⟨name, -, hread⟩
  · rw [htexts] at h
    cases h
    cases htyped
  · rw [hread] at h
    exact Scalar.whole_written h htyped

/-! ## Values -/

namespace Value

variable {field : Field} {operator : Operator} {text : Text} {value : Value}

/-- What was read from a balanced text is balanced, also without the parentheses of a list. -/
theorem balanced_inner (h : readStripped text field operator = .ok value) (htext : text.Balanced) :
    value.inner.Balanced := by
  rcases field.readItem_cases operator with htexts | htyped
  · by_cases hlist : field.takesList operator
    · rcases (readStripped_list_iff hlist).1 h with ⟨items, hitems, rfl⟩
      rw [Field.mapM_readItem_of_texts htexts] at hitems
      cases hitems
      -- the items hold the parentheses of the text
      refine (Text.balanced_iff_of_parentheses_eq ?_).2 htext
      rw [← Text.parentheses_listItems text, inner, List.map_map]
      exact congrArg (fun texts => Text.parentheses ([','].intercalate texts)) (List.map_id _)
    · rcases (readStripped_single_iff hlist).1 h with ⟨scalar, hscalar, rfl⟩
      rw [htexts] at hscalar
      cases hscalar
      exact htext
  · have hplain := plain_of_typed h htyped
    cases value with
    | single scalar =>
      exact Text.balanced_of_parentheses (hplain scalar (List.mem_singleton.2 rfl)).parentheses
    | list items =>
      exact Text.balanced_of_parentheses
        (Text.parentheses_intercalate_of_plain (List.forall_mem_map.2 hplain))

end Value

/-! ## Tidy conditions -/

namespace Condition

/-- The texts of the condition keep what they say wherever they are put. -/
structure Tidy (spelling : Spelling) (condition : Condition) : Prop where
  /-- The field has no parentheses. -/
  no_parenthesis : '(' ∉ condition.field.token ∧ ')' ∉ condition.field.token
  /-- The field is its own only segment. -/
  field_segments : condition.field.token.segments spelling = .ok ⟨condition.field.token, []⟩
  /-- A single text is no group and its own only segment. -/
  text : ∀ content, condition.value = .single (.text content) →
    content.enclosed? = none ∧ content.segments spelling = .ok ⟨content, []⟩
  /-- Except for patterns, the scalars of a column are read from their written form. -/
  column : ∀ name, condition.field = .standard name → condition.operator ≠ .like →
    ∀ scalar ∈ condition.value.scalars, Scalar.read name scalar.written = .ok scalar

variable {spelling : Spelling} {text : Text} {condition : Condition}

/-- A condition on linked records is tidy. -/
theorem tidy_of_relationship (hread : Condition.read text = .ok condition) {link : Link}
    (hfield : condition.field = .relationship link) : condition.Tidy spelling := by
  refine ⟨?_, ?_, ?_, ?_⟩
  · rw [hfield]
    cases link <;> decide
  · rw [hfield]
    cases spelling <;> cases link <;> decide +kernel
  · intro content hsingle
    rcases read_eq_ok_iff.1 hread with ⟨clause, -, -, -, -, hvalue, -⟩
    have hstripped := (Value.read_eq_ok_iff.1 hvalue).1
    rw [hsingle] at hstripped
    exact absurd hfield ((Value.eq_text_or_of_readStripped hstripped).1 link)
  · intro name hname
    rw [hfield] at hname
    cases hname

/-- The value of a tidy condition that was read from a balanced text was read from a balanced text
itself. -/
theorem Tidy.exists_readStripped (h : condition.Tidy spelling) (htext : text.Balanced)
    (hread : Condition.read text = .ok condition) :
    ∃ stripped : Text, stripped.Balanced ∧ stripped.Tight ∧
      Value.readStripped stripped condition.field condition.operator = .ok condition.value := by
  rcases exists_of_read hread with ⟨before, after, -, hcut, -, htoken, -, hvalue⟩
  refine ⟨after.trim.strip, ?_, Text.tight_strip _, (Value.read_eq_ok_iff.1 hvalue).1⟩
  have hfield := Text.parentheses_eq_nil_of_not_mem h.no_parenthesis
  rw [htoken, Text.parentheses_trim] at hfield
  have hafter : after.trim.Balanced := by
    refine (Text.balanced_iff_of_parentheses_eq ?_).1 htext
    rw [Operator.eq_append_of_cut? hcut]
    simp [hfield, Operator.parentheses_symbol]
  exact @Text.balanced_append_strip [] _ hafter

/-- The written value of a tidy condition is whole, and a group exactly for a list. -/
theorem Tidy.whole_and_enclosed (h : condition.Tidy spelling) (htext : text.Balanced)
    (hread : Condition.read text = .ok condition) :
    condition.value.written.Whole spelling ∧ condition.value.Enclosed := by
  rcases h.exists_readStripped htext hread with ⟨stripped, hbalanced, -, hvalue⟩
  have hinner := Value.balanced_inner hvalue hbalanced
  have htexts := h.text
  generalize condition.value = value at hvalue hinner htexts
  cases value with
  | list items =>
    have hgroup := Text.enclosed?_group.2 hinner
    exact ⟨(Text.Balanced.isSegment_group hinner spelling).whole, fun _ => ⟨items, rfl⟩,
      fun _ => hgroup⟩
  | single scalar =>
    have hnot : ¬ ∃ items, Value.single scalar = .list items := by
      rintro ⟨items, hitems⟩
      cases hitems
    have hscalar : scalar.written.Whole spelling ∧ scalar.written.enclosed? = none := by
      rcases (Value.eq_text_or_of_readStripped hvalue).2 with rfl | htyped
      · rcases htexts stripped rfl with ⟨hnone, hsegments⟩
        exact ⟨(Text.segments_self_iff.1 hsegments).whole, hnone⟩
      · rcases Value.exists_readItem hvalue (List.mem_singleton.2 rfl) with ⟨item, hitem⟩
        exact ⟨Field.whole_written_of_readItem hitem htyped,
          Value.enclosed?_plain (Scalar.plain_written htyped)⟩
    refine ⟨hscalar.1, fun hsome => ?_, fun hlist => absurd hlist hnot⟩
    rw [Value.written, hscalar.2] at hsome
    cases hsome

/-- Instants of a tidy condition are in years of four digits. -/
theorem Tidy.years (h : condition.Tidy spelling) (hread : Condition.read text = .ok condition) :
    ∀ scalar ∈ condition.value.scalars, scalar.YearFits := by
  intro scalar hscalar
  rcases read_eq_ok_iff.1 hread with ⟨clause, -, -, -, -, hvalue, -⟩
  rcases Value.exists_readItem (Value.read_eq_ok_iff.1 hvalue).1 hscalar with ⟨item, hitem⟩
  have hagain : ∃ read, condition.field.readItem condition.operator scalar.written = .ok read := by
    cases hfield : condition.field with
    | relationship link => exact ⟨_, rfl⟩
    | «attribute» name => exact ⟨_, rfl⟩
    | standard name =>
      by_cases hlike : condition.operator = .like
      · exact ⟨_, if_pos hlike⟩
      · exact ⟨scalar, (if_neg hlike).trans (h.column name hfield hlike scalar hscalar)⟩
  rcases hagain with ⟨read, hagain⟩
  exact ((Field.readItem_written_iff hitem).1 hagain).2

/-- A tidy condition that was read from an atom may be written. -/
theorem Tidy.rereads (h : condition.Tidy spelling) (htext : text.Balanced)
    (hread : Condition.read text = .ok condition) : condition.Rereads spelling := by
  have hfield := Text.segments_self_iff.1 h.field_segments
  rcases h.whole_and_enclosed htext hread with ⟨hwhole, henclosed⟩
  have hsymbol := condition.operator.whole_symbol spelling
  refine ⟨?_, ?_, henclosed, h.years hread⟩
  · rw [written_eq, tail]
    split
    · rw [List.append_nil]
      exact hfield.whole.append_space hsymbol
    · exact hfield.whole.append_space (hsymbol.append_space hwhole)
  · rw [Text.enclosed?_eq_none_iff, written_eq]
    exact fun inner _ => Text.append_ne_group hfield.ne_nil h.no_parenthesis.1

end Condition

/-! ## Filters -/

/-- Every condition of a filter that is tidy, or that is on linked records, is read again from its
written form alone, with the same field, operator, value and proviso. -/
theorem Settings.parse_written_condition {spelling : Spelling} {text : Text} {tree : Tree}
    (h : (unlimited spelling).parse text = .ok tree) {condition : Condition}
    (hmem : condition ∈ tree.conditions)
    (htidy : condition.Tidy spelling ∨ ∃ link, condition.field = .relationship link) :
    (unlimited spelling).parse condition.written = .ok (.leaf condition) := by
  rcases (parse_unlimited_eq_ok_iff.1 h).shaped.of_mem_conditions condition hmem with
    ⟨atom, hatom, hread⟩
  have hregular : condition.Tidy spelling := by
    rcases htidy with htidy | ⟨link, hlink⟩
    · exact htidy
    · exact Condition.tidy_of_relationship hread hlink
  exact ((hregular.rereads hatom.whole.balanced hread).safe hread).parse

/-- The condition of `title = ( a and b )`, with small letters that spell no connective. -/
def Condition.titleWithAnd : Condition :=
  ⟨.standard "title".toList, .equal, .single (.text "a and b".toList), none⟩

/-- The condition of `languages HAS_ANY (((x), y), , (z))`. -/
def Condition.nestedLanguages : Condition :=
  ⟨.relationship .languages, .hasAny,
    .list [.text "((x)".toList, .text "y)".toList, .text "(z)".toList], some .countGuard⟩

/-- The title is tidy, and the labels come back although their parentheses hold commas. -/
theorem Settings.parse_written_condition_titleAndLanguages :
    (unlimited .upperCase).parse
        "title = ( a and b ) OR languages HAS_ANY (((x), y), , (z))".toList =
      .ok (.group [(none, .leaf .titleWithAnd), (some .or, .leaf .nestedLanguages)]) ∧
    (unlimited .upperCase).parse Condition.titleWithAnd.written = .ok (.leaf .titleWithAnd) ∧
    (unlimited .upperCase).parse Condition.nestedLanguages.written =
      .ok (.leaf .nestedLanguages) := by
  have hparse : (unlimited .upperCase).parse
      "title = ( a and b ) OR languages HAS_ANY (((x), y), , (z))".toList =
      .ok (.group [(none, .leaf .titleWithAnd), (some .or, .leaf .nestedLanguages)]) := by
    decide +kernel
  have htidy : Condition.titleWithAnd.Tidy .upperCase := by
    refine ⟨by decide, by decide +kernel, ?_, ?_⟩
    · intro content hcontent
      cases hcontent
      exact ⟨by decide +kernel, by decide +kernel⟩
    · intro name hname _ scalar hscalar
      cases hname
      rw [List.mem_singleton.1 hscalar]
      decide
  refine ⟨hparse, ?_, ?_⟩
  · exact parse_written_condition hparse (by simp [Tree.conditions, Tree.allConditions]) (.inl htidy)
  · exact parse_written_condition hparse (by simp [Tree.conditions, Tree.allConditions])
      (.inr ⟨_, rfl⟩)

end ListingFilter
