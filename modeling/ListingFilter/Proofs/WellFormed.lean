import ListingFilter.Proofs.Clauses
import ListingFilter.Proofs.Shape

/-!
# Well-formed conditions — what every tree that is read consists of

The types admit conditions that no filter stands for, such as a list for a comparison, or a proviso
where there is nothing to count or to cast. `Condition.WellFormed` says what the conditions of filters
are like. It holds of every condition that is read (`Condition.wellFormed_of_read`), and so of every
condition of a tree that is read, whatever the settings (`Settings.wellFormed_of_parse`).
-/

namespace ListingFilter

/-! ## What a value is like -/

/-- The columns whose type is given by their full name. -/
def ScalarType.namedColumns : List Text :=
  ["salary_min".toList, "salary_max".toList, "is_remote".toList, "job_type".toList,
    "status".toList]

/-- The scalar is of the type that the name of a column asks for. -/
inductive Scalar.FitsColumn (name : Text) : Scalar → Prop where
  | salary {value : Number} : name = "salary_min".toList ∨ name = "salary_max".toList →
      value.isFinite → FitsColumn name (.number value)
  | remote {flag : Bool} : name = "is_remote".toList → FitsColumn name (.boolean flag)
  | choice {content : Text} : name = "job_type".toList ∨ name = "status".toList →
      FitsColumn name (.text content)
  | moment {value : Instant} : name ∉ ScalarType.namedColumns → "_at".toList <:+: name →
      FitsColumn name (.instant value)
  | other {content : Text} : name ∉ ScalarType.namedColumns → ¬ "_at".toList <:+: name →
      FitsColumn name (.text content)

/-- The value is of the kind that the field and the operator ask for. -/
inductive Value.Suits : Field → Operator → Value → Prop where
  | labels {link : Link} {operator : Operator} (texts : List Text) :
      Suits (.relationship link) operator (.list (texts.map .text))
  | rows {name : Text} (texts : List Text) :
      Suits (.attribute name) .isIn (.list (texts.map .text))
  | row {name : Text} {operator : Operator} (content : Text) : operator ≠ .isIn →
      Suits (.attribute name) operator (.single (.text content))
  | pattern {name : Text} (content : Text) :
      Suits (.standard name) .like (.single (.text content))
  | choices {name : Text} {items : List Scalar} : (∀ scalar ∈ items, scalar.FitsColumn name) →
      Suits (.standard name) .isIn (.list items)
  | comparison {name : Text} {operator : Operator} {scalar : Scalar} : operator ≠ .like →
      operator ≠ .isIn → scalar.FitsColumn name →
      Suits (.standard name) operator (.single scalar)

/-- What the conditions of filters are like. -/
structure Condition.WellFormed (condition : Condition) : Prop where
  token_ne_nil : condition.field.token ≠ []
  token_tight : condition.field.token.Tight
  /-- A name that stands for linked records or a free attribute is not taken for a column. -/
  column : ∀ name, condition.field = .standard name →
    (∀ link : Link, name ≠ link.name) ∧ ¬ Field.attributeMark <+: name
  allows : condition.field.kind.allows condition.operator
  suits : condition.value.Suits condition.field condition.operator
  texts : ∀ content : Text, .text content ∈ condition.value.scalars → content ≠ [] ∧ content.Tight
  no_comma : ∀ items, condition.value = .list items →
    ∀ content : Text, .text content ∈ items → ',' ∉ content
  empty_list : condition.value = .list [] → condition.operator = .exists
  countGuard : condition.proviso = some .countGuard ↔
    (∃ link, condition.field = .relationship link) ∧ condition.operator = .hasAny
  numericCast : condition.proviso = some .numericCast ↔
    (∃ name, condition.field = .attribute name) ∧ condition.operator.isOrdering
  /-- What is to be compared as a number stands for one. -/
  numeric : condition.proviso = some .numericCast → ∃ content number,
    condition.value = .single (.text content) ∧ Number.ofText? content = some number ∧
      number.isFinite

/-! ## Fields and operators -/

/-- A token that names a column names nothing else. -/
theorem Field.column_of_ofToken {token name : Text} (h : ofToken token = .standard name) :
    (∀ link : Link, name ≠ link.name) ∧ ¬ attributeMark <+: name := by
  unfold ofToken at h
  split at h
  · cases h
  · rename_i hmark
    split at h
    · cases h
    · rename_i hlink
      cases h
      constructor
      · rintro link rfl
        simp at hlink
      · rintro ⟨rest, hstart⟩
        rw [Text.afterStart?_eq_some_iff.2 hstart.symm] at hmark
        cases hmark

/-- Of the operators that take a list, columns and free attributes take only `IN`. -/
theorem FieldKind.expectsList_iff {kind : FieldKind} {operator : Operator}
    (h : kind.allows operator) (hkind : kind ≠ .relationship) :
    operator.expectsList ↔ operator = .isIn := by
  cases kind with
  | relationship => exact absurd rfl hkind
  | standard => cases operator <;> simp [Operator.expectsList] <;> cases h
  | «attribute» => cases operator <;> simp [Operator.expectsList] <;> cases h

/-! ## Values -/

/-- A scalar that is read for a column is of its type. -/
theorem Scalar.fitsColumn_of_read {name text : Text} {scalar : Scalar}
    (h : Scalar.read name text = .ok scalar) : scalar.FitsColumn name := by
  rcases read_eq_ok_iff.1 h with ⟨htype, hfrom⟩
  unfold ScalarType.ofColumn at htype
  split at htype
  · rename_i hsalary
    simp only [Bool.or_eq_true, decide_eq_true_eq] at hsalary
    cases scalar with
    | number value => exact .salary hsalary (Number.isFinite_of_ofText? hfrom)
    | _ => cases htype
  · rename_i hsalary
    simp only [Bool.or_eq_true, decide_eq_true_eq, not_or] at hsalary
    split at htype
    · rename_i hremote
      cases scalar with
      | boolean flag => exact .remote hremote
      | _ => cases htype
    · rename_i hremote
      by_cases hchoice : name = "job_type".toList ∨ name = "status".toList
      · -- neither of the two names asks for an instant
        have hmark : ¬ Text.occursIn "_at".toList name := by
          rcases hchoice with rfl | rfl <;> decide
        rw [if_neg hmark] at htype
        cases scalar with
        | text content => exact .choice hchoice
        | _ => cases htype
      · have hnamed : name ∉ ScalarType.namedColumns := by
          rw [not_or] at hchoice
          simp only [ScalarType.namedColumns, List.mem_cons, List.not_mem_nil, or_false, not_or]
          exact ⟨hsalary.1, hsalary.2, hremote, hchoice.1, hchoice.2⟩
        split at htype
        · rename_i hmark
          cases scalar with
          | instant value => exact .moment hnamed (Text.occursIn_iff.1 hmark)
          | _ => cases htype
        · rename_i hmark
          cases scalar with
          | text content => exact .other hnamed (mt Text.occursIn_iff.2 hmark)
          | _ => cases htype

namespace Value

variable {text : Text} {field : Field} {operator : Operator} {value : Value}

/-- A value that is read is of the kind that the field and the operator ask for. -/
theorem suits_of_readStripped (hallows : field.kind.allows operator)
    (h : readStripped text field operator = .ok value) : value.Suits field operator := by
  cases field with
  | relationship link =>
    cases h
    exact .labels text.listItems
  | «attribute» name =>
    have hlist := FieldKind.expectsList_iff hallows (by simp [Field.kind])
    rw [readStripped] at h
    split at h
    · rename_i hexpects
      obtain rfl := hlist.1 hexpects
      cases h
      exact .rows text.listItems
    · rename_i hexpects
      cases h
      exact .row text (mt hlist.2 hexpects)
  | standard name =>
    have hlist := FieldKind.expectsList_iff hallows (by simp [Field.kind])
    rw [readStripped] at h
    split at h
    · rename_i hlike
      cases h
      rw [hlike]
      exact .pattern text
    · rename_i hlike
      split at h
      · rename_i hexpects
        rcases bind_eq_ok_iff.1 h with ⟨items, hitems, hsame⟩
        obtain rfl := hlist.1 hexpects
        cases hsame
        apply Suits.choices
        intro scalar hscalar
        rcases exists_of_mapM_eq_ok hitems hscalar with ⟨item, -, hitem⟩
        exact Scalar.fitsColumn_of_read hitem
      · rename_i hexpects
        rcases bind_eq_ok_iff.1 h with ⟨scalar, hscalar, hsame⟩
        cases hsame
        exact .comparison hlike (mt hlist.2 hexpects) (Scalar.fitsColumn_of_read hscalar)

/-- A text in a list that is read is an item of it. -/
theorem isItem_of_text {items : List Scalar} {content : Text}
    (h : readStripped text field operator = .ok (.list items)) (hmem : .text content ∈ items) :
    content.IsItem :=
  isItem_of_list h content (List.mem_map_of_mem (f := Scalar.written) hmem)

/-- A text in a value that is read is not empty and has no white space at its ends. -/
theorem text_of_read {content : Text} (hallows : field.kind.allows operator)
    (h : Value.read text field operator = .ok value) (hmem : .text content ∈ value.scalars) :
    content ≠ [] ∧ content.Tight := by
  cases value with
  | single scalar =>
    obtain rfl : .text content = scalar := List.mem_singleton.1 hmem
    exact tight_written hallows h
  | list items =>
    have hitem := isItem_of_text (read_eq_ok_iff.1 h).1 hmem
    exact ⟨hitem.ne_nil, hitem.tight⟩

end Value

/-! ## Provisos -/

/-- A value to be compared as a number is the one text that stands for it. -/
theorem Value.Suits.exists_number {name : Text} {operator : Operator} {value : Value}
    (h : value.Suits (.attribute name) operator) (hordering : operator.isOrdering)
    (hnumeric : value.isNumeric) : ∃ content number, value = .single (.text content) ∧
      Number.ofText? content = some number ∧ number.isFinite := by
  cases h with
  | rows texts => cases hordering
  | row content hoperator =>
    have hsome : (Number.ofText? content).isSome := by
      simpa [isNumeric, scalars, Scalar.asText?] using hnumeric
    rcases Option.isSome_iff_exists.1 hsome with ⟨number, hnumber⟩
    exact ⟨content, number, rfl, hnumber, Number.isFinite_of_ofText? hnumber⟩

namespace Proviso

variable {field : Field} {operator : Operator} {value : Value} {proviso : Option Proviso}

/-- Linked records are counted, numbers are cast, and nothing else needs a proviso. -/
theorem cases_of_find? (h : find? field operator value = .ok proviso) :
    (∃ link, field = .relationship link) ∧ operator = .hasAny ∧ proviso = some .countGuard ∨
    (∃ name, field = .attribute name) ∧ operator.isOrdering ∧ value.isNumeric ∧
      proviso = some .numericCast ∨
    ¬ ((∃ link, field = .relationship link) ∧ operator = .hasAny) ∧
      ¬ ((∃ name, field = .attribute name) ∧ operator.isOrdering) ∧ proviso = none := by
  cases field with
  | standard name =>
    cases h
    simp
  | relationship link =>
    by_cases hany : operator = .hasAny
    · rw [find?, if_pos hany] at h
      cases h
      exact .inl ⟨⟨link, rfl⟩, hany, rfl⟩
    · rw [find?, if_neg hany] at h
      cases h
      simp [hany]
  | «attribute» name =>
    by_cases hordering : operator.isOrdering
    · rw [find?, if_pos hordering] at h
      split at h
      · rename_i hnumeric
        cases h
        exact .inr (.inl ⟨⟨name, rfl⟩, hordering, hnumeric, rfl⟩)
      · cases h
    · rw [find?, if_neg hordering] at h
      cases h
      simp [hordering]

theorem countGuard_iff (h : find? field operator value = .ok proviso) :
    proviso = some .countGuard ↔ (∃ link, field = .relationship link) ∧ operator = .hasAny := by
  rcases cases_of_find? h with ⟨hlink, hany, rfl⟩ | ⟨⟨name, rfl⟩, -, -, rfl⟩ | ⟨hnot, -, rfl⟩
  · simp [hlink, hany]
  · simp
  · simpa using hnot

theorem numericCast_iff (h : find? field operator value = .ok proviso) :
    proviso = some .numericCast ↔ (∃ name, field = .attribute name) ∧ operator.isOrdering := by
  rcases cases_of_find? h with ⟨⟨link, rfl⟩, -, rfl⟩ | ⟨hname, hordering, -, rfl⟩ | ⟨-, hnot, rfl⟩
  · simp
  · simp [hname, hordering]
  · simpa using hnot

/-- What is to be compared as numbers is numeric. -/
theorem isNumeric_of_numericCast (h : find? field operator value = .ok (some .numericCast)) :
    value.isNumeric := by
  rcases cases_of_find? h with ⟨-, -, hcast⟩ | ⟨-, -, hnumeric, -⟩ | ⟨-, -, hcast⟩
  · cases hcast
  · exact hnumeric
  · cases hcast

end Proviso

/-! ## Conditions and trees -/

/-- Every condition that is read is well-formed. -/
theorem Condition.wellFormed_of_read {text : Text} {condition : Condition}
    (h : Condition.read text = .ok condition) : condition.WellFormed := by
  rcases read_eq_ok_iff.1 h with ⟨clause, -, hfield, -, hallows, hvalue, hproviso⟩
  rcases exists_of_read h with ⟨before, after, -, -, hbefore, htoken, -, -⟩
  rcases Value.read_eq_ok_iff.1 hvalue with ⟨hstripped, hempty⟩
  have hsuits := Value.suits_of_readStripped hallows hstripped
  refine ⟨?_, ?_, ?_, hallows, hsuits, ?_, ?_, ?_, Proviso.countGuard_iff hproviso,
    Proviso.numericCast_iff hproviso, ?_⟩
  · rw [htoken]
    exact mt Text.trim_eq_nil_iff.1 hbefore
  · rw [htoken]
    exact Text.tight_trim before
  · intro name hname
    exact Field.column_of_ofToken (hfield.symm.trans hname)
  · intro content hmem
    exact Value.text_of_read hallows hvalue hmem
  · intro items hitems content hmem
    rw [hitems] at hstripped
    exact (Value.isItem_of_text hstripped hmem).no_comma
  · intro hnil
    rw [hnil] at hempty
    exact hempty.resolve_right fun hvalue => hvalue.2 rfl
  · intro hcast
    rcases (Proviso.numericCast_iff hproviso).1 hcast with ⟨⟨name, hname⟩, hordering⟩
    rw [hcast] at hproviso
    rw [hname] at hsuits
    exact hsuits.exists_number hordering (Proviso.isNumeric_of_numericCast hproviso)

/-- Whatever the settings, in a tree that is read the members of every group are joined as in a
filter, and every condition is well-formed. -/
theorem Settings.wellFormed_of_parse {settings : Settings} {text : Text} {tree : Tree}
    (h : settings.parse text = .ok tree) : tree.Shaped Condition.WellFormed := by
  apply (derives_of_parse h).shaped.imp
  intro condition _ hatomic
  rcases hatomic with ⟨atom, -, hread⟩
  exact Condition.wellFormed_of_read hread

/-- The tree of `languages HAS_ANY (PHP, Rust) AND (attribute:years >= 5 OR locations EXISTS)`. -/
def Tree.experience : Tree :=
  .group [
    (none, .leaf ⟨.relationship .languages, .hasAny, .list [.text "PHP".toList, .text "Rust".toList],
      some .countGuard⟩),
    (some .and, .group [
      (none, .leaf ⟨.attribute "years".toList, .greaterOrEqual, .single (.text "5".toList),
        some .numericCast⟩),
      (some .or, .leaf ⟨.relationship .locations, .exists, .list [], none⟩)])]

/-- Both provisos, a list and an empty list. -/
theorem Settings.wellFormed_of_parse_experience :
    parse {} "languages HAS_ANY (PHP, Rust) AND (attribute:years >= 5 OR locations EXISTS)".toList =
        .ok Tree.experience ∧
      Tree.experience.Shaped Condition.WellFormed := by
  have hparse :
      parse {} "languages HAS_ANY (PHP, Rust) AND (attribute:years >= 5 OR locations EXISTS)".toList =
        .ok Tree.experience := by
    decide +kernel
  exact ⟨hparse, wellFormed_of_parse hparse⟩

end ListingFilter
