import ListingFilter.Operator

/-!
# Field — what a condition is about

A field token names a column of the listing, one of the three kinds of linked records, or, behind
`attribute:`, a free attribute. The spelling of the token alone decides which, and the kind of the
field decides which operators it takes.
-/

namespace ListingFilter

/-- A kind of record that listings are linked to. -/
inductive Link where
  | languages
  | locations
  | categories
deriving DecidableEq, Repr

namespace Link

/-- Every kind of linked record. -/
def all : List Link :=
  [.languages, .locations, .categories]

/-- The field token. -/
def name : Link → Text
  | .languages => "languages".toList
  | .locations => "locations".toList
  | .categories => "categories".toList

/-- The column of the linked record that labels are compared with. -/
def labelColumn : Link → Text
  | .locations => "city".toList
  | .languages | .categories => "name".toList

/-- The kind of linked record with this name. -/
def ofName? (name : Text) : Option Link :=
  all.find? fun link => link.name == name

@[simp] theorem ofName?_name (link : Link) : ofName? link.name = some link := by
  cases link <;> rfl

theorem name_of_ofName? {name : Text} {link : Link} (found : ofName? name = some link) :
    link.name = name := by
  simpa using List.find?_some found

end Link

/-- The three kinds of fields. -/
inductive FieldKind where
  | standard
  | relationship
  | attribute
deriving DecidableEq, Repr

namespace FieldKind

/-- The word for the kind in messages. -/
def name : FieldKind → Text
  | .standard => "standard".toList
  | .relationship => "relationship".toList
  | .attribute => "attribute".toList

/-- The operators that fields of this kind take. -/
def operators : FieldKind → List Operator
  | .standard | .attribute =>
    [.equal, .notEqual, .greater, .less, .greaterOrEqual, .lessOrEqual, .like, .isIn]
  | .relationship => [.equal, .isAny, .hasAny, .notEqual, .exists]

/-- Fields of this kind take the operator. -/
def allows (kind : FieldKind) (operator : Operator) : Bool :=
  kind.operators.contains operator

end FieldKind

/-- What a condition is about. -/
inductive Field where
  /-- A column of the listing itself. -/
  | standard (name : Text)
  /-- The labels of linked records. -/
  | relationship (link : Link)
  /-- The rows of a free attribute. -/
  | attribute (name : Text)
deriving DecidableEq, Repr

namespace Field

/-- What marks the name of a free attribute. -/
def attributeMark : Text :=
  "attribute:".toList

/-- The field that a token names. -/
def ofToken (token : Text) : Field :=
  match attributeMark.afterStart? token with
  | some name => .attribute name
  | none =>
    match Link.ofName? token with
    | some link => .relationship link
    | none => .standard token

/-- The token that names the field. -/
def token : Field → Text
  | .standard name => name
  | .relationship link => link.name
  | .attribute name => attributeMark ++ name

/-- A field is named by the token that it was read from. -/
@[simp] theorem token_ofToken (text : Text) : (ofToken text).token = text := by
  simp only [ofToken]
  split
  · rename_i name marked
    exact (Text.afterStart?_eq_some_iff.1 marked).symm
  · split
    · rename_i link found
      exact Link.name_of_ofName? found
    · rfl

/-- The kind of the field. -/
def kind : Field → FieldKind
  | .standard _ => .standard
  | .relationship _ => .relationship
  | .attribute _ => .attribute

end Field

end ListingFilter
