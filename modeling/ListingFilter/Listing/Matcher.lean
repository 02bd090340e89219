import ListingFilter.Listing.Basic
import ListingFilter.Query.Backend
import ListingFilter.Text.LowerCase

/-!
# Matcher — testing listings in memory

A backend whose queries are tests of listings. A chain of tests is read as query languages read a
chain of conditions: `AND` binds tighter than `OR`, so the chain is cut before each `OR`, and it
holds when all tests of one of the pieces hold.
-/

namespace ListingFilter

/-- A test of listings. -/
abbrev Matcher := Listing → Bool

namespace Operator

/-- The comparison operators' verdict on the order of two scalars; the others have none. -/
def accepts : Operator → Ordering → Bool
  | .equal, order => order == .eq
  | .notEqual, order => order != .eq
  | .greater, order => order == .gt
  | .less, order => order == .lt
  | .greaterOrEqual, order => order != .lt
  | .lessOrEqual, order => order != .gt
  | _, _ => false

end Operator

namespace Scalar

/-- The two scalars have an order that the operator accepts. -/
def compares (actual : Scalar) (operator : Operator) (expected : Scalar) : Bool :=
  (actual.compare? expected).any operator.accepts

/-- The written form of the pattern stands somewhere in that of the scalar, both in lower case. -/
def resembles (actual pattern : Scalar) : Bool :=
  Text.occursIn pattern.written.lower actual.written.lower

/-- The scalar passes the test: `LIKE` looks for the first scalar of the value as a pattern, `IN`
for an equal one, and the comparisons take the first. -/
def passes (actual : Scalar) (operator : Operator) (value : Value) : Bool :=
  match operator with
  | .like => value.scalars.head?.any actual.resembles
  | .isIn => value.scalars.any (actual.compares .equal)
  | operator => value.scalars.head?.any (actual.compares operator)

end Scalar

/-- The stored text and the first scalar of the value are both numbers, and they compare as the
operator asks. -/
def passesAsNumber (stored : Text) (operator : Operator) (value : Value) : Bool :=
  match Number.ofText? stored, value.scalars.head?.bind Scalar.asText? with
  | some actual, some text =>
    (Number.ofText? text).any fun expected =>
      (Scalar.number actual).compares operator (.number expected)
  | _, _ => false

/-- The row passes the test of a free attribute. -/
def AttributeRow.passes (row : AttributeRow) (operator : Operator) (value : Value)
    (numeric : Bool) : Bool :=
  if numeric then passesAsNumber row.value operator value
  else (Scalar.text row.value).passes operator value

/-- The linked labels pass the test of the listed ones. -/
def Membership.holds (membership : Membership) (linked listed : List Text) : Bool :=
  match membership with
  | .anyOf _ => linked.any listed.contains
  | .noneOf => !linked.any listed.contains
  | .exists => !linked.isEmpty

namespace Matcher

/-- The test that a probe asks for. -/
def ofProbe : Probe → Except QueryFault Matcher
  | .column name operator value =>
    match Column.ofName? name with
    | none => .error (.unknownColumn name)
    | some column =>
      .ok fun listing => (listing.value? column).any fun actual => actual.passes operator value
  | .linked link membership labels =>
    .ok fun listing => membership.holds (listing.labels link) labels
  | .attribute name operator value numeric =>
    .ok fun listing =>
      listing.attributes.any fun row => row.name == name && row.passes operator value numeric

/-- Both tests hold. -/
def both (a b : Matcher) : Matcher :=
  fun listing => a listing && b listing

/-- One of the tests holds. -/
def either (a b : Matcher) : Matcher :=
  fun listing => a listing || b listing

/-- Joins the tests of a chain: `AND` extends the piece at hand, and `OR` begins another. -/
def join : Matcher → List (Connective × Matcher) → Matcher
  | piece, [] => piece
  | piece, (.and, next) :: rest => join (piece.both next) rest
  | piece, (.or, next) :: rest => piece.either (join next rest)

/-- The backend whose queries are tests of listings. -/
def backend : Backend Unit Matcher where
  probe probe := liftM (ofProbe probe)
  combine chain := return join chain.first chain.rest

/-- The test that a tree stands for. -/
def ofTree (tree : Tree) : Except QueryFault Matcher :=
  ((tree.query backend).run.run () : Id _).1

/-- The test of a condition is that of its probe. -/
theorem ofTree_leaf (condition : Condition) :
    ofTree (.leaf condition) = (Probe.of condition).bind ofProbe := by
  change ((liftM (Probe.of condition) >>= backend.probe).run.run () : Id _).1 = _
  cases Probe.of condition with
  | error fault => rfl
  | ok probe => rfl

/-- The tests of the members of a group, or the fault of the leftmost that has one. -/
def ofMembers : List Member → Except QueryFault (List (Connective × Matcher))
  | [] => .ok []
  | (connective, tree) :: rest => do
    return (connective.getD .and, ← ofTree tree) :: (← ofMembers rest)

theorem run_queries (members : List Member) :
    ((Tree.queries backend members).run.run () : Id _) = (ofMembers members, ()) := by
  induction members with
  | nil => rfl
  | cons member rest ih =>
    obtain ⟨connective, tree⟩ := member
    have first : ((Tree.query backend tree).run.run () : Id _) = (ofTree tree, ()) := rfl
    simp only [Tree.queries, ofMembers]
    simp only [ExceptT.run_bind, StateT.run_bind, first]
    cases ofTree tree with
    | error fault => rfl
    | ok query =>
      change ((Tree.queries backend rest >>= fun rest => _).run.run () : Id _) = _
      simp only [ExceptT.run_bind, StateT.run_bind, ih]
      cases ofMembers rest with
      | error fault => rfl
      | ok queries => rfl

/-- The test of a group joins the tests of its members. -/
theorem ofTree_group (members : List Member) :
    ofTree (.group members) = (ofMembers members).bind fun
      | [] => .error .emptyGroup
      | (_, first) :: rest => .ok (join first rest) := by
  change ((Tree.queries backend members >>= Tree.combineMembers backend).run.run () : Id _).1 = _
  simp only [ExceptT.run_bind, StateT.run_bind, run_queries]
  cases ofMembers members with
  | error fault => rfl
  | ok queries => cases queries <;> rfl

/-- The positions of the listings that pass. -/
def positions (matcher : Matcher) (listings : List Listing) : List Nat :=
  listings.zipIdx.filterMap fun (listing, position) =>
    if matcher listing then some position else none

end Matcher

end ListingFilter
