import ListingFilter.Value.Basic
import ListingFilter.Field

/-!
# Listing — a job listing held in memory

A listing has eleven columns, the labels of its linked records, and rows of free attributes. A
column without a value has none to compare with.
-/

namespace ListingFilter

/-- A row of a free attribute; the value is stored as a text. -/
structure AttributeRow where
  name : Text
  value : Text
deriving DecidableEq, Repr

/-- A job listing. -/
structure Listing where
  title : Text := []
  description : Text := []
  companyName : Text := []
  salaryMin : Option Number := none
  salaryMax : Option Number := none
  isRemote : Bool := false
  jobType : Text := []
  status : Text := []
  publishedAt : Option Instant := none
  createdAt : Option Instant := none
  updatedAt : Option Instant := none
  languages : List Text := []
  locations : List Text := []
  categories : List Text := []
  attributes : List AttributeRow := []
deriving DecidableEq, Repr

/-- The columns of a listing. -/
inductive Column where
  | title
  | description
  | companyName
  | salaryMin
  | salaryMax
  | isRemote
  | jobType
  | status
  | publishedAt
  | createdAt
  | updatedAt
deriving DecidableEq, Repr

namespace Column

/-- Every column. -/
def all : List Column :=
  [.title, .description, .companyName, .salaryMin, .salaryMax, .isRemote, .jobType, .status,
    .publishedAt, .createdAt, .updatedAt]

/-- The field token of the column. -/
def name : Column → Text
  | .title => "title".toList
  | .description => "description".toList
  | .companyName => "company_name".toList
  | .salaryMin => "salary_min".toList
  | .salaryMax => "salary_max".toList
  | .isRemote => "is_remote".toList
  | .jobType => "job_type".toList
  | .status => "status".toList
  | .publishedAt => "published_at".toList
  | .createdAt => "created_at".toList
  | .updatedAt => "updated_at".toList

/-- The column with this name. -/
def ofName? (name : Text) : Option Column :=
  all.find? fun column => column.name == name

@[simp] theorem ofName?_name (column : Column) : ofName? column.name = some column := by
  cases column <;> rfl

theorem name_of_ofName? {name : Text} {column : Column} (found : ofName? name = some column) :
    column.name = name := by
  simpa using List.find?_some found

end Column

namespace Listing

/-- The value of a column. -/
def value? (listing : Listing) : Column → Option Scalar
  | .title => some (.text listing.title)
  | .description => some (.text listing.description)
  | .companyName => some (.text listing.companyName)
  | .salaryMin => listing.salaryMin.map .number
  | .salaryMax => listing.salaryMax.map .number
  | .isRemote => some (.boolean listing.isRemote)
  | .jobType => some (.text listing.jobType)
  | .status => some (.text listing.status)
  | .publishedAt => listing.publishedAt.map .instant
  | .createdAt => listing.createdAt.map .instant
  | .updatedAt => listing.updatedAt.map .instant

/-- The labels of the linked records of one kind. -/
def labels (listing : Listing) : Link → List Text
  | .languages => listing.languages
  | .locations => listing.locations
  | .categories => listing.categories

end Listing

end ListingFilter
