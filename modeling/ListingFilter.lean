import ListingFilter.Journal
import ListingFilter.Query.Recorder
import ListingFilter.Listing.Matcher
import ListingFilter.Stream.Lookahead
import ListingFilter.Proofs.Splitting
import ListingFilter.Proofs.Grammar
import ListingFilter.Proofs.Conditions
import ListingFilter.Proofs.Rendering
import ListingFilter.Proofs.Comparison
import ListingFilter.Proofs.Denotation
import ListingFilter.Proofs.NumberText
import ListingFilter.Proofs.Occurrence
import ListingFilter.Proofs.Calendar
import ListingFilter.Proofs.InstantReading
import ListingFilter.Proofs.InstantText
import ListingFilter.Proofs.Items
import ListingFilter.Proofs.Values
import ListingFilter.Proofs.Clauses
import ListingFilter.Proofs.Rereading
import ListingFilter.Proofs.Joining
import ListingFilter.Proofs.Roundtrip
import ListingFilter.Proofs.Faults
import ListingFilter.Proofs.Limits
import ListingFilter.Proofs.WellFormed
import ListingFilter.Proofs.Grouping
import ListingFilter.Proofs.Concatenation
import ListingFilter.Proofs.Imbalance
import ListingFilter.Proofs.Queries
import ListingFilter.Proofs.Welding
import ListingFilter.Proofs.Spacing
import ListingFilter.Proofs.Adjacency
import ListingFilter.Proofs.Severances
import ListingFilter.Proofs.Leaves
import ListingFilter.Proofs.Alternatives
import ListingFilter.Proofs.Memberships
import ListingFilter.Proofs.Columns
import ListingFilter.Proofs.Casing
import ListingFilter.Proofs.Scanning
import ListingFilter.Proofs.Postorder
import ListingFilter.Proofs.Encoding
import ListingFilter.Proofs.ReadingAhead
import ListingFilter.Proofs.Casts
import ListingFilter.Proofs.Layouts
import ListingFilter.Proofs.Orderings
import ListingFilter.Proofs.Sameness
import ListingFilter.Proofs.Groups
import ListingFilter.Proofs.Capitals
import ListingFilter.Proofs.Streaming
