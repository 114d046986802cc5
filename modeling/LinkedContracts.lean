import LinkedContracts.Builtin
import LinkedContracts.Compile
import LinkedContracts.Contract
import LinkedContracts.Dict
import LinkedContracts.Error
import LinkedContracts.Feed
import LinkedContracts.Filter
import LinkedContracts.Filter.Eval
import LinkedContracts.Filter.Sql
import LinkedContracts.Instant
import LinkedContracts.Json
import LinkedContracts.Json.Reader
import LinkedContracts.Json.Writer
import LinkedContracts.Kernel
import LinkedContracts.Kernel.Boot
import LinkedContracts.Kernel.Read
import LinkedContracts.Kernel.Session
import LinkedContracts.Kernel.Write
import LinkedContracts.Link
import LinkedContracts.Mask
import LinkedContracts.Numeric.Binary64
import LinkedContracts.Numeric.Shortest
import LinkedContracts.Numeric.Word
import LinkedContracts.Patch
import LinkedContracts.Pattern.CharSet
import LinkedContracts.Pattern.Regex
import LinkedContracts.Pattern.Syntax
import LinkedContracts.Plan
import LinkedContracts.Pointer
import LinkedContracts.Proofs.Builtin
import LinkedContracts.Proofs.Builtin.Types
import LinkedContracts.Proofs.Compile.Alike
import LinkedContracts.Proofs.Compile.Asked
import LinkedContracts.Proofs.Compile.Balanced
import LinkedContracts.Proofs.Compile.Definite
import LinkedContracts.Proofs.Compile.Grown
import LinkedContracts.Proofs.Compile.JoinNames
import LinkedContracts.Proofs.Compile.Keywords
import LinkedContracts.Proofs.Compile.Masked
import LinkedContracts.Proofs.Compile.Meaning
import LinkedContracts.Proofs.Compile.Planning
import LinkedContracts.Proofs.Compile.Success
import LinkedContracts.Proofs.Compile.Tree
import LinkedContracts.Proofs.Compile.Unseen
import LinkedContracts.Proofs.Compile.Ways
import LinkedContracts.Proofs.Compile.Yields
import LinkedContracts.Proofs.Contract
import LinkedContracts.Proofs.Contract.WellFormed
import LinkedContracts.Proofs.Dict
import LinkedContracts.Proofs.Faults
import LinkedContracts.Proofs.Feed
import LinkedContracts.Proofs.Feed.Subscriber
import LinkedContracts.Proofs.Filter.Answer
import LinkedContracts.Proofs.Filter.Collected
import LinkedContracts.Proofs.Filter.Condition
import LinkedContracts.Proofs.Filter.Covered
import LinkedContracts.Proofs.Filter.Definite
import LinkedContracts.Proofs.Filter.Found
import LinkedContracts.Proofs.Filter.Links
import LinkedContracts.Proofs.Filter.Pieces
import LinkedContracts.Proofs.Filter.Renamed
import LinkedContracts.Proofs.Instant
import LinkedContracts.Proofs.Instant.Order
import LinkedContracts.Proofs.Instant.Range
import LinkedContracts.Proofs.Json.Depth
import LinkedContracts.Proofs.Json.Integers
import LinkedContracts.Proofs.Json.Numbers
import LinkedContracts.Proofs.Json.Order
import LinkedContracts.Proofs.Json.Parts
import LinkedContracts.Proofs.Json.Rounded
import LinkedContracts.Proofs.Json.Text
import LinkedContracts.Proofs.Kernel.Administered
import LinkedContracts.Proofs.Kernel.Booted
import LinkedContracts.Proofs.Kernel.Bootstrapped
import LinkedContracts.Proofs.Kernel.Discerned
import LinkedContracts.Proofs.Kernel.Entitled
import LinkedContracts.Proofs.Kernel.Fitting
import LinkedContracts.Proofs.Kernel.Frame
import LinkedContracts.Proofs.Kernel.Guarded
import LinkedContracts.Proofs.Kernel.Harmless
import LinkedContracts.Proofs.Kernel.Hidden
import LinkedContracts.Proofs.Kernel.Installed
import LinkedContracts.Proofs.Kernel.Lasting
import LinkedContracts.Proofs.Kernel.Linked
import LinkedContracts.Proofs.Kernel.Logged
import LinkedContracts.Proofs.Kernel.Lookup
import LinkedContracts.Proofs.Kernel.Named
import LinkedContracts.Proofs.Kernel.Neighbours
import LinkedContracts.Proofs.Kernel.Opening
import LinkedContracts.Proofs.Kernel.Paged
import LinkedContracts.Proofs.Kernel.Patched
import LinkedContracts.Proofs.Kernel.Prepared
import LinkedContracts.Proofs.Kernel.Queried
import LinkedContracts.Proofs.Kernel.Reachable
import LinkedContracts.Proofs.Kernel.Readback
import LinkedContracts.Proofs.Kernel.Referred
import LinkedContracts.Proofs.Kernel.Relinked
import LinkedContracts.Proofs.Kernel.Replaced
import LinkedContracts.Proofs.Kernel.Replayed
import LinkedContracts.Proofs.Kernel.Stamped
import LinkedContracts.Proofs.Kernel.Stored
import LinkedContracts.Proofs.Kernel.Tallied
import LinkedContracts.Proofs.Kernel.Tied
import LinkedContracts.Proofs.Kernel.Undone
import LinkedContracts.Proofs.Kernel.Unread
import LinkedContracts.Proofs.Kernel.Visible
import LinkedContracts.Proofs.Kernel.Withheld
import LinkedContracts.Proofs.Mask
import LinkedContracts.Proofs.Mask.Accepted
import LinkedContracts.Proofs.Numeric.Rounding
import LinkedContracts.Proofs.Patch.Absent
import LinkedContracts.Proofs.Patch.Added
import LinkedContracts.Proofs.Patch.Frame
import LinkedContracts.Proofs.Patch.Kept
import LinkedContracts.Proofs.Patch.Partial
import LinkedContracts.Proofs.Pattern
import LinkedContracts.Proofs.Pointer
import LinkedContracts.Proofs.Pointer.Written
import LinkedContracts.Proofs.Query.Attached
import LinkedContracts.Proofs.Query.Created
import LinkedContracts.Proofs.Query.Displayed
import LinkedContracts.Proofs.Query.Distinct
import LinkedContracts.Proofs.Query.Entries
import LinkedContracts.Proofs.Query.Images
import LinkedContracts.Proofs.Query.Joins
import LinkedContracts.Proofs.Query.Listed
import LinkedContracts.Proofs.Query.Named
import LinkedContracts.Proofs.Query.Order
import LinkedContracts.Proofs.Query.Ordered
import LinkedContracts.Proofs.Query.Paging
import LinkedContracts.Proofs.Query.Pieces
import LinkedContracts.Proofs.Query.Run
import LinkedContracts.Proofs.Query.Sites
import LinkedContracts.Proofs.Query.Sorted
import LinkedContracts.Proofs.Query.Statement
import LinkedContracts.Proofs.Schema.Columns
import LinkedContracts.Proofs.Schema.Document
import LinkedContracts.Proofs.Schema.Induction
import LinkedContracts.Proofs.Schema.Reading
import LinkedContracts.Proofs.Selection
import LinkedContracts.Proofs.Selection.Implied
import LinkedContracts.Proofs.Selection.Paths
import LinkedContracts.Proofs.Sql.Condition
import LinkedContracts.Proofs.Sql.Mentions
import LinkedContracts.Proofs.Sql.Ordering
import LinkedContracts.Proofs.Sql.Pieces
import LinkedContracts.Proofs.Sql.Tokens
import LinkedContracts.Proofs.Sql.Written
import LinkedContracts.Proofs.Stateful
import LinkedContracts.Proofs.Store.Announced
import LinkedContracts.Proofs.Store.Identity
import LinkedContracts.Proofs.Store.Images
import LinkedContracts.Proofs.Store.Neighbours
import LinkedContracts.Proofs.Store.Replaced
import LinkedContracts.Proofs.Store.Replayed
import LinkedContracts.Proofs.Store.Restamped
import LinkedContracts.Proofs.Store.Rows
import LinkedContracts.Proofs.Store.Stamps
import LinkedContracts.Proofs.Text.Split
import LinkedContracts.Proofs.Text.Words
import LinkedContracts.Proofs.Validation
import LinkedContracts.Proofs.Version
import LinkedContracts.Query
import LinkedContracts.Query.Masked
import LinkedContracts.Query.Options
import LinkedContracts.Query.Order
import LinkedContracts.Query.Row
import LinkedContracts.Query.Statement
import LinkedContracts.Reference
import LinkedContracts.Schema
import LinkedContracts.Schema.Document
import LinkedContracts.Selection
import LinkedContracts.Settings
import LinkedContracts.Sql.Quoted
import LinkedContracts.Sql.Tables
import LinkedContracts.Store
import LinkedContracts.Store.Run
import LinkedContracts.Store.Write
import LinkedContracts.Text.Case
import LinkedContracts.Text.Category
import LinkedContracts.Text.Class
import LinkedContracts.Text.Ranges
import LinkedContracts.Text.Script
import LinkedContracts.Text.Slug
import LinkedContracts.Text.Split
import LinkedContracts.Text.Words
import LinkedContracts.TextLibrary
import LinkedContracts.TextLibrary.AtHand
import LinkedContracts.Validation
import LinkedContracts.ValuePath
import LinkedContracts.Version
import LinkedContracts.View
