import ContentRepository.Table
import ContentRepository.Table.Lemmas
import ContentRepository.Numbered
import ContentRepository.Numbered.Lemmas
import ContentRepository.Text.CodeRanges
import ContentRepository.Text.Alphabetic
import ContentRepository.Text.Numeric
import ContentRepository.Text.Blank
import ContentRepository.Text.Extending
import ContentRepository.Text.Invisible
import ContentRepository.Text.Quoted
import ContentRepository.Text.Words
import ContentRepository.Number.Binary64
import ContentRepository.Number.Shortest
import ContentRepository.Number.Layout
import ContentRepository.Time.Calendar
import ContentRepository.Time.Instant
import ContentRepository.Time.Stamp
import ContentRepository.Json.Basic
import ContentRepository.Json.Number
import ContentRepository.Json.Read
import ContentRepository.Json.Write
import ContentRepository.Value.Basic
import ContentRepository.Value.Order
import ContentRepository.Value.Json
import ContentRepository.Document.Field
import ContentRepository.Document.Basic
import ContentRepository.Document.Text
import ContentRepository.Document.Json
import ContentRepository.Document.Lemmas
import ContentRepository.Query.Expression
import ContentRepository.Query.Like
import ContentRepository.Query.Ordering
import ContentRepository.Query.Page
import ContentRepository.Query.Fault
import ContentRepository.Query.Token
import ContentRepository.Query.Scan
import ContentRepository.Query.Parse
import ContentRepository.Query.Run
import ContentRepository.Store.Error
import ContentRepository.Store.Shelf
import ContentRepository.Store.Basic
import ContentRepository.Store.Call
import ContentRepository.Store.Lemmas
import ContentRepository.Policy.Basic
import ContentRepository.Policy.Value
import ContentRepository.Policy.Lemmas
import ContentRepository.Ids
import ContentRepository.Error
import ContentRepository.Config
import ContentRepository.Fulltext.Job
import ContentRepository.Fulltext.Queue
import ContentRepository.Session.Basic
import ContentRepository.Session.Access
import ContentRepository.Session.Tree
import ContentRepository.Session.Version
import ContentRepository.Session.Proxy
import ContentRepository.Session.Commit
import ContentRepository.Session.Call
import ContentRepository.Transaction.Manager
import ContentRepository.Transaction.Scope
import ContentRepository.Repository.Basic
import ContentRepository.Repository.Host
import ContentRepository.Repository.Scenario
import ContentRepository.Proofs.Table.Building
import ContentRepository.Proofs.Text.Digits
import ContentRepository.Proofs.Text.Words
import ContentRepository.Proofs.Number.Rounding
import ContentRepository.Proofs.Time.Calendar
import ContentRepository.Proofs.Time.Stamps
import ContentRepository.Proofs.Json.Strings
import ContentRepository.Proofs.Json.Literals
import ContentRepository.Proofs.Json.Doubles
import ContentRepository.Proofs.Json.Trees
import ContentRepository.Proofs.Value.Ordering
import ContentRepository.Proofs.Value.Coding
import ContentRepository.Proofs.Document.Coding
import ContentRepository.Proofs.Query.Grammar
import ContentRepository.Proofs.Query.Wildcards
import ContentRepository.Proofs.Query.Cursors
import ContentRepository.Proofs.Query.Parsing
import ContentRepository.Proofs.Query.Scanning
import ContentRepository.Proofs.Query.Comparisons
import ContentRepository.Proofs.Query.OrderTexts
import ContentRepository.Proofs.Query.Sorting
import ContentRepository.Proofs.Query.Writing
import ContentRepository.Proofs.Query.Paging
import ContentRepository.Proofs.Query.Ranges
import ContentRepository.Proofs.Query.Lookups
import ContentRepository.Proofs.Store.Reading
import ContentRepository.Proofs.Store.Filing
import ContentRepository.Proofs.Store.Loading
import ContentRepository.Proofs.Store.Provisions
import ContentRepository.Proofs.Store.Keeping
import ContentRepository.Proofs.Store.Refusing
import ContentRepository.Proofs.Policy.Coding
import ContentRepository.Proofs.Policy.Merging
import ContentRepository.Proofs.Policy.Decrees
import ContentRepository.Proofs.Session.Closing
import ContentRepository.Proofs.Session.Checks
import ContentRepository.Proofs.Session.Planned
import ContentRepository.Proofs.Session.Writing
import ContentRepository.Proofs.Session.Frame
import ContentRepository.Proofs.Session.Revising
import ContentRepository.Proofs.Session.Stopping
import ContentRepository.Proofs.Session.Planning
import ContentRepository.Proofs.Session.Amending
import ContentRepository.Proofs.Tree.Agreement
import ContentRepository.Proofs.Tree.Links
import ContentRepository.Proofs.Tree.Shape
import ContentRepository.Proofs.Tree.Coherence
import ContentRepository.Proofs.Tree.Grafting
import ContentRepository.Proofs.Tree.Contents
import ContentRepository.Proofs.Tree.Growth
import ContentRepository.Proofs.Tree.Moving
import ContentRepository.Proofs.Tree.Removal
import ContentRepository.Proofs.Tree.Copying
import ContentRepository.Proofs.Tree.Runs
import ContentRepository.Proofs.Tree.Amendments
import ContentRepository.Proofs.Tree.Remaining
import ContentRepository.Proofs.Tree.Replicas
import ContentRepository.Proofs.Tree.Returning
import ContentRepository.Proofs.Tree.Additions
import ContentRepository.Proofs.Tree.Failures
import ContentRepository.Proofs.Versions.Numbers
import ContentRepository.Proofs.Versions.CheckIn
import ContentRepository.Proofs.Versions.Annals
import ContentRepository.Proofs.Versions.Snapshots
import ContentRepository.Proofs.Versions.Lasting
import ContentRepository.Proofs.Versions.History
import ContentRepository.Proofs.Fulltext.Threads
import ContentRepository.Proofs.Fulltext.Counting
import ContentRepository.Proofs.Fulltext.Emptying
import ContentRepository.Proofs.Fulltext.Texts
import ContentRepository.Proofs.Fulltext.Marking
import ContentRepository.Proofs.Fulltext.Queueing
import ContentRepository.Proofs.Fulltext.Filling
import ContentRepository.Proofs.Fulltext.Plans
import ContentRepository.Proofs.Fulltext.Convergence
import ContentRepository.Proofs.Fulltext.Submitting
import ContentRepository.Proofs.Fulltext.Diary
import ContentRepository.Proofs.Transaction.Firing
import ContentRepository.Proofs.Transaction.History
import ContentRepository.Proofs.Transaction.Completion
import ContentRepository.Proofs.Transaction.Scoping
import ContentRepository.Proofs.Repository.Contexts
import ContentRepository.Proofs.Repository.Books
import ContentRepository.Proofs.Repository.Grants
import ContentRepository.Proofs.Repository.Ledger
import ContentRepository.Proofs.Repository.Handles
import ContentRepository.Proofs.Repository.Additions
import ContentRepository.Proofs.Repository.Workers
