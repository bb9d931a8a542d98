import PackageIndex.Calendar
import PackageIndex.Command.Arguments
import PackageIndex.Command.Edit
import PackageIndex.Command.Program
import PackageIndex.Command.Question
import PackageIndex.Json.Number
import PackageIndex.Json.Quoted
import PackageIndex.Json.Scan
import PackageIndex.Json.Shape
import PackageIndex.Json.Skip
import PackageIndex.Log.Directive
import PackageIndex.Log.Event
import PackageIndex.Log.Filter
import PackageIndex.Log.Line
import PackageIndex.Log.Pattern
import PackageIndex.Log.Pattern.Basic
import PackageIndex.Log.Pattern.Choice
import PackageIndex.Log.Pattern.Group
import PackageIndex.Main
import PackageIndex.Number.Binary64
import PackageIndex.Number.Layout
import PackageIndex.Number.Shortest
import PackageIndex.Path
import PackageIndex.Range.Alternative
import PackageIndex.Range.Basic
import PackageIndex.Range.Comparator
import PackageIndex.Refusal
import PackageIndex.Revision.Basic
import PackageIndex.Revision.Catalog
import PackageIndex.Revision.Ledger
import PackageIndex.Revision.Persisted
import PackageIndex.Revision.Store
import PackageIndex.Settings
import PackageIndex.Text.Alphanumeric
import PackageIndex.Text.Basic
import PackageIndex.Text.Blank
import PackageIndex.Text.Bytes
import PackageIndex.Text.Inspect
import PackageIndex.Text.Numeral
import PackageIndex.Text.Unseen
import PackageIndex.Version.Basic
import PackageIndex.Version.Bound
import PackageIndex.Version.Component
import PackageIndex.Version.Nesting
import PackageIndex.Version.Order
import PackageIndex.Proofs.Number.Rounding
import PackageIndex.Proofs.Number.Shortest
import PackageIndex.Proofs.Json.Scaled
import PackageIndex.Proofs.Json.Spelling
import PackageIndex.Proofs.Revision.Time
import PackageIndex.Proofs.Json.Quoted
import PackageIndex.Proofs.Json.Reading
import PackageIndex.Proofs.Json.Yields
import PackageIndex.Proofs.Revision.Contents
import PackageIndex.Proofs.Revision.RoundTrip
import PackageIndex.Proofs.Revision.Shelf
import PackageIndex.Proofs.Revision.Refinement
import PackageIndex.Proofs.Text.Pieces
import PackageIndex.Proofs.Version.Bound
import PackageIndex.Proofs.Version.Preorder
import PackageIndex.Proofs.Version.Gap
import PackageIndex.Proofs.Range.Bars
import PackageIndex.Proofs.Range.Words
import PackageIndex.Proofs.Range.Pinned
import PackageIndex.Proofs.Range.Shorthand
import PackageIndex.Proofs.Range.Complement
import PackageIndex.Proofs.Range.Dashes
import PackageIndex.Proofs.Range.OptIn
import PackageIndex.Proofs.Revision.Kept
import PackageIndex.Proofs.Range.Composition
import PackageIndex.Proofs.Range.Malformed
import PackageIndex.Proofs.Range.Equality
import PackageIndex.Proofs.Version.Fed
import PackageIndex.Proofs.Version.Suffix
import PackageIndex.Proofs.Version.Padding
import PackageIndex.Proofs.Version.Digits
import PackageIndex.Proofs.Range.Resolution
import PackageIndex.Proofs.Range.Interval
import PackageIndex.Proofs.Revision.History
import PackageIndex.Proofs.Revision.Apart
import PackageIndex.Proofs.Revision.Distinct
import PackageIndex.Proofs.Revision.Unreadable
import PackageIndex.Proofs.Revision.Broken
import PackageIndex.Proofs.Revision.Chronology
import PackageIndex.Proofs.Command.Questions
import PackageIndex.Proofs.Command.Pipeline
import PackageIndex.Proofs.Range.Neutral
import PackageIndex.Proofs.Calendar.Days
import PackageIndex.Proofs.Calendar.Shown
import PackageIndex.Proofs.Revision.Listing
