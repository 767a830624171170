import GridStream.Calendar.Date
import GridStream.Calendar.DateText
import GridStream.Calendar.DurationText
import GridStream.Calendar.Instant
import GridStream.Calendar.Pattern
import GridStream.Calendar.Span
import GridStream.Catalog
import GridStream.Command.Listing
import GridStream.Command.Options
import GridStream.Command.Request
import GridStream.Command.Run
import GridStream.Command.Summary
import GridStream.Config.Basic
import GridStream.Config.Check
import GridStream.Config.File
import GridStream.Config.Layer
import GridStream.Decimal.Binary
import GridStream.Decimal.Round
import GridStream.Decimal.Scientific
import GridStream.Decimal.Shortest
import GridStream.Derivation
import GridStream.Document.Basic
import GridStream.Document.DatasetText
import GridStream.Document.Json.Reader
import GridStream.Document.Json.Writer
import GridStream.Document.Yaml.Input
import GridStream.Document.Yaml.Node
import GridStream.Document.Yaml.Page
import GridStream.Document.Yaml.Reader
import GridStream.Document.Yaml.Scalar
import GridStream.Document.Yaml.Token
import GridStream.Document.Yaml.Writer
import GridStream.Failure
import GridStream.Files
import GridStream.Grid.Basic
import GridStream.Grid.Meteorology
import GridStream.Grid.Summary
import GridStream.Journal
import GridStream.LandUse.Classes
import GridStream.LandUse.Table
import GridStream.Logging
import GridStream.Main
import GridStream.ModelRun
import GridStream.Producer.Basic
import GridStream.Producer.World
import GridStream.Progress
import GridStream.Source
import GridStream.SpeciesGroup
import GridStream.Text.Base64
import GridStream.Text.Character
import GridStream.Text.Quoted
import GridStream.Text.Search
import GridStream.Value.Basic
import GridStream.Value.Text
import GridStream.Window
import GridStream.Proofs.Producer.World
import GridStream.Proofs.Producer.Tree
import GridStream.Proofs.Producer.Move
import GridStream.Proofs.Producer.Close
import GridStream.Proofs.Producer.Handles
import GridStream.Proofs.Calendar.Instant
import GridStream.Proofs.Window.Records
import GridStream.Proofs.Producer.Evaluation
import GridStream.Proofs.Producer.Reading
import GridStream.Proofs.Producer.Pull
import GridStream.Proofs.Producer.Run
import GridStream.Proofs.Producer.Steps
import GridStream.Proofs.Producer.Failing
import GridStream.Proofs.Calendar.DayNumber
import GridStream.Proofs.Text.Replace
import GridStream.Proofs.Calendar.DatedPath
import GridStream.Proofs.ModelRun.Places
import GridStream.Proofs.Producer.Answers
import GridStream.Proofs.Producer.Position
import GridStream.Proofs.Producer.Ending
import GridStream.Proofs.Producer.Exhaustion
import GridStream.Proofs.ModelRun.Accessor
import GridStream.Proofs.ModelRun.ErrorContract
import GridStream.Proofs.ModelRun.Aligned
import GridStream.Proofs.ModelRun.Session
import GridStream.Proofs.Decimal.Equality
import GridStream.Proofs.Value.Equality
import GridStream.Proofs.Value.Mapping
import GridStream.Proofs.Config.Merge
import GridStream.Proofs.Config.Groups
import GridStream.Proofs.Config.Layers
import GridStream.Proofs.Config.Precedence
import GridStream.Proofs.Config.Acceptance
import GridStream.Proofs.ModelRun.Making
import GridStream.Proofs.Config.Agreement
import GridStream.Proofs.ModelRun.Sources
import GridStream.Proofs.Command.Listing
import GridStream.Proofs.Document.Regular
import GridStream.Proofs.Config.Clash
import GridStream.Proofs.Config.Escape
import GridStream.Proofs.Config.Loading
import GridStream.Proofs.Document.Json.Text
import GridStream.Proofs.Document.Json.Number
import GridStream.Proofs.Document.Json.Tokens
import GridStream.Proofs.Value.Named
import GridStream.Proofs.Document.Json.RoundTrip
import GridStream.Proofs.Files
import GridStream.Proofs.Config.Completion
import GridStream.Proofs.Config.Reload
import GridStream.Proofs.Producer.Reopening
import GridStream.Proofs.Producer.Simulation
import GridStream.Proofs.ModelRun.Reporting
import GridStream.Proofs.Producer.Sought
import GridStream.Proofs.Logging
import GridStream.Proofs.Command.Progression
import GridStream.Proofs.Folders
import GridStream.Proofs.Routing
import GridStream.Proofs.ModelRun.Course
import GridStream.Proofs.Command.Summary
import GridStream.Proofs.Config.Refusal
import GridStream.Proofs.Command.Uncaught
import GridStream.Proofs.Window.Addresses
import GridStream.Proofs.Window.Advance
import GridStream.Proofs.Decimal.Exact
import GridStream.Proofs.Text.Runs
import GridStream.Proofs.Text.Digits
import GridStream.Proofs.Calendar.DurationGrammar
import GridStream.Proofs.Calendar.Duration
import GridStream.Proofs.Producer.Stepping
import GridStream.Proofs.Producer.FileOrder
import GridStream.Proofs.Calendar.DayOrder
import GridStream.Proofs.Calendar.DateDigits
import GridStream.Proofs.Grid.Cells
import GridStream.Proofs.Decimal.Nearest
import GridStream.Proofs.LandUse.Remap
import GridStream.Proofs.Grid.Heights
import GridStream.Proofs.Producer.Consulting
import GridStream.Proofs.Window.Midnight
import GridStream.Proofs.ModelRun.SingleRead
import GridStream.Proofs.Journal
import GridStream.Proofs.Progress
import GridStream.Proofs.SpeciesGroup
import GridStream.Proofs.Grid.Sums
import GridStream.Proofs.Producer.Members
import GridStream.Proofs.ModelRun.Aggregates
