import Grimoire.Source.Codec
import Grimoire.Source.Printer
import Grimoire.Event.Bus
import Grimoire.Session.Library
import Grimoire.Session.Sample
import Grimoire.Workflow.Creation
import Grimoire.Trigger.Builtin
import Grimoire.Failure
import Grimoire.Proofs.Workflow.FinalStatus
import Grimoire.Proofs.Source.Lexing
import Grimoire.Proofs.Source.Placement
import Grimoire.Proofs.Source.Readers
import Grimoire.Proofs.Source.Nesting
import Grimoire.Proofs.Source.Appending
import Grimoire.Proofs.Decimal.Words
import Grimoire.Proofs.Json.Compact
import Grimoire.Proofs.Source.Fragments
import Grimoire.Proofs.Source.Clauses
import Grimoire.Proofs.Source.RoundTrip
import Grimoire.Proofs.Workflow.Counting
import Grimoire.Proofs.Workflow.Turns
import Grimoire.Proofs.Workflow.Cancelling
import Grimoire.Proofs.Workflow.LeftBehind
import Grimoire.Proofs.Workflow.Ancestry
import Grimoire.Proofs.Workflow.Termination
import Grimoire.Proofs.Workflow.Evaluation
import Grimoire.Proofs.Workflow.Interference
import Grimoire.Proofs.Workflow.EventTrace
import Grimoire.Proofs.Trigger.Bookkeeping
import Grimoire.Proofs.Registry
import Grimoire.Proofs.Session.Interpreting
import Grimoire.Proofs.Source.Places
import Grimoire.Proofs.Session.Requests
import Grimoire.Proofs.Source.Joining
import Grimoire.Proofs.Source.Numerals
import Grimoire.Proofs.Source.DataText
import Grimoire.Proofs.Source.Literals
import Grimoire.Proofs.Decimal.Magnitude
import Grimoire.Proofs.Source.Origins
import Grimoire.Proofs.Source.Names
import Grimoire.Proofs.Source.Spelling
import Grimoire.Proofs.Source.Skipping
import Grimoire.Proofs.Source.Cursor
import Grimoire.Proofs.Source.Tracking
import Grimoire.Proofs.Source.Accounting
import Grimoire.Proofs.Source.Comments
import Grimoire.Proofs.Source.Forms
import Grimoire.Proofs.Source.Recovery
import Grimoire.Proofs.Source.Truncation
import Grimoire.Proofs.Trigger.Intervals
import Grimoire.Proofs.Text.Splitting
import Grimoire.Proofs.Trigger.CronSets
import Grimoire.Proofs.Source.Settings
import Grimoire.Proofs.Source.LastSettings
import Grimoire.Proofs.Trigger.CompiledExpressions
import Grimoire.Proofs.Template
import Grimoire.Proofs.Session.LexicalScopes
import Grimoire.Proofs.Workflow.Serving
import Grimoire.Proofs.Workflow.Queries
import Grimoire.Proofs.Trigger.CriticalActions
import Grimoire.Proofs.Session.EndlessLookups
import Grimoire.Proofs.Json.Objects
import Grimoire.Proofs.Workflow.Inputs
import Grimoire.Proofs.Workflow.Progress
import Grimoire.Proofs.Session.Overlay
import Grimoire.Proofs.Session.Traversal
import Grimoire.Proofs.Session.Loading
import Grimoire.Proofs.Session.Upkeep
import Grimoire.Proofs.Text.Lowering
import Grimoire.Proofs.Trigger.Keywords
import Grimoire.Proofs.Decimal.Doubles
import Grimoire.Proofs.Decimal.Rounding
import Grimoire.Proofs.Json.NumberTexts
import Grimoire.Proofs.Trigger.Comparisons
import Grimoire.Proofs.Trigger.Routing
import Grimoire.Proofs.Trigger.History
import Grimoire.Proofs.OrderedStores
import Grimoire.Proofs.StoredForms
import Grimoire.Proofs.Source.Quoting
import Grimoire.Proofs.Source.Spacing
import Grimoire.Proofs.Source.WordLists
