import SafetyCase.Calendar
import SafetyCase.Calendar.Count
import SafetyCase.Calendar.Fault
import SafetyCase.Calendar.Reading
import SafetyCase.Calendar.Written
import SafetyCase.Command.Basic
import SafetyCase.Command.Envelope
import SafetyCase.Command.Form
import SafetyCase.Command.Intent
import SafetyCase.Command.Location
import SafetyCase.Command.Payload
import SafetyCase.Command.Refusal
import SafetyCase.Command.Validation
import SafetyCase.Decimal.Binary
import SafetyCase.Decimal.Digits
import SafetyCase.Decimal.Shortest
import SafetyCase.Decimal.Text
import SafetyCase.Document.Basic
import SafetyCase.Document.Entity
import SafetyCase.Document.Kind
import SafetyCase.Document.View
import SafetyCase.Editor.Apply
import SafetyCase.Editor.Batch
import SafetyCase.Editor.Cases
import SafetyCase.Editor.Desk
import SafetyCase.Editor.Failure
import SafetyCase.Editor.Moves
import SafetyCase.Editor.Registry
import SafetyCase.Editor.Undo
import SafetyCase.Editor.View
import SafetyCase.Identifier
import SafetyCase.Intake.Issue
import SafetyCase.Intake.Read
import SafetyCase.Json
import SafetyCase.Json.Literal
import SafetyCase.Json.Reader
import SafetyCase.Json.Token
import SafetyCase.Log.Level
import SafetyCase.Log.Sinks
import SafetyCase.Phase.Definition
import SafetyCase.Phase.Gate
import SafetyCase.Proofs.Acceptance
import SafetyCase.Proofs.Accounts
import SafetyCase.Proofs.Addressing
import SafetyCase.Proofs.Advances
import SafetyCase.Proofs.Agreement
import SafetyCase.Proofs.Anchors
import SafetyCase.Proofs.Arrangement
import SafetyCase.Proofs.Assignments
import SafetyCase.Proofs.Bundles
import SafetyCase.Proofs.Calls
import SafetyCase.Proofs.Cascades
import SafetyCase.Proofs.ChangedFlag
import SafetyCase.Proofs.Clarification
import SafetyCase.Proofs.Coherence
import SafetyCase.Proofs.Complaints
import SafetyCase.Proofs.Completion
import SafetyCase.Proofs.Dates
import SafetyCase.Proofs.Declarations
import SafetyCase.Proofs.Deletions
import SafetyCase.Proofs.Descent
import SafetyCase.Proofs.Designation
import SafetyCase.Proofs.EditRuns
import SafetyCase.Proofs.Edits
import SafetyCase.Proofs.Effects
import SafetyCase.Proofs.Endings
import SafetyCase.Proofs.Enumeration
import SafetyCase.Proofs.Envelopes
import SafetyCase.Proofs.ErrorAnswers
import SafetyCase.Proofs.Fields
import SafetyCase.Proofs.Frame
import SafetyCase.Proofs.Gates
import SafetyCase.Proofs.Histories
import SafetyCase.Proofs.Inlining
import SafetyCase.Proofs.Interruptions
import SafetyCase.Proofs.Isolation
import SafetyCase.Proofs.Keeping
import SafetyCase.Proofs.Landing
import SafetyCase.Proofs.Lineage
import SafetyCase.Proofs.Linking
import SafetyCase.Proofs.Marks
import SafetyCase.Proofs.Modifications
import SafetyCase.Proofs.Naming
import SafetyCase.Proofs.NormalForms
import SafetyCase.Proofs.Numbering
import SafetyCase.Proofs.Office
import SafetyCase.Proofs.Openings
import SafetyCase.Proofs.Operations
import SafetyCase.Proofs.Order
import SafetyCase.Proofs.Outlines
import SafetyCase.Proofs.Parents
import SafetyCase.Proofs.Passage
import SafetyCase.Proofs.Phased
import SafetyCase.Proofs.Ranking
import SafetyCase.Proofs.Refusals
import SafetyCase.Proofs.Removal
import SafetyCase.Proofs.Replay
import SafetyCase.Proofs.Rereading
import SafetyCase.Proofs.Resolution
import SafetyCase.Proofs.Retelling
import SafetyCase.Proofs.Returns
import SafetyCase.Proofs.Revisions
import SafetyCase.Proofs.Rooting
import SafetyCase.Proofs.Settlement
import SafetyCase.Proofs.Shifting
import SafetyCase.Proofs.Soundness
import SafetyCase.Proofs.Splices
import SafetyCase.Proofs.Stages
import SafetyCase.Proofs.Staleness
import SafetyCase.Proofs.Storable
import SafetyCase.Proofs.StoreRuns
import SafetyCase.Proofs.Subtrees
import SafetyCase.Proofs.Topmost
import SafetyCase.Proofs.UndoRoundTrip
import SafetyCase.Proofs.Views
import SafetyCase.Proofs.Wholeness
import SafetyCase.Proofs.Wording
import SafetyCase.Proofs.Writes
import SafetyCase.Rating
import SafetyCase.Rating.Words
import SafetyCase.Reference
import SafetyCase.Settings
import SafetyCase.Store.Basic
import SafetyCase.Store.Fault
import SafetyCase.Store.Notice
import SafetyCase.Store.Write
import SafetyCase.Text.Blank
import SafetyCase.Text.Printable
import SafetyCase.Text.Quoted
import SafetyCase.Text.Upper
import SafetyCase.Tree.Fault
import SafetyCase.Tree.Insert
import SafetyCase.Tree.Patch
import SafetyCase.Tree.Remove
import SafetyCase.Tree.Reorder
import SafetyCase.Tree.Siblings
import SafetyCase.Web.Request
import SafetyCase.Web.Response
import SafetyCase.Web.Route
import SafetyCase.Web.Service
