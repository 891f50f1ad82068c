import Verbatim.Command.Help
import Verbatim.Command.Report
import Verbatim.Command.Run
import Verbatim.Command.Spec
import Verbatim.Command.Words
import Verbatim.Decimal.Double
import Verbatim.Decimal.Rounded
import Verbatim.Decimal.Shortest
import Verbatim.Json.Basic
import Verbatim.Json.Reader
import Verbatim.Json.Writer
import Verbatim.Log.Record
import Verbatim.Log.Setup
import Verbatim.Log.Template
import Verbatim.Main
import Verbatim.Proofs.Addresses
import Verbatim.Proofs.Admission
import Verbatim.Proofs.Build.Accepted
import Verbatim.Proofs.Build.Depth
import Verbatim.Proofs.Build.Failures
import Verbatim.Proofs.Build.JsonForm
import Verbatim.Proofs.Build.LaidOut
import Verbatim.Proofs.Build.Names
import Verbatim.Proofs.Build.OwnGaps
import Verbatim.Proofs.Build.Parsed
import Verbatim.Proofs.Build.RawForm
import Verbatim.Proofs.Build.RawNode
import Verbatim.Proofs.Build.Trail
import Verbatim.Proofs.Clauses
import Verbatim.Proofs.Coherence
import Verbatim.Proofs.Command.Keeping
import Verbatim.Proofs.Command.Setting
import Verbatim.Proofs.Concatenation
import Verbatim.Proofs.ConditionText
import Verbatim.Proofs.Construction
import Verbatim.Proofs.FailedBuilds
import Verbatim.Proofs.FailedWalks
import Verbatim.Proofs.GapSteps
import Verbatim.Proofs.Json.Written
import Verbatim.Proofs.Literals
import Verbatim.Proofs.Locality
import Verbatim.Proofs.Nesting
import Verbatim.Proofs.Observers
import Verbatim.Proofs.Operands
import Verbatim.Proofs.Owners
import Verbatim.Proofs.Rebuilding
import Verbatim.Proofs.Refusals
import Verbatim.Proofs.Reprint
import Verbatim.Proofs.Rereading
import Verbatim.Proofs.Returning
import Verbatim.Proofs.Rewriting
import Verbatim.Proofs.RoundTrip
import Verbatim.Proofs.Separators
import Verbatim.Proofs.Settings
import Verbatim.Proofs.Source.Captured
import Verbatim.Proofs.Source.Completeness
import Verbatim.Proofs.Source.Grammar
import Verbatim.Proofs.Source.Joining
import Verbatim.Proofs.Source.Lexemes
import Verbatim.Proofs.Source.Printed
import Verbatim.Proofs.Source.Relexing
import Verbatim.Proofs.Source.Scanning
import Verbatim.Proofs.Source.Soundness
import Verbatim.Proofs.Source.Spelling
import Verbatim.Proofs.Source.Units
import Verbatim.Proofs.Spans
import Verbatim.Proofs.Splicing
import Verbatim.Proofs.Steps
import Verbatim.Proofs.Storage.Names
import Verbatim.Proofs.Storage.Saving
import Verbatim.Proofs.Text.Numeral
import Verbatim.Proofs.Text.Utf8
import Verbatim.Proofs.Tree.Around
import Verbatim.Proofs.Tree.Cells
import Verbatim.Proofs.Tree.Checks
import Verbatim.Proofs.Tree.Edits
import Verbatim.Proofs.Tree.Exchange
import Verbatim.Proofs.Tree.Fitting
import Verbatim.Proofs.Tree.Forest
import Verbatim.Proofs.Tree.Growth
import Verbatim.Proofs.Tree.Lawful
import Verbatim.Proofs.Tree.Moves
import Verbatim.Proofs.Tree.Places
import Verbatim.Proofs.Tree.Plant
import Verbatim.Proofs.Tree.Regions
import Verbatim.Proofs.Tree.Regular
import Verbatim.Proofs.Tree.Replay
import Verbatim.Proofs.Tree.Runs
import Verbatim.Proofs.Tree.Sound
import Verbatim.Proofs.Tree.Traced
import Verbatim.Proofs.Tree.Tracks
import Verbatim.Proofs.Tree.Trails
import Verbatim.Proofs.Tree.Views
import Verbatim.Proofs.UndoRedo
import Verbatim.Settings.Basic
import Verbatim.Settings.Coercion
import Verbatim.Settings.File
import Verbatim.Source.Fragment
import Verbatim.Source.Lexer
import Verbatim.Source.Parser
import Verbatim.Source.Token
import Verbatim.Storage.FileName
import Verbatim.Storage.Folder
import Verbatim.Syntax.GapSteps
import Verbatim.Syntax.Gaps
import Verbatim.Syntax.Kind
import Verbatim.Syntax.Layout
import Verbatim.Syntax.Node
import Verbatim.Syntax.Rules
import Verbatim.Text.Blank
import Verbatim.Text.Capital
import Verbatim.Text.Digit
import Verbatim.Text.Numeral
import Verbatim.Text.Printable
import Verbatim.Text.Quoted
import Verbatim.Text.Utf8
import Verbatim.Tree.Basic
import Verbatim.Tree.Build
import Verbatim.Tree.Change
import Verbatim.Tree.Depth
import Verbatim.Tree.Edit
import Verbatim.Tree.History
import Verbatim.Tree.NodeId
import Verbatim.Tree.Paths
import Verbatim.Tree.Refusal
import Verbatim.Tree.Source
import Verbatim.Tree.Workspace
