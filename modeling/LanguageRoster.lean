import LanguageRoster.Arguments
import LanguageRoster.Artifact.Revision
import LanguageRoster.Artifact.Table
import LanguageRoster.Choice.Basic
import LanguageRoster.Choice.Header
import LanguageRoster.Choice.Locate
import LanguageRoster.CommandLine
import LanguageRoster.Decimal.Binary64
import LanguageRoster.Decimal.Extended
import LanguageRoster.Decimal.Shortest
import LanguageRoster.Failure
import LanguageRoster.Json.Basic
import LanguageRoster.Json.Number
import LanguageRoster.Json.Printer
import LanguageRoster.Json.Reader
import LanguageRoster.Language
import LanguageRoster.Layout
import LanguageRoster.Main
import LanguageRoster.Path
import LanguageRoster.Proofs.Artifact.Revision
import LanguageRoster.Proofs.Artifact.Splice
import LanguageRoster.Proofs.Artifact.Table
import LanguageRoster.Proofs.Choice.Diagnosis
import LanguageRoster.Proofs.Choice.Headers
import LanguageRoster.Proofs.Choice.Insertion
import LanguageRoster.Proofs.Choice.LineEnds
import LanguageRoster.Proofs.Choice.Locate
import LanguageRoster.Proofs.Choice.Members
import LanguageRoster.Proofs.Choice.Naming
import LanguageRoster.Proofs.Choice.Scan
import LanguageRoster.Proofs.Json.Outline
import LanguageRoster.Proofs.Json.Refusal
import LanguageRoster.Proofs.Json.RoundTrip
import LanguageRoster.Proofs.Json.Shape
import LanguageRoster.Proofs.LineEnds
import LanguageRoster.Proofs.Lines
import LanguageRoster.Proofs.Roster
import LanguageRoster.Proofs.Run.ArtifactLog
import LanguageRoster.Proofs.Run.ArtifactText
import LanguageRoster.Proofs.Run.Coincidence
import LanguageRoster.Proofs.Run.Completion
import LanguageRoster.Proofs.Run.Containment
import LanguageRoster.Proofs.Run.Course
import LanguageRoster.Proofs.Run.Does
import LanguageRoster.Proofs.Run.Interleaving
import LanguageRoster.Proofs.Run.Jobs
import LanguageRoster.Proofs.Run.Links
import LanguageRoster.Proofs.Run.Literals
import LanguageRoster.Proofs.Run.Moments
import LanguageRoster.Proofs.Run.Narration
import LanguageRoster.Proofs.Run.Ready
import LanguageRoster.Proofs.Run.Sequence
import LanguageRoster.Proofs.Run.Series
import LanguageRoster.Proofs.Run.Settled
import LanguageRoster.Proofs.Run.SourceLog
import LanguageRoster.Proofs.Run.WorkingDirectory
import LanguageRoster.Proofs.Settings.Decoding
import LanguageRoster.Proofs.Settings.Files
import LanguageRoster.Proofs.Settings.Layers
import LanguageRoster.Proofs.Settings.Leaf
import LanguageRoster.Proofs.Settings.Precedence
import LanguageRoster.Proofs.Tool.Root
import LanguageRoster.Proofs.Tree.Apart
import LanguageRoster.Proofs.Tree.Content
import LanguageRoster.Proofs.Tree.Attempt
import LanguageRoster.Record
import LanguageRoster.Run.Program
import LanguageRoster.Run.Workflow
import LanguageRoster.Settings.Basic
import LanguageRoster.Settings.Config
import LanguageRoster.Settings.KeyPath
import LanguageRoster.Settings.Loader
import LanguageRoster.Settings.Problem
import LanguageRoster.Shell.Arithmetic
import LanguageRoster.Shell.Condition
import LanguageRoster.Shell.Escape
import LanguageRoster.Shell.Expand
import LanguageRoster.Shell.Own.Basic
import LanguageRoster.Shell.Own.Directory
import LanguageRoster.Shell.Own.Flow
import LanguageRoster.Shell.Own.Options
import LanguageRoster.Shell.Own.Signal
import LanguageRoster.Shell.Own.Table
import LanguageRoster.Shell.Own.Variables
import LanguageRoster.Shell.Pattern
import LanguageRoster.Shell.Process
import LanguageRoster.Shell.Reader.Script
import LanguageRoster.Shell.Reader.Source
import LanguageRoster.Shell.Reader.Token
import LanguageRoster.Shell.Reader.Word
import LanguageRoster.Shell.Regex
import LanguageRoster.Shell.Run.Command
import LanguageRoster.Shell.Run.Ground
import LanguageRoster.Shell.Run.Outside
import LanguageRoster.Shell.Run.Redirect
import LanguageRoster.Shell.Run.Simple
import LanguageRoster.Shell.Start
import LanguageRoster.Shell.State
import LanguageRoster.Shell.Syntax
import LanguageRoster.Shell.System
import LanguageRoster.Shell.Utility.Basic
import LanguageRoster.Shell.Utility.Edit
import LanguageRoster.Shell.Utility.Files
import LanguageRoster.Shell.Utility.Lines
import LanguageRoster.Shell.Utility.Output
import LanguageRoster.Shell.Utility.Search
import LanguageRoster.Shell.Utility.Value
import LanguageRoster.Text.Basic
import LanguageRoster.Text.Cased
import LanguageRoster.Text.Hidden
import LanguageRoster.Text.LowerCase
import LanguageRoster.Text.Quoted
import LanguageRoster.Text.Utf8
import LanguageRoster.Toml.Basic
import LanguageRoster.Toml.Document
import LanguageRoster.Toml.Quoted
import LanguageRoster.Toml.Scalar
import LanguageRoster.Toml.Table
import LanguageRoster.Tool.Basic
import LanguageRoster.Tool.Installed
import LanguageRoster.Tool.Script
import LanguageRoster.Tree.Basic
import LanguageRoster.Tree.Prepare
import LanguageRoster.Tree.Replace
import LanguageRoster.Tree.Resolve
