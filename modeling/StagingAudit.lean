import StagingAudit.Text.Range
import StagingAudit.Text.White
import StagingAudit.Text.WordTable
import StagingAudit.Text.Word
import StagingAudit.Text.CaseTable
import StagingAudit.Text.CasedTable
import StagingAudit.Text.Case
import StagingAudit.Text.Recogniser
import StagingAudit.Text.Bytes
import StagingAudit.Text.Lines
import StagingAudit.Text.Marks
import StagingAudit.Directive
import StagingAudit.Block
import StagingAudit.Region
import StagingAudit.ConfigCall
import StagingAudit.Path
import StagingAudit.Glob
import StagingAudit.Violation
import StagingAudit.Conventions
import StagingAudit.Model
import StagingAudit.Rule.Basic
import StagingAudit.Rule.Configuration
import StagingAudit.Rule.Structure
import StagingAudit.Rule.Battery
import StagingAudit.Json.Basic
import StagingAudit.Json.Writer
import StagingAudit.Report.Basic
import StagingAudit.Report.Reader
import StagingAudit.Report.Render
import StagingAudit.Toml.Basic
import StagingAudit.Toml.Text
import StagingAudit.Toml.Number
import StagingAudit.Toml.Document
import StagingAudit.Settings.Basic
import StagingAudit.Settings.Reader
import StagingAudit.Settings.Source
import StagingAudit.Auditor
import StagingAudit.FileTree
import StagingAudit.Ignore.Pattern
import StagingAudit.Ignore.Part
import StagingAudit.Ignore.SlotTable
import StagingAudit.Ignore.Depth
import StagingAudit.Ignore.Reader
import StagingAudit.Ignore.Rule
import StagingAudit.Ignore.Layer
import StagingAudit.Ignore.Personal
import StagingAudit.Discovery
import StagingAudit.CommandLine
import StagingAudit.Program.Check
import StagingAudit.Program.Run
import StagingAudit.Main
import StagingAudit.Proofs.Text.Letter
import StagingAudit.Proofs.Text.Offset
import StagingAudit.Proofs.Text.Recognition
import StagingAudit.Proofs.Directive.Masking
import StagingAudit.Proofs.Directive.Residue
import StagingAudit.Proofs.Directive.Extent
import StagingAudit.Proofs.Directive.Nesting
import StagingAudit.Proofs.Directive.Order
import StagingAudit.Proofs.Directive.Template
import StagingAudit.Proofs.Directive.Occurrence
import StagingAudit.Proofs.Block.Introduction
import StagingAudit.Proofs.Block.Grammar
import StagingAudit.Proofs.Region.Boundary
import StagingAudit.Proofs.Region.Agreement
import StagingAudit.Proofs.Region.Gate
import StagingAudit.Proofs.ConfigCall.Opening
import StagingAudit.Proofs.ConfigCall.RoundTrip
import StagingAudit.Proofs.Rule.Blocks
import StagingAudit.Proofs.Rule.Location
import StagingAudit.Proofs.Model.Rendering
import StagingAudit.Proofs.Model.Verdict
import StagingAudit.Proofs.Region.Owner
import StagingAudit.Proofs.Rule.Configuration
import StagingAudit.Proofs.Report.Summary
import StagingAudit.Proofs.Program.Exit
import StagingAudit.Proofs.Rule.Settings
import StagingAudit.Proofs.Text.Spelling
import StagingAudit.Proofs.Model.Spelling
import StagingAudit.Proofs.ConfigCall.Spelling
import StagingAudit.Proofs.Rule.Spelling
import StagingAudit.Proofs.Report.Document
import StagingAudit.Proofs.Report.Reading
import StagingAudit.Proofs.Report.Agreement
import StagingAudit.Proofs.Path.Joining
import StagingAudit.Proofs.Path.Ancestors
import StagingAudit.Proofs.FileTree.Resolution
import StagingAudit.Proofs.Settings.Origin
import StagingAudit.Proofs.Auditor.Relocation
import StagingAudit.Proofs.Discovery.Models
import StagingAudit.Proofs.Program.Changed
import StagingAudit.Proofs.Region.Closing
import StagingAudit.Proofs.Model.Chain
import StagingAudit.Proofs.Region.Columns
import StagingAudit.Proofs.Rule.Advice
import StagingAudit.Proofs.Rule.FinalColumns
import StagingAudit.Proofs.ConfigCall.Closing
import StagingAudit.Proofs.Rule.Order
import StagingAudit.Proofs.Report.Counts
import StagingAudit.Proofs.ConfigCall.Keywords
import StagingAudit.Proofs.Report.Totals
import StagingAudit.Proofs.Text.Encoding
import StagingAudit.Proofs.Path.Bytes
import StagingAudit.Proofs.Auditor.Display
import StagingAudit.Proofs.Auditor.Exclusion
import StagingAudit.Proofs.Json.Rendering
import StagingAudit.Proofs.Report.Recovery
import StagingAudit.Proofs.Text.Decoding
import StagingAudit.Proofs.Auditor.Lines
import StagingAudit.Proofs.Path.Order
import StagingAudit.Proofs.Discovery.Listing
import StagingAudit.Proofs.FileTree.Change
import StagingAudit.Proofs.Settings.Nearest
