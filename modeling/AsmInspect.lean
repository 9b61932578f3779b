import AsmInspect.Artifact
import AsmInspect.Binary64
import AsmInspect.CommandLine.Arguments
import AsmInspect.CommandLine.Run
import AsmInspect.CompileJob
import AsmInspect.Compiler
import AsmInspect.Config.Basic
import AsmInspect.Config.Overrides
import AsmInspect.Config.Reader
import AsmInspect.Dict
import AsmInspect.Driver
import AsmInspect.Failure
import AsmInspect.Filters
import AsmInspect.Flow.Basic
import AsmInspect.Flow.Step
import AsmInspect.Json.Basic
import AsmInspect.Json.Decoder
import AsmInspect.Json.Printer
import AsmInspect.Json.Token
import AsmInspect.Json.Tree
import AsmInspect.Lifecycle
import AsmInspect.Listing.Basic
import AsmInspect.Listing.Demangling
import AsmInspect.Listing.Encoding
import AsmInspect.Listing.Position
import AsmInspect.Listing.Reader
import AsmInspect.Machine.Agenda
import AsmInspect.Machine.Basic
import AsmInspect.Machine.FileTree
import AsmInspect.Machine.Local
import AsmInspect.Machine.Scripted
import AsmInspect.Machine.Session
import AsmInspect.Mask
import AsmInspect.Path
import AsmInspect.Remark.Basic
import AsmInspect.Remark.Record
import AsmInspect.Result
import AsmInspect.Shell.Arithmetic
import AsmInspect.Shell.Builtin
import AsmInspect.Shell.Field
import AsmInspect.Shell.Format
import AsmInspect.Shell.Pattern
import AsmInspect.Shell.Regex
import AsmInspect.Shell.Run
import AsmInspect.Shell.Script
import AsmInspect.Shell.State
import AsmInspect.Shell.StreamEditor
import AsmInspect.Shell.Syntax
import AsmInspect.Shell.Token
import AsmInspect.Shell.Utilities
import AsmInspect.Shell.Utility.Basic
import AsmInspect.Shell.Utility.Files
import AsmInspect.Shell.Utility.Lines
import AsmInspect.Shell.Utility.Values
import AsmInspect.Slots
import AsmInspect.Text.Basic
import AsmInspect.Text.Lowercase
import AsmInspect.Text.Utf8
import AsmInspect.Toml.Basic
import AsmInspect.Toml.Quoted
import AsmInspect.Toml.Reader
import AsmInspect.Toml.Scalar
import AsmInspect.Tool.Basic
import AsmInspect.Tool.Capture
import AsmInspect.Toolchain.Arguments
import AsmInspect.Toolchain.Basic
import AsmInspect.Toolchain.DeviceListings
import AsmInspect.Toolchain.ExternalParser
import AsmInspect.Toolchain.HostListing
import AsmInspect.Toolchain.Launcher
import AsmInspect.Version
import AsmInspect.Wire.Request
import AsmInspect.Wire.Result
import AsmInspect.Main
import AsmInspect.Proofs.Slots.Admission
import AsmInspect.Proofs.Flow.Run
import AsmInspect.Proofs.Flow.Crew
import AsmInspect.Proofs.Flow.Progress
import AsmInspect.Proofs.Flow.Settle
import AsmInspect.Proofs.Flow.Composable
import AsmInspect.Proofs.Toolchain.Questions
import AsmInspect.Proofs.Machine.Undertaking
import AsmInspect.Proofs.Slots.Standing
import AsmInspect.Proofs.Machine.Conservation
import AsmInspect.Proofs.Flow.Sequential
import AsmInspect.Proofs.Flow.Pair
import AsmInspect.Proofs.Dict
import AsmInspect.Proofs.Toolchain.FanOut
import AsmInspect.Proofs.Toolchain.Extraction
import AsmInspect.Proofs.Machine.Faithful
import AsmInspect.Proofs.Flow.Watch
import AsmInspect.Proofs.Job.Course
import AsmInspect.Proofs.Job.Lifecycle
import AsmInspect.Proofs.Job.Joining
import AsmInspect.Proofs.Flow.Yields
import AsmInspect.Proofs.Job.Faults
import AsmInspect.Proofs.Machine.Answers
import AsmInspect.Proofs.Text.Words
import AsmInspect.Proofs.Listing.Notice
import AsmInspect.Proofs.Toolchain.Isolation
import AsmInspect.Proofs.Text.Blanks
import AsmInspect.Proofs.Text.Lines
import AsmInspect.Proofs.Listing.Kept
import AsmInspect.Proofs.Listing.Labels
import AsmInspect.Proofs.Listing.Markers
import AsmInspect.Proofs.Listing.Positions
import AsmInspect.Proofs.Listing.Demangled
import AsmInspect.Proofs.Tool.Capture
import AsmInspect.Proofs.Json.Mark
import AsmInspect.Proofs.Toolchain.ParserOutput
import AsmInspect.Proofs.Listing.CutOff
import AsmInspect.Proofs.Text.Numbers
import AsmInspect.Proofs.Remark.Values
import AsmInspect.Proofs.Remark.Printed
import AsmInspect.Proofs.Shell.Words
import AsmInspect.Proofs.Shell.Tokens
import AsmInspect.Proofs.Shell.Commands
import AsmInspect.Proofs.Toolchain.LauncherScript
import AsmInspect.Proofs.Toolchain.Registry
import AsmInspect.Proofs.Job.Results
import AsmInspect.Proofs.Job.Rejection
import AsmInspect.Proofs.Job.OutputFile
import AsmInspect.Proofs.Flow.Twins
import AsmInspect.Proofs.Text.Occurrences
import AsmInspect.Proofs.Mask
import AsmInspect.Proofs.Job.CommandLine
import AsmInspect.Proofs.Toolchain.Indifference
import AsmInspect.Proofs.Job.Report
import AsmInspect.Proofs.Toolchain.Configured
import AsmInspect.Proofs.Text.Utf8
import AsmInspect.Proofs.Tool.CapturedText
import AsmInspect.Proofs.Json.Literal
import AsmInspect.Proofs.Json.Spelling
import AsmInspect.Proofs.Json.Reading
import AsmInspect.Proofs.Toolchain.ParserAnswer
import AsmInspect.Proofs.Json.Number
import AsmInspect.Proofs.Json.Printing
import AsmInspect.Proofs.Json.Values
import AsmInspect.Proofs.Json.Decoding
import AsmInspect.Proofs.Wire.RoundTrip
import AsmInspect.Proofs.Listing.AllOrNothing
import AsmInspect.Proofs.Listing.UsedLabels
import AsmInspect.Proofs.Listing.Attribution
import AsmInspect.Proofs.Listing.FileNames
import AsmInspect.Proofs.Listing.FileTable
import AsmInspect.Proofs.Listing.EncodedLines
import AsmInspect.Proofs.Listing.Normalized
import AsmInspect.Proofs.Remark.Stream
import AsmInspect.Proofs.Remark.Scalars
import AsmInspect.Proofs.Job.MaskedOutput
import AsmInspect.Proofs.Text.Lowercase
import AsmInspect.Proofs.Toolchain.ArtifactKeys
import AsmInspect.Proofs.Version
import AsmInspect.Proofs.Remark.Stretches
