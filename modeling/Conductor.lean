import Conductor.Act
import Conductor.Actions.Build
import Conductor.Actions.Clean
import Conductor.Actions.Configure
import Conductor.Actions.Lint
import Conductor.Answers
import Conductor.Command
import Conductor.CommandLine
import Conductor.Confirmation
import Conductor.Console
import Conductor.Dispatch
import Conductor.EditDistance
import Conductor.Failure
import Conductor.Files.Path
import Conductor.Files.Populate
import Conductor.Files.Remove
import Conductor.Files.Resolve
import Conductor.Files.Tree
import Conductor.Files.Walk
import Conductor.Main
import Conductor.Number.Binary64
import Conductor.Number.Shortest
import Conductor.Options
import Conductor.Program
import Conductor.Proofs.Acts
import Conductor.Proofs.Aligning
import Conductor.Proofs.Arrival
import Conductor.Proofs.Blindness
import Conductor.Proofs.Boundaries
import Conductor.Proofs.Breaking
import Conductor.Proofs.Building
import Conductor.Proofs.ByteOrder
import Conductor.Proofs.Children
import Conductor.Proofs.Cleaning
import Conductor.Proofs.Configuring
import Conductor.Proofs.Confinement
import Conductor.Proofs.Decoding
import Conductor.Proofs.Directories
import Conductor.Proofs.Documents
import Conductor.Proofs.Edits
import Conductor.Proofs.ExitStatus
import Conductor.Proofs.Extending
import Conductor.Proofs.Faults
import Conductor.Proofs.Fields
import Conductor.Proofs.FirstFault
import Conductor.Proofs.Following
import Conductor.Proofs.Founding
import Conductor.Proofs.Frames
import Conductor.Proofs.Freed
import Conductor.Proofs.InFront
import Conductor.Proofs.Indifference
import Conductor.Proofs.LetterCase
import Conductor.Proofs.Lines
import Conductor.Proofs.Lingering
import Conductor.Proofs.Literals
import Conductor.Proofs.Loading
import Conductor.Proofs.Lost
import Conductor.Proofs.Meaning
import Conductor.Proofs.Measuring
import Conductor.Proofs.Naming
import Conductor.Proofs.Obeying
import Conductor.Proofs.Offers
import Conductor.Proofs.OneDirectory
import Conductor.Proofs.Passes
import Conductor.Proofs.Paths
import Conductor.Proofs.Plain
import Conductor.Proofs.Presentation
import Conductor.Proofs.Prompts
import Conductor.Proofs.Reaching
import Conductor.Proofs.Removing
import Conductor.Proofs.Rendering
import Conductor.Proofs.Repeating
import Conductor.Proofs.Resolving
import Conductor.Proofs.Rotation
import Conductor.Proofs.Rounding
import Conductor.Proofs.Sections
import Conductor.Proofs.Setup
import Conductor.Proofs.SideBySide
import Conductor.Proofs.Sizing
import Conductor.Proofs.Sparing
import Conductor.Proofs.Spelling
import Conductor.Proofs.Steps
import Conductor.Proofs.Sweeping
import Conductor.Proofs.Toolchains
import Conductor.Proofs.Trees
import Conductor.Proofs.Turns
import Conductor.Proofs.Unasked
import Conductor.Proofs.Walking
import Conductor.Proofs.Words
import Conductor.Registry
import Conductor.Report
import Conductor.Running
import Conductor.Settings.Basic
import Conductor.Settings.Decode
import Conductor.Settings.Fault
import Conductor.Settings.Load
import Conductor.Similar
import Conductor.Size
import Conductor.Text.Blank
import Conductor.Text.CaseTable
import Conductor.Text.Lowercase
import Conductor.Text.PrintTable
import Conductor.Text.Quoted
import Conductor.Text.Ranges
import Conductor.Toml.Characters
import Conductor.Toml.Document
import Conductor.Toml.Grammar
import Conductor.Toml.Scalars
import Conductor.Toml.Section
import Conductor.Toml.Strings
import Conductor.Toml.Value
import Conductor.Tools
import Conductor.Tools.Scripted
import Conductor.Transcript
