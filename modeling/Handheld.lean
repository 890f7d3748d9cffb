import Handheld.Bytes
import Handheld.Text.Numeral
import Handheld.Text.Escaped
import Handheld.Text.Unprintable
import Handheld.Text.Quoted
import Handheld.Text.Parts
import Handheld.Text.Flags
import Handheld.Text.Terminal
import Handheld.Diagnostic
import Handheld.Journal
import Handheld.Compression.Error
import Handheld.Compression.Pattern
import Handheld.Compression.Instruction
import Handheld.Compression.Split
import Handheld.Compression.Encoding
import Handheld.Compression.Expansion
import Handheld.Compression.DataResource
import Handheld.Database.Tag
import Handheld.Database.Name
import Handheld.Database.Timestamp
import Handheld.Database.Attributes
import Handheld.Database.Narrow
import Handheld.Database.Key
import Handheld.Files.Error
import Handheld.Database.Error
import Handheld.Database.Kind
import Handheld.Database.Header
import Handheld.Database.Slot
import Handheld.Database.Basic
import Handheld.Database.Operation
import Handheld.Database.Layout
import Handheld.Database.Image
import Handheld.Executable.Architecture
import Handheld.Executable.Basic
import Handheld.Executable.Error
import Handheld.Executable.Elf.Entry
import Handheld.Executable.Elf.File
import Handheld.Executable.Elf.Image
import Handheld.Executable.Listing
import Handheld.Executable.Elf.Listing
import Handheld.Packing.Options
import Handheld.Packing.Error
import Handheld.Packing.Branch
import Handheld.Packing.Threading
import Handheld.Packing.Code
import Handheld.Packing.DataImage
import Handheld.Packing.Basic
import Handheld.Block
import Handheld.Json.Double
import Handheld.Json.Basic
import Handheld.Json.Token
import Handheld.Json.Reading
import Handheld.Json.Printing
import Handheld.Build.Setting
import Handheld.Json.Database
import Handheld.Build.Choices
import Handheld.Build.RawName
import Handheld.Build.Project
import Handheld.Build.Input
import Handheld.Build.Assembly
import Handheld.CommandLine.Grammar
import Handheld.CommandLine.Basic
import Handheld.Report
import Handheld.Program.Configure
import Handheld.Program.Basic
import Handheld.Main
import Handheld.Build.Error
import Handheld.Files.Path
import Handheld.Files.Basic
import Handheld.Build.Configuration
import Handheld.Proofs.Compression.Codec
import Handheld.Proofs.Compression.Execution
import Handheld.Proofs.Compression.Choice
import Handheld.Proofs.Compression.Readers
import Handheld.Proofs.Compression.RoundTrip
import Handheld.Proofs.Bytes
import Handheld.Proofs.Database.Header
import Handheld.Proofs.Database.Collection
import Handheld.Proofs.Database.Slot
import Handheld.Proofs.Database.Directory
import Handheld.Proofs.Database.Reading
import Handheld.Proofs.Database.Written
import Handheld.Proofs.Database.RoundTrip
import Handheld.Proofs.Database.Canonical
import Handheld.Proofs.Database.Guarded
import Handheld.Proofs.Database.Verdict
import Handheld.Proofs.Packing.Loader
import Handheld.Proofs.Packing.Threading
import Handheld.Proofs.Compression.DataResource
import Handheld.Proofs.Packing.Placement
import Handheld.Proofs.Packing.Chains
import Handheld.Proofs.Packing.Resources
import Handheld.Proofs.Packing.Failures
import Handheld.Proofs.Packing.Loading
import Handheld.Proofs.Packing.Trail
import Handheld.Proofs.Block
import Handheld.Proofs.Packing.Keys
import Handheld.Proofs.Compression.Canonical
import Handheld.Proofs.Build.Supplies
import Handheld.Proofs.Build.Ranking
import Handheld.Proofs.Program.Configure
import Handheld.Proofs.Files
import Handheld.Proofs.Journal
import Handheld.Proofs.Build.Inputs
import Handheld.Proofs.Build.Attempts
import Handheld.Proofs.Build.Atomicity
import Handheld.Proofs.Program.Packing
import Handheld.Proofs.Compression.Consumption
import Handheld.Proofs.Compression.Resizing
import Handheld.Proofs.Database.Conservation
import Handheld.Proofs.Packing.Entry
import Handheld.Proofs.Compression.Framing
import Handheld.Proofs.Compression.Guarded
import Handheld.Proofs.Database.Writing
import Handheld.Proofs.Packing.Reports
import Handheld.Proofs.Packing.Guarded
import Handheld.Proofs.Packing.Accounting
import Handheld.Proofs.Packing.Variables
import Handheld.Proofs.Packing.EntryRange
import Handheld.Proofs.Packing.Numbering
import Handheld.Proofs.Packing.Standstill
import Handheld.Proofs.Packing.Traps
import Handheld.Proofs.Text.Spelling
import Handheld.Proofs.Text.Utf8
import Handheld.Proofs.Text.Escaped
import Handheld.Proofs.Json.Scanning
import Handheld.Proofs.Json.RoundTrip
import Handheld.Proofs.Json.Keys
import Handheld.Proofs.Program.Mentions
import Handheld.Proofs.Database.KeyText
import Handheld.Proofs.Build.RawName
import Handheld.Proofs.Database.Order
import Handheld.Proofs.Database.Operations
import Handheld.Proofs.Database.Inverse
import Handheld.Proofs.Compression.Effect
import Handheld.Proofs.Compression.Matching
import Handheld.Proofs.Compression.Runs
import Handheld.Proofs.Compression.Omission
import Handheld.Proofs.Executable.Listing
import Handheld.Proofs.Executable.Elf
