import CrateGate.Alignment
import CrateGate.CommandLine.Arguments
import CrateGate.CommandLine.Host
import CrateGate.CommandLine.Invocation
import CrateGate.CommandLine.Run
import CrateGate.Crate.Category
import CrateGate.Crate.Label
import CrateGate.Crate.Package
import CrateGate.Datum
import CrateGate.Decimal.Binary64
import CrateGate.Decimal.Shortest
import CrateGate.Discovery.Problem
import CrateGate.Discovery.Read
import CrateGate.Discovery.Run
import CrateGate.Fault
import CrateGate.Files.Blocks
import CrateGate.Files.Disk
import CrateGate.Files.Memory
import CrateGate.Files.Pattern
import CrateGate.Graph.Check
import CrateGate.Graph.Layers
import CrateGate.InsertionSort
import CrateGate.Json
import CrateGate.Main
import CrateGate.Manifest
import CrateGate.Path
import CrateGate.Proofs.Alignment
import CrateGate.Proofs.Alignment.Bystanders
import CrateGate.Proofs.CommandLine.Logging
import CrateGate.Proofs.CommandLine.Refusal
import CrateGate.Proofs.CommandLine.Run
import CrateGate.Proofs.CommandLine.Sequence
import CrateGate.Proofs.CommandLine.Verdict
import CrateGate.Proofs.CommandLine.Versions
import CrateGate.Proofs.Contrast
import CrateGate.Proofs.Crate.Label
import CrateGate.Proofs.Discovery.Manifests
import CrateGate.Proofs.Discovery.Placement
import CrateGate.Proofs.Discovery.Read
import CrateGate.Proofs.Discovery.Releases
import CrateGate.Proofs.Discovery.Run
import CrateGate.Proofs.Discovery.Search
import CrateGate.Proofs.Discovery.Selection
import CrateGate.Proofs.Discovery.Trees
import CrateGate.Proofs.Discovery.Versions
import CrateGate.Proofs.Files.Blocks
import CrateGate.Proofs.Files.Disk
import CrateGate.Proofs.Files.Find
import CrateGate.Proofs.Files.Memory
import CrateGate.Proofs.Files.Patterns
import CrateGate.Proofs.Files.Session
import CrateGate.Proofs.Graph.Bump
import CrateGate.Proofs.Graph.Cycle
import CrateGate.Proofs.Graph.Flaws
import CrateGate.Proofs.Graph.Layering
import CrateGate.Proofs.Graph.Needs
import CrateGate.Proofs.Graph.Pins
import CrateGate.Proofs.Graph.Rounds
import CrateGate.Proofs.Graph.Safety
import CrateGate.Proofs.InsertionSort
import CrateGate.Proofs.Manifest.Entries
import CrateGate.Proofs.Manifest.Fitting
import CrateGate.Proofs.Manifest.Pins
import CrateGate.Proofs.Manifest.Placement
import CrateGate.Proofs.Manifest.Slips
import CrateGate.Proofs.Manifest.Written
import CrateGate.Proofs.Path
import CrateGate.Proofs.Settings.Document
import CrateGate.Proofs.Settings.Load
import CrateGate.Proofs.Settings.Slips
import CrateGate.Proofs.Text.Split
import CrateGate.Proofs.Text.Strip
import CrateGate.Proofs.Toml.Document
import CrateGate.Proofs.Toml.Text
import CrateGate.Proofs.Version.Bnf
import CrateGate.Proofs.Version.Digits
import CrateGate.Proofs.Version.Grammar
import CrateGate.Proofs.Version.Text
import CrateGate.Proofs.VersionMap
import CrateGate.Proofs.VersionMap.Consistency
import CrateGate.Proofs.Walk
import CrateGate.Proofs.Yaml.Compose
import CrateGate.Proofs.Yaml.Compute
import CrateGate.Proofs.Yaml.Places
import CrateGate.Proofs.Yaml.Read
import CrateGate.Proofs.Yaml.Scan
import CrateGate.Proofs.Yaml.Trail
import CrateGate.Report
import CrateGate.Schedule
import CrateGate.Settings.Basic
import CrateGate.Settings.Document
import CrateGate.Settings.Load
import CrateGate.Settings.Problem
import CrateGate.Slip
import CrateGate.SortedMap
import CrateGate.Text.Blank
import CrateGate.Text.Digit
import CrateGate.Text.Letter
import CrateGate.Text.Printable
import CrateGate.Text.Quoted
import CrateGate.Text.Upper
import CrateGate.Toml.Document
import CrateGate.Toml.Draft
import CrateGate.Toml.Moment
import CrateGate.Toml.Number
import CrateGate.Toml.Problem
import CrateGate.Toml.Text
import CrateGate.Version.Basic
import CrateGate.Version.Text
import CrateGate.VersionMap
import CrateGate.Yaml.Cursor
import CrateGate.Yaml.Making
import CrateGate.Yaml.Name
import CrateGate.Yaml.Node
import CrateGate.Yaml.Problem
import CrateGate.Yaml.Read
import CrateGate.Yaml.Resolve
import CrateGate.Yaml.Scalar
import CrateGate.Yaml.Stream
import CrateGate.Yaml.Token
import CrateGate.Yaml.Tokens
import CrateGate.Yaml.Value
