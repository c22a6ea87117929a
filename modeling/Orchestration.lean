import Orchestration.Text
import Orchestration.Entries
import Orchestration.Bisection
import Orchestration.Decimal.Double
import Orchestration.Decimal.Shortest
import Orchestration.Json.Basic
import Orchestration.Json.Printer
import Orchestration.Json.Numeral
import Orchestration.Json.Raw
import Orchestration.Json.Decoder
import Orchestration.Identity
import Orchestration.Duration
import Orchestration.Reference
import Orchestration.Failure
import Orchestration.Parameter.Table
import Orchestration.Parameter.Value
import Orchestration.Job
import Orchestration.JobRegistry
import Orchestration.Scenario.Basic
import Orchestration.Scenario.Resolve
import Orchestration.Scenario.WaitGraph
import Orchestration.Scenario.Build
import Orchestration.Scenario.Validate
import Orchestration.Scenario.Copy
import Orchestration.Description.Basic
import Orchestration.Description.Writer
import Orchestration.Description.Reader
import Orchestration.Scenario.Describe
import Orchestration.Scenario.Extract
import Orchestration.Composer
import Orchestration.Journal
import Orchestration.Draft
import Orchestration.Launch.Measurement
import Orchestration.Launch.Transfer
import Orchestration.Launch.Service
import Orchestration.Launch.Plot
import Orchestration.Traffic.Record
import Orchestration.Traffic.File
import Orchestration.Traffic.Service
import Orchestration.Traffic.Mix
import Orchestration.NetworkDelay
import Orchestration.RegistryFile
import Orchestration.Configuration
import Orchestration.Observer.Status
import Orchestration.Observer.Basic
import Orchestration.Loading
import Orchestration.FileTree
import Orchestration.CommandLine.Arguments
import Orchestration.CommandLine.Machine
import Orchestration.CommandLine.Program
import Orchestration.Main
import Orchestration.Proofs.Outcome
import Orchestration.Proofs.Pairing
import Orchestration.Proofs.Entries
import Orchestration.Proofs.Bisection
import Orchestration.Proofs.WaitGraph
import Orchestration.Proofs.WaitGraph.Acyclic
import Orchestration.Proofs.WaitGraph.Search
import Orchestration.Proofs.Scenario.Resolution
import Orchestration.Proofs.Scenario.Coherence
import Orchestration.Proofs.Scenario.Growth
import Orchestration.Proofs.Scenario.Copy
import Orchestration.Proofs.Scenario.Reachable
import Orchestration.Proofs.Scenario.Outline
import Orchestration.Proofs.Scenario.WellFormed
import Orchestration.Proofs.Scenario.Rewiring
import Orchestration.Proofs.Description.References
import Orchestration.Proofs.Description.Parameters
import Orchestration.Proofs.Scenario.Execution
import Orchestration.Proofs.Scenario.Following
import Orchestration.Proofs.Json.Numerals
import Orchestration.Proofs.Json.Quoted
import Orchestration.Proofs.Json.Reading
import Orchestration.Proofs.Json.Decoding
import Orchestration.Proofs.Description.RoundTrip
import Orchestration.Proofs.Scenario.Text
import Orchestration.Proofs.Traffic.Declarations
import Orchestration.Proofs.Traffic.File
import Orchestration.Proofs.Traffic.Words
import Orchestration.Proofs.Traffic.Fields
import Orchestration.Proofs.Traffic.Grammar
import Orchestration.Proofs.Building
import Orchestration.Proofs.Scenario.Extraction
import Orchestration.Proofs.Traffic.Launches
import Orchestration.Proofs.Renaming.Basic
import Orchestration.Proofs.Renaming.Calls
import Orchestration.Proofs.Renaming.Copies
import Orchestration.Proofs.Renaming.Exchange
import Orchestration.Proofs.Observer.Launch
import Orchestration.Proofs.Observer.Waiting
import Orchestration.Proofs.Scenario.Tokens
import Orchestration.Proofs.Scenario.Appending
import Orchestration.Proofs.Scenario.Forward
import Orchestration.Proofs.Registry.Calls
import Orchestration.Proofs.Registry.Building
import Orchestration.Proofs.Registry.Filtering
import Orchestration.Proofs.Scenario.Substitution
import Orchestration.Proofs.Scenario.Launches
import Orchestration.Proofs.Scenario.Series
import Orchestration.Proofs.Traffic.Servers
import Orchestration.Proofs.Traffic.Service
import Orchestration.Proofs.Traffic.Offences
import Orchestration.Proofs.Traffic.Mix
import Orchestration.Proofs.Traffic.Curves
import Orchestration.Proofs.Traffic.Drawing
import Orchestration.Proofs.Traffic.Layout
import Orchestration.Proofs.Traffic.Figures
import Orchestration.Proofs.Traffic.Verdict
import Orchestration.Proofs.Traffic.Order
import Orchestration.Proofs.Launch.Refusals
import Orchestration.Proofs.Workshop
import Orchestration.Proofs.Scenario.Constants
import Orchestration.Proofs.Registry.Registration
import Orchestration.Proofs.Parameter.Additions
