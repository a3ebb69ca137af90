import KeyHold.Cli.Arguments
import KeyHold.Cli.Basic
import KeyHold.Cli.Grammar
import KeyHold.Clock
import KeyHold.Decimal.Binary
import KeyHold.Decimal.Notation
import KeyHold.Decimal.Reading
import KeyHold.Decimal.Shortest
import KeyHold.Driver
import KeyHold.Effector.Dry
import KeyHold.Effector.Forward
import KeyHold.Effector.Recorder
import KeyHold.Effector.Sender
import KeyHold.Fault
import KeyHold.Files.Basic
import KeyHold.Files.Path
import KeyHold.Host.Listener
import KeyHold.Host.Run
import KeyHold.Host.ScanLoop
import KeyHold.Journal
import KeyHold.Journal.Record
import KeyHold.Journal.Sinks
import KeyHold.Json.Basic
import KeyHold.Json.Reading
import KeyHold.Main
import KeyHold.Policy.Basic
import KeyHold.Policy.Data
import KeyHold.Policy.Registry
import KeyHold.Random.Entropy
import KeyHold.Random.Generator
import KeyHold.Random.Normal
import KeyHold.Session.Basic
import KeyHold.Session.Bench
import KeyHold.Session.Config
import KeyHold.Settings.Basic
import KeyHold.Settings.Data
import KeyHold.Settings.Field
import KeyHold.Settings.Files
import KeyHold.Simulation.Basic
import KeyHold.Simulation.HoldStats
import KeyHold.Simulation.Report
import KeyHold.Text.Blank
import KeyHold.Text.Case
import KeyHold.Text.Printable
import KeyHold.Text.Quoted
import KeyHold.Value.Basic
import KeyHold.Value.Listing
import KeyHold.Value.Text
import KeyHold.Value.Writing
import KeyHold.Yaml.Basic
import KeyHold.Yaml.Cursor
import KeyHold.Yaml.Data
import KeyHold.Yaml.Node
import KeyHold.Yaml.Print
import KeyHold.Yaml.Scalar
import KeyHold.Yaml.Tag
import KeyHold.Yaml.Token
import KeyHold.Yaml.Tokens
import KeyHold.Proofs.Decimal.Finite
import KeyHold.Proofs.Decimal.Order
import KeyHold.Proofs.Ends
import KeyHold.Proofs.Mirrors
import KeyHold.Proofs.Tape
import KeyHold.Proofs.Generator
import KeyHold.Proofs.Policy
import KeyHold.Proofs.Bounds
import KeyHold.Proofs.Session.Grip
import KeyHold.Proofs.Session.Alternation
import KeyHold.Proofs.Driver.Leak
import KeyHold.Proofs.Session.Faults
import KeyHold.Proofs.Session.Timeout
import KeyHold.Proofs.Session.Shift
import KeyHold.Proofs.Session.Total
import KeyHold.Proofs.Session.Visited
import KeyHold.Proofs.Session.Timing
import KeyHold.Proofs.Session.Transition
import KeyHold.Proofs.Driver.Floor
import KeyHold.Proofs.Settings.Accepted
import KeyHold.Proofs.Writing
import KeyHold.Proofs.Driver.Film
import KeyHold.Proofs.Effector.Delivery
import KeyHold.Proofs.Json.Texts
import KeyHold.Proofs.Effector.Controller
import KeyHold.Proofs.Host.Controller
import KeyHold.Proofs.Session.ScanRate
import KeyHold.Proofs.Session.Switch
import KeyHold.Proofs.Session.Cycle
import KeyHold.Proofs.Session.Gap
import KeyHold.Proofs.Value
import KeyHold.Proofs.Driver.Entry
import KeyHold.Proofs.Driver.Toggle
import KeyHold.Proofs.Driver.Indicator
import KeyHold.Proofs.Host.Loop
import KeyHold.Proofs.Host.Turns
import KeyHold.Proofs.Host.Requests
import KeyHold.Proofs.Session.Counters
import KeyHold.Proofs.Session.Fresh
import KeyHold.Proofs.Settings.Escapes
import KeyHold.Proofs.Settings.Refused
import KeyHold.Proofs.Decimal.Product
import KeyHold.Proofs.Simulation.Bench
import KeyHold.Proofs.Simulation.Holds
import KeyHold.Proofs.Simulation.Turns
import KeyHold.Proofs.Simulation.Clean
import KeyHold.Proofs.Entries
import KeyHold.Proofs.Reflexive
import KeyHold.Proofs.Identical
import KeyHold.Proofs.Yaml.Shown
import KeyHold.Proofs.Settings.Written
import KeyHold.Proofs.Settings.RoundTrip
import KeyHold.Proofs.Host.ToggleKeys
import KeyHold.Proofs.Effector.Minutes
import KeyHold.Proofs.Effector.Books
import KeyHold.Proofs.Effector.Connections
import KeyHold.Proofs.Random.Step
import KeyHold.Proofs.Random.Seeding
import KeyHold.Proofs.Random.Recurrence
import KeyHold.Proofs.Random.Unit
import KeyHold.Proofs.Random.Rejection
import KeyHold.Proofs.Host.ToggleEdges
import KeyHold.Proofs.Random.Draws
import KeyHold.Proofs.Session.Waits
import KeyHold.Proofs.Json.Ascii
import KeyHold.Proofs.Effector.WireFormat
import KeyHold.Proofs.Settings.Overridden
import KeyHold.Proofs.Settings.Kept
import KeyHold.Proofs.Session.TimeoutReach
import KeyHold.Proofs.Host.Exits
import KeyHold.Proofs.Sequence
import KeyHold.Proofs.Decimal.Unsigned
import KeyHold.Proofs.Effector.Spans
import KeyHold.Proofs.Effector.Pairing
import KeyHold.Proofs.Session.Running
import KeyHold.Proofs.Session.Holds
import KeyHold.Proofs.Clock
import KeyHold.Proofs.Decimal.Equality
import KeyHold.Proofs.Keys
import KeyHold.Proofs.Policy.Table
import KeyHold.Proofs.Policy.Registry
import KeyHold.Proofs.Effector.Replay
