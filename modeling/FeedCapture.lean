import FeedCapture.Bus
import FeedCapture.Bus.Exchange
import FeedCapture.Bus.Turn
import FeedCapture.Calendar
import FeedCapture.Cancellation
import FeedCapture.CommandLine
import FeedCapture.Config.Layer
import FeedCapture.Config.Reading
import FeedCapture.Config.Settings
import FeedCapture.Config.Structured
import FeedCapture.Config.Variable
import FeedCapture.DayFiles
import FeedCapture.DayFiles.Run
import FeedCapture.Document
import FeedCapture.Document.Json
import FeedCapture.Drain
import FeedCapture.Duration
import FeedCapture.Entries
import FeedCapture.FileTree
import FeedCapture.FileTree.Compression
import FeedCapture.Fleet
import FeedCapture.Fleet.Run
import FeedCapture.Live
import FeedCapture.Log
import FeedCapture.Log.Filter
import FeedCapture.Lz4
import FeedCapture.Main
import FeedCapture.Message
import FeedCapture.Metrics
import FeedCapture.Metrics.Exposition
import FeedCapture.Number.Binary64
import FeedCapture.Number.Digits
import FeedCapture.Number.Real64
import FeedCapture.Outage
import FeedCapture.Passage
import FeedCapture.Pipeline
import FeedCapture.Policy
import FeedCapture.Program
import FeedCapture.Proofs.Cancellation.Lineage
import FeedCapture.Proofs.Exchange.Conservation
import FeedCapture.Proofs.Exchange.Outcomes
import FeedCapture.Proofs.Exchange.Settling
import FeedCapture.Proofs.Exchange.Turns
import FeedCapture.Proofs.Exchange.Waiting
import FeedCapture.Proofs.Files.Contents
import FeedCapture.Proofs.Files.Dates
import FeedCapture.Proofs.Files.Days
import FeedCapture.Proofs.Files.Filing
import FeedCapture.Proofs.Files.Landing
import FeedCapture.Proofs.Files.Lifetimes
import FeedCapture.Proofs.Files.Paths
import FeedCapture.Proofs.Files.Standing
import FeedCapture.Proofs.Files.Stock
import FeedCapture.Proofs.Fleet.Alone
import FeedCapture.Proofs.Fleet.Counting
import FeedCapture.Proofs.Fleet.Fidelity
import FeedCapture.Proofs.Fleet.Gauge
import FeedCapture.Proofs.Fleet.Receiving
import FeedCapture.Proofs.Fleet.Stopping
import FeedCapture.Proofs.Fleet.Wiring
import FeedCapture.Proofs.Passage.Faithful
import FeedCapture.Proofs.Pipeline.Parts
import FeedCapture.Proofs.Pipeline.Persistence
import FeedCapture.Proofs.Race.Ending
import FeedCapture.Proofs.Race.Fleets
import FeedCapture.Proofs.Race.Handles
import FeedCapture.Proofs.Race.Lock
import FeedCapture.Proofs.Race.Polls
import FeedCapture.Proofs.Race.Spawning
import FeedCapture.Proofs.Supervisor.Fleets
import FeedCapture.Proofs.Supervisor.Isolation
import FeedCapture.Proofs.Supervisor.Joining
import FeedCapture.Proofs.Supervisor.Reachable
import FeedCapture.Proofs.Supervisor.Stop
import FeedCapture.Proofs.Worker.Carrying
import FeedCapture.Proofs.Worker.Metering
import FeedCapture.Proofs.Worker.Sharing
import FeedCapture.Proofs.Worker.Solo
import FeedCapture.Proofs.Worker.Transition
import FeedCapture.Proofs.Worker.Waiting
import FeedCapture.Proofs.Worker.Wiring
import FeedCapture.RecordSink
import FeedCapture.Registry
import FeedCapture.Session
import FeedCapture.Size
import FeedCapture.SourceAddress
import FeedCapture.Supervisor
import FeedCapture.Supervisor.Prompt
import FeedCapture.Supervisor.Race
import FeedCapture.Supervisor.Run
import FeedCapture.Text.Alphanumeric
import FeedCapture.Text.Blank
import FeedCapture.Text.Escaped
import FeedCapture.Text.Lowercase
import FeedCapture.Transport
import FeedCapture.Worker
import FeedCapture.Worker.Report
import FeedCapture.Yaml.Cursor
import FeedCapture.Yaml.Node
import FeedCapture.Yaml.Printer
import FeedCapture.Yaml.Scalar
import FeedCapture.Yaml.Token
import FeedCapture.Yaml.Value
import FeedCapture.Proofs.Fleet.Totals
import FeedCapture.Proofs.Supervisor.Registered
import FeedCapture.Bus.Handles
import FeedCapture.Proofs.Exchange.Ends
import FeedCapture.Proofs.Exchange.Handles
import FeedCapture.Supervisor.Timely
import FeedCapture.Proofs.Supervisor.Timely
import FeedCapture.Proofs.Worker.Bystander
import FeedCapture.Proofs.Fleet.Bystander
import FeedCapture.Proofs.Supervisor.Bystander
import FeedCapture.Proofs.Supervisor.Unaffected
import FeedCapture.Proofs.Config.Merging
import FeedCapture.Proofs.Config.Rules
import FeedCapture.Proofs.Config.Sections
import FeedCapture.Proofs.Config.Precedence
import FeedCapture.Proofs.Config.Printing
import FeedCapture.Proofs.Worker.Silence
import FeedCapture.Proofs.Fleet.Silence
import FeedCapture.Proofs.Fleet.Logs
import FeedCapture.Proofs.Fleet.Halting
import FeedCapture.Proofs.Worker.Outline
import FeedCapture.Proofs.Worker.Outage
import FeedCapture.Proofs.Fleet.Outage
import FeedCapture.Proofs.Worker.Linking
import FeedCapture.Proofs.Fleet.Linking
import FeedCapture.Proofs.Worker.Retrying
import FeedCapture.Proofs.Fleet.Retrying
import FeedCapture.Proofs.Worker.Closing
import FeedCapture.Proofs.Fleet.Closing
import FeedCapture.Proofs.Worker.Allowance
import FeedCapture.Proofs.Fleet.Allowance
import FeedCapture.Drain.Loop
import FeedCapture.Proofs.Drain.Draining
import FeedCapture.Proofs.Drain.Running
import FeedCapture.Proofs.Drain.Flushing
import FeedCapture.Proofs.Session.Settling
import FeedCapture.Proofs.Registry.Latest
import FeedCapture.Proofs.Files.Archiving
import FeedCapture.Proofs.Files.Interruption
import FeedCapture.Proofs.Files.Refusals
import FeedCapture.Proofs.Files.HandedOver
import FeedCapture.Proofs.Files.Directories
import FeedCapture.Proofs.Files.Endurance
import FeedCapture.Outage.Run
import FeedCapture.Proofs.Outage.History
import FeedCapture.Config.Findings
import FeedCapture.Proofs.Number.Exactness
import FeedCapture.Proofs.Config.Addresses
import FeedCapture.Proofs.Config.Sizes
import FeedCapture.Proofs.Config.Reporting
import FeedCapture.Proofs.Files.Separation
import FeedCapture.Proofs.Files.ReadingBack
