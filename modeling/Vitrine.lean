import Vitrine.Calendar
import Vitrine.Command.Archive
import Vitrine.Command.Arguments
import Vitrine.Command.Execute
import Vitrine.Command.Line
import Vitrine.Command.Shell
import Vitrine.Decimal.Double
import Vitrine.Decimal.Layout
import Vitrine.Decimal.Reader
import Vitrine.Decimal.Shortest
import Vitrine.Error
import Vitrine.Fault
import Vitrine.Files.Errno
import Vitrine.Files.Node
import Vitrine.Files.Path
import Vitrine.Files.Store
import Vitrine.Files.Walk
import Vitrine.Host
import Vitrine.Instance.Backup
import Vitrine.Instance.Marker
import Vitrine.Instance.Recovery
import Vitrine.Json
import Vitrine.Json.Reader
import Vitrine.Locate
import Vitrine.Log
import Vitrine.Main
import Vitrine.Preview.Code
import Vitrine.Preview.Component
import Vitrine.Preview.Config
import Vitrine.Preview.Descriptor
import Vitrine.Preview.EntryCode
import Vitrine.Preview.Field
import Vitrine.Preview.Function
import Vitrine.Preview.FunctionSpec
import Vitrine.Preview.Issue
import Vitrine.Preview.Location
import Vitrine.Preview.Props
import Vitrine.Preview.Resolution
import Vitrine.Preview.Scaffold
import Vitrine.Proofs.Decimal.Layout
import Vitrine.Proofs.Decimal.Literals
import Vitrine.Proofs.Decimal.Numerals
import Vitrine.Proofs.Decimal.RoundTrip
import Vitrine.Proofs.Entries
import Vitrine.Proofs.Files.Arrival
import Vitrine.Proofs.Files.Differences
import Vitrine.Proofs.Files.Directories
import Vitrine.Proofs.Files.Operations
import Vitrine.Proofs.Files.Places
import Vitrine.Proofs.Files.RealPath
import Vitrine.Proofs.Files.Recasting
import Vitrine.Proofs.Files.Sight
import Vitrine.Proofs.Files.Spelling
import Vitrine.Proofs.Instance.Damage
import Vitrine.Proofs.Instance.Listing
import Vitrine.Proofs.Instance.Names
import Vitrine.Proofs.Instance.Reading
import Vitrine.Proofs.Instance.Recovery
import Vitrine.Proofs.Instance.Round
import Vitrine.Proofs.Instance.Settlement
import Vitrine.Proofs.Instance.Sweep
import Vitrine.Proofs.Json.Printable
import Vitrine.Proofs.Json.Reading
import Vitrine.Proofs.Json.RoundTrip
import Vitrine.Proofs.Outcome
import Vitrine.Proofs.Preview.ComponentName
import Vitrine.Proofs.Preview.Function
import Vitrine.Proofs.Preview.Generation
import Vitrine.Proofs.Preview.ImportPath
import Vitrine.Proofs.Preview.Interpreting
import Vitrine.Proofs.Preview.Literals
import Vitrine.Proofs.Preview.Location
import Vitrine.Proofs.Preview.Notation
import Vitrine.Proofs.Preview.Outcomes
import Vitrine.Proofs.Preview.Quoting
import Vitrine.Proofs.Preview.Rendering
import Vitrine.Proofs.Preview.Rereading
import Vitrine.Proofs.Preview.Scaffold
import Vitrine.Proofs.Preview.Specification
import Vitrine.Proofs.Preview.Standpoint
import Vitrine.Proofs.Preview.Writing
import Vitrine.Proofs.Registry.Agreement
import Vitrine.Proofs.Registry.Footprint
import Vitrine.Proofs.Registry.Ledger
import Vitrine.Proofs.Registry.Records
import Vitrine.Proofs.Registry.Return
import Vitrine.Proofs.Registry.Scaffolding
import Vitrine.Proofs.Script.Containment
import Vitrine.Proofs.Script.Escapes
import Vitrine.Proofs.Script.Faults
import Vitrine.Proofs.Script.FunctionFree
import Vitrine.Proofs.Script.Functions
import Vitrine.Proofs.Script.Gaps
import Vitrine.Proofs.Script.Grammar
import Vitrine.Proofs.Script.Heads
import Vitrine.Proofs.Script.Identities
import Vitrine.Proofs.Script.Isolation
import Vitrine.Proofs.Script.Joining
import Vitrine.Proofs.Script.Lexemes
import Vitrine.Proofs.Script.Lexing
import Vitrine.Proofs.Script.Numerals
import Vitrine.Proofs.Script.Outcomes
import Vitrine.Proofs.Script.Printing
import Vitrine.Proofs.Script.Productions
import Vitrine.Proofs.Script.Progress
import Vitrine.Proofs.Script.Reading
import Vitrine.Proofs.Script.Reparsing
import Vitrine.Proofs.Script.RoundTrip
import Vitrine.Proofs.Script.Running
import Vitrine.Proofs.Script.Sequencing
import Vitrine.Proofs.Script.Settling
import Vitrine.Proofs.Script.Soundness
import Vitrine.Proofs.Script.Spans
import Vitrine.Proofs.Script.Statements
import Vitrine.Proofs.Script.Texts
import Vitrine.Proofs.Session.Act
import Vitrine.Proofs.Session.Arrival
import Vitrine.Proofs.Session.Consultation
import Vitrine.Proofs.Session.Custody
import Vitrine.Proofs.Session.Delivery
import Vitrine.Proofs.Session.Deposit
import Vitrine.Proofs.Session.Edits
import Vitrine.Proofs.Session.Exclusion
import Vitrine.Proofs.Session.Glances
import Vitrine.Proofs.Session.Indifference
import Vitrine.Proofs.Session.Interruption
import Vitrine.Proofs.Session.Lease
import Vitrine.Proofs.Session.Ownership
import Vitrine.Proofs.Session.Polling
import Vitrine.Proofs.Session.Recovery
import Vitrine.Proofs.Session.Regeneration
import Vitrine.Proofs.Session.Rehearsal
import Vitrine.Proofs.Session.Remains
import Vitrine.Proofs.Session.Report
import Vitrine.Proofs.Session.Restoration
import Vitrine.Proofs.Session.Safekeeping
import Vitrine.Proofs.Session.Sharing
import Vitrine.Proofs.Session.Steps
import Vitrine.Proofs.Session.Surroundings
import Vitrine.Proofs.Session.Termination
import Vitrine.Proofs.Session.Turns
import Vitrine.Proofs.Session.Vault
import Vitrine.Proofs.Text.Hex
import Vitrine.Proofs.Text.Lines
import Vitrine.Proofs.Watching
import Vitrine.Proofs.Work
import Vitrine.Registry
import Vitrine.Script.Builtin
import Vitrine.Script.Equality
import Vitrine.Script.Eval
import Vitrine.Script.Identity
import Vitrine.Script.Lexer
import Vitrine.Script.Monad
import Vitrine.Script.Number
import Vitrine.Script.Parser
import Vitrine.Script.Program
import Vitrine.Script.Shape
import Vitrine.Script.Stringify
import Vitrine.Script.Syntax
import Vitrine.Script.Token
import Vitrine.Session.DevServer
import Vitrine.Session.Run
import Vitrine.Session.Scene
import Vitrine.Settings
import Vitrine.Terminal.Markup
import Vitrine.Terminal.Table
import Vitrine.Terminal.Width
import Vitrine.Terminal.Wrap
import Vitrine.Text.Blank
import Vitrine.Text.Bytes
import Vitrine.Text.Case
import Vitrine.Text.CaseTable
import Vitrine.Text.Digit
import Vitrine.Text.Letter
import Vitrine.Text.Printable
import Vitrine.Text.Quoted
import Vitrine.Text.Ranges
import Vitrine.Text.Words
import Vitrine.Value
import Vitrine.Value.Display
import Vitrine.Watcher
import Vitrine.Yaml.Cursor
import Vitrine.Yaml.Document
import Vitrine.Yaml.Flow
import Vitrine.Yaml.Lexer
import Vitrine.Yaml.Node
import Vitrine.Yaml.Scalar
import Vitrine.Yaml.Tag
import Vitrine.Yaml.Token
import Vitrine.Yaml.Written
