import FlightBlocks.Blocks.Block
import FlightBlocks.Blocks.Canvas
import FlightBlocks.Blocks.Defect
import FlightBlocks.Blocks.Kind
import FlightBlocks.Blocks.Snapshot
import FlightBlocks.Blocks.Walk
import FlightBlocks.Blocks.Workspace
import FlightBlocks.CommandLine.Arguments
import FlightBlocks.CommandLine.Command
import FlightBlocks.CommandLine.Run
import FlightBlocks.Digest.Sha256
import FlightBlocks.Files.Access
import FlightBlocks.Files.Fault
import FlightBlocks.Files.Lookup
import FlightBlocks.Files.Path
import FlightBlocks.Files.Search
import FlightBlocks.Files.Tree
import FlightBlocks.Json.Basic
import FlightBlocks.Json.Double
import FlightBlocks.Json.Printer
import FlightBlocks.Json.Reader
import FlightBlocks.Json.Record
import FlightBlocks.Json.Token
import FlightBlocks.Machine.Concatenate
import FlightBlocks.Machine.Escape
import FlightBlocks.Machine.Launch
import FlightBlocks.Machine.Options
import FlightBlocks.Machine.Process
import FlightBlocks.Machine.Programs
import FlightBlocks.Machine.Quoting
import FlightBlocks.Machine.Remove
import FlightBlocks.Machine.Tools
import FlightBlocks.Main
import FlightBlocks.Preview.Call
import FlightBlocks.Preview.Drawing
import FlightBlocks.Preview.Grid
import FlightBlocks.Preview.Live
import FlightBlocks.Preview.Pause
import FlightBlocks.Preview.Run
import FlightBlocks.Preview.Session
import FlightBlocks.Preview.Snapshot
import FlightBlocks.Preview.Trace
import FlightBlocks.Proofs.Blocks.Canvas
import FlightBlocks.Proofs.Blocks.Chains
import FlightBlocks.Proofs.Blocks.Cycles
import FlightBlocks.Proofs.Blocks.Fields
import FlightBlocks.Proofs.Blocks.Order
import FlightBlocks.Proofs.Blocks.Reload
import FlightBlocks.Proofs.Blocks.Snapshot
import FlightBlocks.Proofs.Blocks.Walk
import FlightBlocks.Proofs.Files.Access
import FlightBlocks.Proofs.Files.Change
import FlightBlocks.Proofs.Files.Folding
import FlightBlocks.Proofs.Files.Keeps
import FlightBlocks.Proofs.Files.Lookup
import FlightBlocks.Proofs.Files.Search
import FlightBlocks.Proofs.Files.Settle
import FlightBlocks.Proofs.Files.Straight
import FlightBlocks.Proofs.Json.Numeral
import FlightBlocks.Proofs.Json.Pretty
import FlightBlocks.Proofs.Json.Record
import FlightBlocks.Proofs.Json.Size
import FlightBlocks.Proofs.Preview.Bounds
import FlightBlocks.Proofs.Preview.Busy
import FlightBlocks.Proofs.Preview.Calls
import FlightBlocks.Proofs.Preview.Drawing
import FlightBlocks.Proofs.Preview.Ending
import FlightBlocks.Proofs.Preview.Flight
import FlightBlocks.Proofs.Preview.Flips
import FlightBlocks.Proofs.Preview.Follow
import FlightBlocks.Proofs.Preview.Frames
import FlightBlocks.Proofs.Preview.Live
import FlightBlocks.Proofs.Preview.Moves
import FlightBlocks.Proofs.Preview.Outcome
import FlightBlocks.Proofs.Preview.Passing
import FlightBlocks.Proofs.Preview.Pausing
import FlightBlocks.Proofs.Preview.Picture
import FlightBlocks.Proofs.Preview.Punctual
import FlightBlocks.Proofs.Preview.Session
import FlightBlocks.Proofs.Preview.Stopping
import FlightBlocks.Proofs.Preview.Timetable
import FlightBlocks.Proofs.Sequence.Compiled
import FlightBlocks.Proofs.Sequence.Declaration
import FlightBlocks.Proofs.Sequence.Header
import FlightBlocks.Proofs.Sequence.Leftmost
import FlightBlocks.Proofs.Store.Confinement
import FlightBlocks.Proofs.Store.Effect
import FlightBlocks.Proofs.Store.History
import FlightBlocks.Proofs.Store.Lexical
import FlightBlocks.Proofs.Store.Overwrite
import FlightBlocks.Proofs.Store.Tampering
import FlightBlocks.Proofs.Studio.Persist
import FlightBlocks.Proofs.Studio.Redeploy
import FlightBlocks.Proofs.Text.Framing
import FlightBlocks.Room
import FlightBlocks.Sequence.Declaration
import FlightBlocks.Sequence.Directive
import FlightBlocks.Sequence.Header
import FlightBlocks.Sequence.Literal
import FlightBlocks.Sequence.Snapshot
import FlightBlocks.Shell.Arithmetic
import FlightBlocks.Shell.Builtin.Alias
import FlightBlocks.Shell.Builtin.Basic
import FlightBlocks.Shell.Builtin.Binding
import FlightBlocks.Shell.Builtin.Directory
import FlightBlocks.Shell.Builtin.Flow
import FlightBlocks.Shell.Builtin.Job
import FlightBlocks.Shell.Builtin.Output
import FlightBlocks.Shell.Builtin.Setting
import FlightBlocks.Shell.Builtin.Table
import FlightBlocks.Shell.CommandReader
import FlightBlocks.Shell.Condition
import FlightBlocks.Shell.Descriptor
import FlightBlocks.Shell.Expansion
import FlightBlocks.Shell.Field
import FlightBlocks.Shell.Format
import FlightBlocks.Shell.Input
import FlightBlocks.Shell.Mask
import FlightBlocks.Shell.Name
import FlightBlocks.Shell.Number
import FlightBlocks.Shell.Pattern
import FlightBlocks.Shell.Program
import FlightBlocks.Shell.Reading
import FlightBlocks.Shell.Real
import FlightBlocks.Shell.Redirect
import FlightBlocks.Shell.Run
import FlightBlocks.Shell.Script
import FlightBlocks.Shell.Search
import FlightBlocks.Shell.Signal
import FlightBlocks.Shell.Simple
import FlightBlocks.Shell.State
import FlightBlocks.Shell.Switch
import FlightBlocks.Shell.Syntax
import FlightBlocks.Shell.WordReader
import FlightBlocks.Shell.World
import FlightBlocks.Store.Failure
import FlightBlocks.Store.History
import FlightBlocks.Store.Request
import FlightBlocks.Store.Sandbox
import FlightBlocks.Store.Store
import FlightBlocks.Studio.Failure
import FlightBlocks.Studio.Response
import FlightBlocks.Studio.Settings
import FlightBlocks.Studio.Studio
import FlightBlocks.Studio.Upload
import FlightBlocks.Text.Blank
import FlightBlocks.Text.Bytes
import FlightBlocks.Text.Hex
import FlightBlocks.Text.Replace
import FlightBlocks.Text.Utf8
import FlightBlocks.Toml.Basic
import FlightBlocks.Toml.Document
import FlightBlocks.Toml.Number
import FlightBlocks.Toml.Record
import FlightBlocks.Toml.Table
import FlightBlocks.Toml.Text
import FlightBlocks.Toml.Value
