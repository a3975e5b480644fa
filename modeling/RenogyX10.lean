import RenogyX10.Lib.Proc
import RenogyX10.Lib.LinkedQueue
import RenogyX10.Lib.Runs
import RenogyX10.Lib.Framing
import RenogyX10.Lib.Fields
import RenogyX10.Lib.ParseInt
import RenogyX10.Parse
import RenogyX10.Toml
import RenogyX10.Lib.Checked
import RenogyX10.TtyReader.Types
import RenogyX10.TtyReader.Frame
import RenogyX10.TtyReader.Modbus
import RenogyX10.TtyReader.Main
import RenogyX10.TtyReader.TtyToml
import RenogyX10.TtyReader.Queues
import RenogyX10.TtyReader.Delivery
import RenogyX10.TtyReader.PollTable
import RenogyX10.TtyReader.Blind
import RenogyX10.TtyReader.Passes
import RenogyX10.TtyReader.Spacing
import RenogyX10.TtyReader.Range
import RenogyX10.TtyReader.Schedule
import RenogyX10.TtyReader.Period
import RenogyX10.TtyReader.Restart
import RenogyX10.TtyReader.Waits
import RenogyX10.TtyReader.Round
import RenogyX10.Csck
import RenogyX10.Heyu.Charger
import RenogyX10.Heyu.Main
import RenogyX10.Heyu.ExitOff
import RenogyX10.Heyu.TurnOn
import RenogyX10.Heyu.SwitchOff
import RenogyX10.Heyu.Sync
import RenogyX10.Heyu.Discipline
import RenogyX10.Heyu.Clock
import RenogyX10.Messages
import RenogyX10.Influx.Decode
import RenogyX10.Influx.Types
import RenogyX10.Influx.Main
import RenogyX10.Influx.Links
import RenogyX10.Influx.Stream
import RenogyX10.Influx.Setup
import RenogyX10.Influx.Payload
import RenogyX10.Influx.Space
import RenogyX10.TtyClient.Main
import RenogyX10.TtyClient.Lines
import RenogyX10.TtyClient.Pieces
import RenogyX10.Readings
import RenogyX10.RenogyInflux.Main
import RenogyX10.RenogyInflux.Handles
import RenogyX10.RenogyInflux.SendRecv
import RenogyX10.RenogyInflux.Passes
import RenogyX10.RenogyInflux.Requests
import RenogyX10.RenogyInflux.Shutdown
import RenogyX10.RenogyInflux.Deadline
import RenogyX10.RenogyInflux.Clock
import RenogyX10.RenogyInflux.Rounds
import RenogyX10.Cm11a.Types
import RenogyX10.Cm11a.Checksum
import RenogyX10.Cm11a.Output
import RenogyX10.Cm11a.Retransmit
import RenogyX10.Cm11a.Slot
import RenogyX10.Lib.Triple
import RenogyX10.Lib.CString
import RenogyX10.Lib.Forest
import RenogyX10.Lib.Http
import RenogyX10.Lib.Blocks
import RenogyX10.Toml.Utf8
import RenogyX10.Toml.Norm
import RenogyX10.Toml.Lexer
import RenogyX10.Toml.Values
import RenogyX10.Toml.Parser
import RenogyX10.Toml.Tree
import RenogyX10.Toml.Tokens
import RenogyX10.Toml.Safety
import RenogyX10.Toml.Access
import RenogyX10.Toml.Integers
import RenogyX10.Toml.Quote
import RenogyX10.Toml.Render
import RenogyX10.Toml.Scalars
import RenogyX10.Toml.Timestamps
import RenogyX10.TtyReader.ConfigText
import RenogyX10.TtyReader.Connections
import RenogyX10.TtyReader.Record
import RenogyX10.Influx.Requests
import RenogyX10.Influx.Follow
import RenogyX10.Publisher
import RenogyX10.Subscription
import RenogyX10.Post
import RenogyX10.Influx.Served
import RenogyX10.Database
import RenogyX10.RenogyInflux.Served
import RenogyX10.Heyu.Respond
import RenogyX10.Switching
import RenogyX10.TtyReader.Draining
