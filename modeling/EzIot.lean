import EzIot.Lib.CText
import EzIot.Lib.Scan
import EzIot.Lib.Buffer
import EzIot.Lib.Nested
import EzIot.Lib.Run
import EzIot.Lib.Threads
import EzIot.Lib.Slots
import EzIot.Lib.Program
import EzIot.Lib.Tiling
import EzIot.Lib.Aligned
import EzIot.CJson.Value
import EzIot.CJson.Parse
import EzIot.CJson.Grammar
import EzIot.CJson.Print
import EzIot.CJson.Tree
import EzIot.CJson.Exact
import EzIot.CJson.Edit
import EzIot.Kv.Store
import EzIot.Kernel.Message
import EzIot.Kernel.Queue
import EzIot.Kernel.Upstream
import EzIot.Kernel.Extend
import EzIot.Kernel.Risk
import EzIot.Kernel.State
import EzIot.Das.Topic
import EzIot.Das.Aes
import EzIot.Das.Header
import EzIot.Das.Frame
import EzIot.Das.Isolation
import EzIot.Das.Send
import EzIot.Das.Dispatch
import EzIot.Shadow.Tree
import EzIot.Shadow.Paths
import EzIot.Shadow.Registry
import EzIot.Shadow.Report
import EzIot.Shadow.Ack
import EzIot.Shadow.Status
import EzIot.Shadow.Route
import EzIot.Shadow.Address
import EzIot.Lbs.Transport
import EzIot.Lbs.Handshake
import EzIot.Lbs.Steps
import EzIot.Lbs.Credentials
import EzIot.Das.Padding
import EzIot.Lib.Base128
import EzIot.Lbs.AuthType
import EzIot.Lbs.Length
import EzIot.Lib.Logged
import EzIot.Lbs.Bounds
import EzIot.Lib.Line
import EzIot.Lbs.Sending
import EzIot.Lbs.ServerInfo
import EzIot.Lbs.Platform
import EzIot.Lbs.Answers
import EzIot.Lbs.Meeting
import EzIot.Access.Machine
import EzIot.Access.Counters
import EzIot.Access.Events
import EzIot.Access.Heartbeat
import EzIot.Access.Redirect
import EzIot.Ota.Download
import EzIot.Ota.Slot
import EzIot.Ota.Upgrade
import EzIot.Tsl.Schema
import EzIot.Tsl.Check
import EzIot.Tsl.Meaning
import EzIot.Tsl.Enforced
import EzIot.Tsl.Legality
import EzIot.Tsl.Profile
import EzIot.Tsl.Lookup
import EzIot.Tsl.Registry
import EzIot.Tsl.Storage
import EzIot.Hub.List
import EzIot.Hub.Count
import EzIot.Model.Domain
import EzIot.Timer.Routine
import EzIot.Conn.Busy
import EzIot.Conn.Body
import EzIot.Conn.Request
import EzIot.Conn.Resources
import EzIot.Shadow.Codec
import EzIot.Shadow.Delivery
import EzIot.Shadow.Visits
import EzIot.Shadow.Due
import EzIot.Shadow.Retry
import EzIot.Lib.Ledger
import EzIot.Model.Value
import EzIot.Model.Route
import EzIot.Model.Message
import EzIot.Tsl.Downlink
import EzIot.Tsl.Adapter
import EzIot.Tsl.Worker
import EzIot.Lib.Links
import EzIot.Ezlist.List
import EzIot.Kernel.Deque
import EzIot.Timer.Period
import EzIot.Timer.Service
import EzIot.Lib.Base64
import EzIot.Tsl.Handle
import EzIot.Lib.Faulty
import EzIot.Tsl.Faults
import EzIot.Tsl.Atomic
import EzIot.Lib.Guard
import EzIot.Hub.AuthSerial
import EzIot.Hub.Next
import EzIot.Hub.Lock
import EzIot.Base.Route
import EzIot.Lib.Digits
import EzIot.Ezutil.Misc
import EzIot.Ezlist.Clear
import EzIot.Lib.Views
import EzIot.Hub.Effects
import EzIot.Hub.Simulation
import EzIot.Lib.Writer
import EzIot.Mqtt.Packet
import EzIot.Mqtt.Publish
import EzIot.Mqtt.Connect
import EzIot.Mqtt.Subscribe
import EzIot.Mqtt.Topic
import EzIot.Mqtt.Net
import EzIot.Mqtt.Client
import EzIot.Mqtt.Framing
import EzIot.Mqtt.Session
import EzIot.Mqtt.Faults
import EzIot.Mqtt.Calls
import EzIot.Mqtt.Handlers
import EzIot.Das.Publish
import EzIot.Access.Client
