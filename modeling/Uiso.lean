import Uiso.Foundation.Machine
import Uiso.Rtos.Kernel
import Uiso.Sntp.Types
import Uiso.Wifi.Task
import Uiso.Wifi.SyncTimer
import Uiso.Wifi.Suspension
import Uiso.Foundation.Prog
import Uiso.Network.Context
import Uiso.Network.Connect
import Uiso.Network.Transfer
import Uiso.Foundation.Trace
import Uiso.Network.Agreement
import Uiso.Network.Outcome
import Uiso.Network.Peer
import Uiso.Network.Continuity
import Uiso.Lwm2m.Connection
import Uiso.Lwm2m.Transmission
import Uiso.Lwm2m.Ownership
import Uiso.Monitor.Task
import Uiso.Monitor.Registration
import Uiso.Monitor.Wakeup
import Uiso.Gecko.Sleeptimer
import Uiso.Sntp.Packet
import Uiso.Sntp.Request
import Uiso.Sntp.Acceptance
import Uiso.Sntp.Atomicity
import Uiso.Sntp.Replay
import Uiso.Wifi.KissOfDeath
import Uiso.Config.Jsmn
import Uiso.Config.Loader
import Uiso.Config.Sections
import Uiso.Config.Contents
import Uiso.Config.Json
import Uiso.Config.Document
import Uiso.Config.Tokenize
import Uiso.Config.Values
import Uiso.Config.Relocate
import Uiso.Config.Unknown
import Uiso.Mbedtls.Timing
import Uiso.Foundation.KeyedList
import Uiso.Lwm2m.Object
import Uiso.Lwm2m.ServerObject
import Uiso.Lwm2m.ServerInvariant
import Uiso.Lwm2m.ServerWrite
import Uiso.Lwm2m.Discover
import Uiso.Foundation.Chain
import Uiso.Lwm2m.SessionList
import Uiso.Lwm2m.Dispatch
import Uiso.Monitor.Mutex
import Uiso.Wifi.Preemption
import Uiso.Foundation.Wire
import Uiso.Mqtt.Framing
import Uiso.Foundation.CString
import Uiso.Monitor.Scan
import Uiso.Monitor.SecondPass
import Uiso.Lwm2m.ConnectionFree
import Uiso.Lwm2m.ServerUri
import Uiso.Foundation.Calendar
import Uiso.Gecko.Calendar
import Uiso.Board.Clock
import Uiso.Mbedtls.Gmtime
import Uiso.Sntp.Clocks
import Uiso.Wifi.SyncInterval
import Uiso.Network.IdleTime
import Uiso.Foundation.Accumulator
import Uiso.Sensor.Statistics
import Uiso.Mqtt.Cycle
import Uiso.Fatfs.Passes
import Uiso.Monitor.SelectStart
import Uiso.Mqtt.Watching
import Uiso.Foundation.SlotTable
import Uiso.Mqtt.Handlers
import Uiso.Mqtt.Codec
import Uiso.Mqtt.Publication
import Uiso.Mqtt.Delivery
import Uiso.Mqtt.Session
import Uiso.Mqtt.Exchange
import Uiso.Mqtt.Echo
import Uiso.Mqtt.KeepAlive
import Uiso.Foundation.Spi
import Uiso.Sd.Driver
import Uiso.Sd.Card
import Uiso.Sd.Transfer
import Uiso.Sd.Store
import Uiso.Sd.Bounds
import Uiso.Sd.Kept
import Uiso.Sd.Log
import Uiso.Sd.Sequence
import Uiso.Sd.Trust
