import SubmarineMonitor.Foundation.Framing
import SubmarineMonitor.Protocol.Crc
import SubmarineMonitor.Protocol.Frame
import SubmarineMonitor.Protocol.Receiver
import SubmarineMonitor.Protocol.Stream
import SubmarineMonitor.Foundation.Machine
import SubmarineMonitor.Foundation.Rtos
import SubmarineMonitor.Node.Communication
import SubmarineMonitor.Node.TxAccounting
import SubmarineMonitor.Foundation.Flash
import SubmarineMonitor.Node.Config
import SubmarineMonitor.Node.ConfigRecovery
import SubmarineMonitor.Foundation.Positional
import SubmarineMonitor.Foundation.Text
import SubmarineMonitor.Node.Timestamp
import SubmarineMonitor.Node.Log
import SubmarineMonitor.Foundation.Calendar
import SubmarineMonitor.Node.LogRetention
import SubmarineMonitor.Node.Query
import SubmarineMonitor.Node.QueryRun
import SubmarineMonitor.Node.ObjectDetection
import SubmarineMonitor.Central.ManagementCommand
import SubmarineMonitor.Central.GetConfig
import SubmarineMonitor.Node.TxDrain
import SubmarineMonitor.Protocol.RoundTrip
import SubmarineMonitor.Foundation.Resync
import SubmarineMonitor.Foundation.ShiftRegister
import SubmarineMonitor.Protocol.CrcRegister
import SubmarineMonitor.Protocol.ErrorDetection
import SubmarineMonitor.Protocol.Recovery
import SubmarineMonitor.Central.Communication
import SubmarineMonitor.Central.DataCollection
import SubmarineMonitor.Central.Grading
import SubmarineMonitor.Central.GsLinkServer
import SubmarineMonitor.GroundStation.CentralComputer
import SubmarineMonitor.Central.CommandFidelity
import SubmarineMonitor.Central.Telemetry
import SubmarineMonitor.Node.LogWeek
import SubmarineMonitor.Node.RecordFiles
import SubmarineMonitor.Node.TornAppend
import SubmarineMonitor.Central.GsAnswer
import SubmarineMonitor.Node.LogDates
import SubmarineMonitor.Foundation.Mirrored
import SubmarineMonitor.Foundation.WindowCounter
import SubmarineMonitor.GroundStation.Fleet
import SubmarineMonitor.GroundStation.FleetInvariant
import SubmarineMonitor.Node.EdgeFilter
import SubmarineMonitor.Node.EdgeNoise
import SubmarineMonitor.Central.Datetime
import SubmarineMonitor.Central.Gateway
import SubmarineMonitor.Central.RawRange
import SubmarineMonitor.GroundStation.QueryRange
import SubmarineMonitor.Central.Log
import SubmarineMonitor.Foundation.BigEndian
import SubmarineMonitor.Foundation.BitPolynomial
import SubmarineMonitor.Foundation.Region
import SubmarineMonitor.Foundation.Separated
import SubmarineMonitor.GroundStation.SplitNames
import SubmarineMonitor.Protocol.CrcPolynomial
import SubmarineMonitor.Protocol.Payload
import SubmarineMonitor.Protocol.PayloadRoundTrip
import SubmarineMonitor.Protocol.ReceiverState
import SubmarineMonitor.Central.TimeSync
import SubmarineMonitor.Foundation.Mutex
import SubmarineMonitor.Node.ConfigAccess
import SubmarineMonitor.Node.Receive
import SubmarineMonitor.Node.SdAccess
import SubmarineMonitor.Node.TxOrder
import SubmarineMonitor.Central.Ingest
import SubmarineMonitor.Central.LiveLog
import SubmarineMonitor.Foundation.Polling
import SubmarineMonitor.Node.Dht
import SubmarineMonitor.Central.Connection
import SubmarineMonitor.Foundation.LockOrder
import SubmarineMonitor.GroundStation.EventsShown
import SubmarineMonitor.Node.LockUse
import SubmarineMonitor.Node.Schedule
