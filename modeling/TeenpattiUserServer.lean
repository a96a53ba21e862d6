import TeenpattiUserServer.Intrusive.Links
import TeenpattiUserServer.Store.Interrupted
import TeenpattiUserServer.Bytes.Memory
import TeenpattiUserServer.Framing.Stream
import TeenpattiUserServer.Bookkeeping.Counters
import TeenpattiUserServer.Bookkeeping.Marks
import TeenpattiUserServer.Bookkeeping.Runs
import TeenpattiUserServer.Shm.FiniteMap
import TeenpattiUserServer.Shm.Restart
import TeenpattiUserServer.Shm.CrashSafety
import TeenpattiUserServer.Shm.Recency
import TeenpattiUserServer.Shm.ChunkRuns
import TeenpattiUserServer.Packet.Confinement
import TeenpattiUserServer.Packet.Atomic
import TeenpattiUserServer.Packet.StringFields
import TeenpattiUserServer.Packet.OutputPacket
import TeenpattiUserServer.Packet.Overflow
import TeenpattiUserServer.Net.PacketComplete
import TeenpattiUserServer.Net.FrameVerdicts
import TeenpattiUserServer.Net.Poller
import TeenpattiUserServer.Net.PoolRuns
import TeenpattiUserServer.Net.CacheQueue
import TeenpattiUserServer.Net.SharedPool
import TeenpattiUserServer.Net.ProcessEvents
import TeenpattiUserServer.Net.AcceptLoop
import TeenpattiUserServer.Net.TimerRings
import TeenpattiUserServer.UserServer.OnlineCounts
import TeenpattiUserServer.UserServer.OfflineList
import TeenpattiUserServer.UserServer.PlayCounts
import TeenpattiUserServer.UserServer.LevelCounts
import TeenpattiUserServer.UserServer.ExactSweeps
import TeenpattiUserServer.UserServer.FullTable
import TeenpattiUserServer.UserServer.LateReports
import TeenpattiUserServer.UserServer.Onlookers
import TeenpattiUserServer.UserServer.RoomCounts
import TeenpattiUserServer.UserServer.Tunnel
import TeenpattiUserServer.UserServer.Dispatch
import TeenpattiUserServer.UserServer.SynData
import TeenpattiUserServer.UserServer.LevelTotals
import TeenpattiUserServer.UserServer.Truncated
import TeenpattiUserServer.UserServer.EventLoop
import TeenpattiUserServer.UserServer.Attached
import TeenpattiUserServer.UserServer.Lives
import TeenpattiUserServer.Config.ConfigFile
import TeenpattiUserServer.UserServer.RandomConfig
import TeenpattiUserServer.UserServer.Exchange
