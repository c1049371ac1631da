import TeleopLedBenchmarks.Machine
import TeleopLedBenchmarks.AppState
import TeleopLedBenchmarks.System
import TeleopLedBenchmarks.Slot
import TeleopLedBenchmarks.Steps
import TeleopLedBenchmarks.SingleSlot
import TeleopLedBenchmarks.ReadLoop
import TeleopLedBenchmarks.Frames
import TeleopLedBenchmarks.Clicks
import TeleopLedBenchmarks.Blocks
import TeleopLedBenchmarks.Framing
import TeleopLedBenchmarks.Outbound
import TeleopLedBenchmarks.Accounting
import TeleopLedBenchmarks.Measuring
import TeleopLedBenchmarks.Writes
import TeleopLedBenchmarks.Replies
import TeleopLedBenchmarks.CommandFraming
import TeleopLedBenchmarks.Bench
import TeleopLedBenchmarks.Failures
import TeleopLedBenchmarks.ReplyFraming
import TeleopLedBenchmarks.RunApp
import TeleopLedBenchmarks.FrameChain
import TeleopLedBenchmarks.ReceiveBuffer
import TeleopLedBenchmarks.JsonSafety
import TeleopLedBenchmarks.OwnBytes
import TeleopLedBenchmarks.Shutdown
import TeleopLedBenchmarks.Descriptors
import TeleopLedBenchmarks.RoundTrips
import TeleopLedBenchmarks.Progress
import TeleopLedBenchmarks.NeverStuck
import TeleopLedBenchmarks.Transducer
import TeleopLedBenchmarks.UriEscape
import TeleopLedBenchmarks.UriPieces
import TeleopLedBenchmarks.UriRoundTrip
import TeleopLedBenchmarks.UriDecode
import TeleopLedBenchmarks.WifiConnect
import TeleopLedBenchmarks.WifiRetry
import TeleopLedBenchmarks.WifiAddresses
import TeleopLedBenchmarks.WifiSemaphores
import TeleopLedBenchmarks.PoolProgress
import TeleopLedBenchmarks.RunAppReturns
import TeleopLedBenchmarks.Latencies
import TeleopLedBenchmarks.WsSession
