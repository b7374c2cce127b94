import TsunamiUdp.Library.Runs
import TsunamiUdp.Library.Circular
import TsunamiUdp.Library.Bytes
import TsunamiUdp.Protocol
import TsunamiUdp.Client.Ring
import TsunamiUdp.Client.RingThreads
import TsunamiUdp.Client.Transfer
import TsunamiUdp.Client.Receive
import TsunamiUdp.Client.Forgotten
import TsunamiUdp.Client.Accounting
import TsunamiUdp.Library.Blocks
import TsunamiUdp.Server.Datagram
import TsunamiUdp.Server.FastPath
import TsunamiUdp.RtServer.Backup
import TsunamiUdp.Server.Accept
import TsunamiUdp.Server.Handler
import TsunamiUdp.Server.Restart
import TsunamiUdp.Server.Framing
import TsunamiUdp.Client.Disk
import TsunamiUdp.Client.Get
import TsunamiUdp.Client.Success
import TsunamiUdp.Client.Requests
import TsunamiUdp.Session.Serving
import TsunamiUdp.Session.Receiving
import TsunamiUdp.Session.Correct
import TsunamiUdp.Client.RingProgress
import TsunamiUdp.Session.Overflow
import TsunamiUdp.Library.Text
import TsunamiUdp.Control.Client
import TsunamiUdp.Control.Server
import TsunamiUdp.Control.Connection
import TsunamiUdp.Control.InStep
import TsunamiUdp.Control.Handshake
import TsunamiUdp.Client.Sources
import TsunamiUdp.Server.Pacing
import TsunamiUdp.Session.Sequence
import TsunamiUdp.Control.Broken
import TsunamiUdp.Control.Parameters
import TsunamiUdp.Server.EndOfFile
import TsunamiUdp.Client.LossWindow
import TsunamiUdp.Client.RingWaits
import TsunamiUdp.Client.Duplicates
import TsunamiUdp.Client.Lasting
import TsunamiUdp.Session.Healthy
import TsunamiUdp.Session.Draining
import TsunamiUdp.Client.Asking
import TsunamiUdp.Session.CatchingUp
import TsunamiUdp.Session.Recovering
import TsunamiUdp.Session.NoDeadEnd
import TsunamiUdp.Session.Reassembly
import TsunamiUdp.Client.ErrorReport
import TsunamiUdp.Client.Repeating
import TsunamiUdp.Client.Sorting
import TsunamiUdp.Server.RateControl
import TsunamiUdp.Control.Allhook
import TsunamiUdp.Client.Teardown
import TsunamiUdp.Server.Emitted
import TsunamiUdp.Library.Md5
import TsunamiUdp.Common.Md5
import TsunamiUdp.Control.Authenticate
import TsunamiUdp.Control.FileLists
import TsunamiUdp.Library.Skipping
import TsunamiUdp.RtServer.Delivered
import TsunamiUdp.RtServer.Packing
import TsunamiUdp.Control.Hosts
import TsunamiUdp.Library.Tokens
import TsunamiUdp.RtServer.EvnFilename
import TsunamiUdp.Client.BlockLoops
import TsunamiUdp.Library.Calendar
import TsunamiUdp.Library.Scanf
import TsunamiUdp.RtServer.ParseTime
import TsunamiUdp.RtServer.StartTimes
import TsunamiUdp.RtServer.RecordingLength
import TsunamiUdp.Client.Main
import TsunamiUdp.Control.CommandSet
import TsunamiUdp.Client.TableBounds
import TsunamiUdp.Client.Tokenizer
import TsunamiUdp.Client.Commands
import TsunamiUdp.Client.ReceivedMap
import TsunamiUdp.Client.RingMemory
import TsunamiUdp.Library.Patches
import TsunamiUdp.Server.Heartbeat
import TsunamiUdp.Session.Saving
import TsunamiUdp.RtServer.Transmit
import TsunamiUdp.Client.Reached
import TsunamiUdp.RtServer.Serving
import TsunamiUdp.Session.Recording
import TsunamiUdp.Mk5Server.Handler
import TsunamiUdp.Mk5Server.Serving
import TsunamiUdp.Server.Throttle
import TsunamiUdp.Session.Download
import TsunamiUdp.RtClient.ReceivedMap
