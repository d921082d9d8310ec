import Jasl.Common.BitCalls
import Jasl.Common.BitCopies
import Jasl.Common.BitHistory
import Jasl.Common.BitMemory
import Jasl.Common.BitSet
import Jasl.Common.BitText
import Jasl.Common.BufferErrors
import Jasl.Common.CircularBuffer
import Jasl.Common.Extraction
import Jasl.Common.FileDescriptor
import Jasl.Common.IpAddr
import Jasl.Common.SubString
import Jasl.Common.Url
import Jasl.Common.UrlAhead
import Jasl.Common.UrlBounds
import Jasl.Common.UrlCovers
import Jasl.Common.UrlForgets
import Jasl.Common.UrlParts
import Jasl.Common.UrlReuse
import Jasl.Common.UrlRounds
import Jasl.Common.UrlScan
import Jasl.Common.UrlSentinel
import Jasl.Common.UrlTrace
import Jasl.Library.Cells
import Jasl.Library.Chain
import Jasl.Library.DecimalText
import Jasl.Library.Effects
import Jasl.Library.Executions
import Jasl.Library.KeyedSet
import Jasl.Library.LockGraph
import Jasl.Library.Lockstep
import Jasl.Library.Loop
import Jasl.Library.OrderedMultimap
import Jasl.Library.Outcomes
import Jasl.Library.Owners
import Jasl.Library.PackedBits
import Jasl.Library.PowersOfTwo
import Jasl.Library.Reclaim
import Jasl.Library.RingSlots
import Jasl.Library.Rotation
import Jasl.Library.Runs
import Jasl.Library.SharedPointers
import Jasl.Library.TextSearch
import Jasl.Library.TimerMap
import Jasl.Library.Traced
import Jasl.Library.Transfers
import Jasl.Library.Words
import Jasl.Memory.BitStaff
import Jasl.Memory.BlockingQueue
import Jasl.Memory.Chunker
import Jasl.Memory.MpscQueue
import Jasl.Memory.Pool
import Jasl.Memory.PoolObjects
import Jasl.Memory.SharedQueue
import Jasl.Memory.SpscQueue
import Jasl.Poller.BatchOrder
import Jasl.Poller.DeadlineWraps
import Jasl.Poller.Deadlines
import Jasl.Poller.Hangups
import Jasl.Poller.HeldSockets
import Jasl.Poller.KernelAgreement
import Jasl.Poller.Ledger
import Jasl.Poller.Merging
import Jasl.Poller.Pending
import Jasl.Poller.PollPhases
import Jasl.Poller.Poller
import Jasl.Poller.PollerSteps
import Jasl.Poller.Registration
import Jasl.Poller.RemovedSockets
import Jasl.Poller.Scheduler
import Jasl.Poller.SchedulerDrain
import Jasl.Poller.SchedulerPass
import Jasl.Poller.SchedulerRefinement
import Jasl.Poller.Signals
import Jasl.Poller.SocketContext
import Jasl.Poller.StaleReadiness
import Jasl.Poller.StepChanges
import Jasl.Poller.TimeoutsSound
import Jasl.Poller.TimersAgree
import Jasl.Poller.TimersKept
import Jasl.Poller.Untimed
import Jasl.Poller.WaitTimeout
import Jasl.Poller.WakeUp
import Jasl.Poller.WellFormedEvents
import Jasl.Reactor.AfterClose
import Jasl.Reactor.Attachment
import Jasl.Reactor.CloseEvents
import Jasl.Reactor.Closing
import Jasl.Reactor.Closings
import Jasl.Reactor.Dispatch
import Jasl.Reactor.Drain
import Jasl.Reactor.IdleSockets
import Jasl.Reactor.LastingTimers
import Jasl.Reactor.LockOrder
import Jasl.Reactor.Reactor
import Jasl.Reactor.ReactorInThread
import Jasl.Reactor.SharedSockets
import Jasl.Reactor.Stopping
import Jasl.Reactor.World
import Jasl.Reactor.WorldSteps
import Jasl.Socket.Socket
import Jasl.Socket.TcpClient
import Jasl.Socket.TcpServer
import Jasl.Thread.AddTask
import Jasl.Thread.Joining
import Jasl.Thread.Progress
import Jasl.Thread.Shutdown
import Jasl.Thread.SinglePusher
import Jasl.Thread.TaskLedger
import Jasl.Thread.TasksOnce
import Jasl.Thread.ThreadPool
import Jasl.Thread.Turns
import Jasl.Thread.Worker
