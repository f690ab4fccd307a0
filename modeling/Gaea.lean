import Gaea.Library.BinaryHeap
import Gaea.Library.Run
import Gaea.Library.Fallible
import Gaea.Library.Notifier
import Gaea.Library.Fifo
import Gaea.Library.Alone
import Gaea.Library.BitFlags
import Gaea.Library.Mailbox
import Gaea.Library.Traces
import Gaea.Library.Ledger
import Gaea.Library.Deliveries
import Gaea.Time
import Gaea.Event
import Gaea.UserSpace
import Gaea.Timers
import Gaea.Panics
import Gaea.Poll
import Gaea.Observe
import Gaea.Os
import Gaea.Registrations
import Gaea.Watches
import Gaea.Signals
import Gaea.Sys.Epoll
import Gaea.Sys.EpollTable
import Gaea.Sys.EpollInstance
import Gaea.Sys.Kqueue
import Gaea.Sys.KqueueKernel
import Gaea.Sys.KqueueChanges
import Gaea.Sys.ReadyList
import Gaea.Sys.Awakener
import Gaea.Sys.Process
import Gaea.Sys.Sockets
import Gaea.Sys.Constructors
import Gaea.Sys.Handles
import Gaea.Sys.Program
import Gaea.Sys.SignalDelivery
import Gaea.Sys.UserFilter
import Gaea.Proof.TimersSpec
import Gaea.Proof.PollExact
import Gaea.Proof.ExactlyOnce
import Gaea.Proof.WakeUps
import Gaea.Proof.EpollDeadline
import Gaea.Proof.EpollInterests
import Gaea.Proof.EpollDelivery
import Gaea.Proof.KqueueSpec
import Gaea.Proof.KqueueRun
import Gaea.Proof.KqueueRefinement
import Gaea.Proof.KqueueOneshot
import Gaea.Proof.Descriptors
import Gaea.Proof.Confined
import Gaea.Proof.AllOrNothing
import Gaea.Proof.Openings
import Gaea.Proof.Asking
import Gaea.Proof.Effects
import Gaea.Proof.ProgramSteps
import Gaea.Proof.Ownership
import Gaea.Proof.Isolation
import Gaea.Proof.TimersTimeout
import Gaea.Proof.InsertionOrder
import Gaea.Proof.NoPanic
import Gaea.Proof.PollTimeout
import Gaea.Proof.SelectTimeouts
import Gaea.Proof.KqueueDeadline
import Gaea.Proof.OsEvents
import Gaea.Proof.KqueueReceipts
import Gaea.Proof.HalfRegistered
import Gaea.Proof.WakeEnds
import Gaea.Proof.SignalSets
import Gaea.Proof.SignalDelivery
import Gaea.Proof.KqueueSignals
import Gaea.Proof.KqueueWakeUps
import Gaea.Proof.EpollWatches
import Gaea.Proof.KqueueWatches
import Gaea.Proof.Delivery
