import Gaea.Sys.Handles
import Gaea.Sys.SignalDelivery
import Gaea.Sys.UserFilter
import Mathlib.Data.Multiset.Bind

/-!
# A program and its handles

A program builds handles, registers them with its queues, polls these, wakes them, receives signals,
and drops the handles again, in any order, while the system answers as it likes. What is kept
besides the process is which handles are alive, and which descriptors belong to none of them.
-/

namespace Gaea.Sys

open Kqueue

inductive Handle where
  /-- A descriptor that the program has to close by itself. -/
  | raw (fd : RawFd)
  | stream (stream : TcpStream)
  | listener (listener : TcpListener)
  | socket (socket : UdpSocket)
  | sender (sender : Sender)
  | receiver (receiver : Receiver)
  | queue (queue : OsQueue Kqueue.Selector)
  | awakener (awakener : Kqueue.Awakener)
  | pipeAwakener (awakener : Pipe.Awakener)
  | signals (signals : Kqueue.Signals)
deriving DecidableEq

namespace Handle

instance : Owner Handle where
  fds
    | .raw fd => [fd]
    | .stream inner => [inner.stream]
    | .listener inner => [inner.listener]
    | .socket inner => [inner.socket]
    | .sender inner => [inner.inner]
    | .receiver inner => [inner.inner]
    | .queue inner => [inner.selector.kq]
    | .awakener inner => [inner.selector.kq]
    | .pipeAwakener inner => [inner.sender, inner.receiver]
    | .signals inner => [inner.kq.kq]

def drop (handle : Handle) (process : Process KernelQueue) : Process KernelQueue :=
  (Owner.fds handle).foldr close process

/-- The descriptor that a handle can be turned into. -/
def intoRawFd : Handle → Option RawFd
  | .stream inner => some inner.stream
  | .listener inner => some inner.listener
  | .socket inner => some inner.socket
  | .sender inner => some inner.inner
  | .receiver inner => some inner.inner
  | .raw _ | .queue _ | .awakener _ | .pipeAwakener _ | .signals _ => none

/-- The handles that a descriptor can be turned into. -/
def fromRawFd (fd : RawFd) : List Handle := [.stream ⟨fd⟩, .listener ⟨fd⟩, .socket ⟨fd⟩]

end Handle

/-! ## What is asked of a queue -/

inductive Action where
  | register (registration : Registration)
  | reregister (registration : Registration)
  | deregister
deriving DecidableEq

def Action.perform {H Selector W : Type} [Evented H Selector W] (action : Action)
    (osQueue : OsQueue Selector) (handle : H) (world : W) : Option (Except IoError Unit × W) :=
  match action with
  | .register ⟨id, interests, opt⟩ => osQueue.register handle id interests opt world
  | .reregister ⟨id, interests, opt⟩ => osQueue.reregister handle id interests opt world
  | .deregister => osQueue.deregister handle world

/-- A descriptor is registered by way of `EventedFd`. Queues, awakeners and signals cannot be
registered. -/
def Handle.perform (handle : Handle) (osQueue : OsQueue Kqueue.Selector) (action : Action)
    (process : Process KernelQueue) : Option (Except IoError Unit × Process KernelQueue) :=
  match handle with
  | .raw fd => action.perform osQueue (EventedFd.mk fd) process
  | .stream inner => action.perform osQueue inner process
  | .listener inner => action.perform osQueue inner process
  | .socket inner => action.perform osQueue inner process
  | .sender inner => action.perform osQueue inner process
  | .receiver inner => action.perform osQueue inner process
  | .queue _ | .awakener _ | .pipeAwakener _ | .signals _ => none

/-! ## Constructors -/

inductive Constructor where
  /-- The program opens a descriptor without the help of a handle. -/
  | raw
  | connect (address : SocketAddr)
  | bind (address : SocketAddr)
  | tryClone (listener : TcpListener)
  | accept (listener : TcpListener) (peer : SocketAddr)
  | bindUdp (address : SocketAddr)
  | newPipe
  | newQueue
  | newAwakener (osQueue : OsQueue Kqueue.Selector) (id : Id)
  | cloneAwakener (awakener : Kqueue.Awakener)
  | newPipeAwakener (osQueue : OsQueue Kqueue.Selector) (id : Id)
  | clonePipeAwakener (awakener : Pipe.Awakener)
  | newSignals (osQueue : OsQueue Kqueue.Selector) (signals : SignalSet) (id : Id)
deriving DecidableEq

namespace Constructor

/-- The handle that a constructor borrows. -/
def borrowed : Constructor → Option Handle
  | .tryClone listener | .accept listener _ => some (.listener listener)
  | .newAwakener osQueue _ | .newPipeAwakener osQueue _ | .newSignals osQueue _ _ =>
      some (.queue osQueue)
  | .cloneAwakener awakener => some (.awakener awakener)
  | .clonePipeAwakener awakener => some (.pipeAwakener awakener)
  | .raw | .connect _ | .bind _ | .bindUdp _ | .newPipe | .newQueue => none

def run : Constructor → SysM KernelQueue (List Handle)
  | .raw => do return [.raw (← openFile none)]
  | .connect address => do return [.stream (← TcpStream.connect address)]
  | .bind address => do return [.listener (← TcpListener.bind address)]
  | .tryClone listener => do return [.listener (← listener.tryClone)]
  | .accept listener peer => do return [.stream (← listener.accept peer).1]
  | .bindUdp address => do return [.socket (← UdpSocket.bind address)]
  | .newPipe => do
      let (sender, receiver) ← Sys.newPipe
      return [.sender sender, .receiver receiver]
  | .newQueue => do return [.queue (← OsQueue.new)]
  | .newAwakener osQueue id => do
      return [.awakener (← Kqueue.Awakener.new osQueue.selector id)]
  | .cloneAwakener awakener => do return [.awakener (← awakener.tryClone)]
  | .newPipeAwakener osQueue id => do
      return [.pipeAwakener (← Pipe.Awakener.new osQueue.selector id)]
  | .clonePipeAwakener awakener => do return [.pipeAwakener (← awakener.tryClone)]
  | .newSignals osQueue signals id => do
      return [.signals (← Kqueue.Signals.new osQueue.selector signals id)]

end Constructor

/-! ## Runs -/

structure Program where
  process : Process KernelQueue
  live : Multiset Handle
  /-- The open descriptors that are no handle's. -/
  stray : Set RawFd

namespace Program

/-- A program that has not built any handles. -/
def start (process : Process KernelQueue) : Program := ⟨process, 0, process.opened⟩

def owned (program : Program) : Multiset RawFd := program.live.bind fun handle => Owner.fds handle

end Program

inductive Occurrence where
  | built (constructor : Constructor) (handles : List Handle)
  | failed (constructor : Constructor) (lost : Set RawFd)
  | performed (handle : Handle) (osQueue : OsQueue Kqueue.Selector) (action : Action)
  | dropped (handle : Handle)
  | turned (before after : Handle)
  | polled (osQueue : OsQueue Kqueue.Selector)
  | woken (awakener : Kqueue.Awakener)
  | received (signals : Kqueue.Signals)
  | system

/-- What the system does by itself: filters may go, and it may change its mind about how to answer.
A new kqueue has no filters. -/
structure SystemMove (process after : Process KernelQueue) : Prop where
  files_eq : after.files = process.files
  nextFile_eq : after.nextFile = process.nextFile
  queues_rel : ∀ file, Option.Rel
    (fun kqueue later : KernelQueue => ∀ key,
      later.knotes key = kqueue.knotes key ∨ later.knotes key = none)
    (process.queues file) (after.queues file)
  newQueue_eq : ∀ key, after.answers.newQueue.knotes key = none

inductive Step : Program → Occurrence → Program → Prop where
  | build {process after live stray} {constructor : Constructor} {handles : List Handle}
      (hborrowed : ∀ handle ∈ constructor.borrowed, handle ∈ live)
      (hrun : constructor.run process = (.ok handles, after)) :
      Step ⟨process, live, stray⟩ (.built constructor handles) ⟨after, live + handles, stray⟩
  | fail {process after live stray} {constructor : Constructor} {err : IoError}
      (hborrowed : ∀ handle ∈ constructor.borrowed, handle ∈ live)
      (hrun : constructor.run process = (.error err, after)) :
      Step ⟨process, live, stray⟩ (.failed constructor (after.opened \ process.opened))
        ⟨after, live, stray ∪ (after.opened \ process.opened)⟩
  | perform {process after live stray} {handle : Handle} {osQueue : OsQueue Kqueue.Selector}
      {action : Action} {answer : Except IoError Unit} (hlive : handle ∈ live)
      (hqueue : .queue osQueue ∈ live)
      (hrun : handle.perform osQueue action process = some (answer, after)) :
      Step ⟨process, live, stray⟩ (.performed handle osQueue action) ⟨after, live, stray⟩
  | drop {process live stray} (handle : Handle) :
      Step ⟨process, handle ::ₘ live, stray⟩ (.dropped handle) ⟨handle.drop process, live, stray⟩
  | intoRawFd {process live stray} {handle : Handle} {fd : RawFd}
      (hfd : handle.intoRawFd = some fd) :
      Step ⟨process, handle ::ₘ live, stray⟩ (.turned handle (.raw fd))
        ⟨process, .raw fd ::ₘ live, stray⟩
  | fromRawFd {process live stray} {handle : Handle} {fd : RawFd}
      (hhandle : handle ∈ Handle.fromRawFd fd) :
      Step ⟨process, .raw fd ::ₘ live, stray⟩ (.turned (.raw fd) handle)
        ⟨process, handle ::ₘ live, stray⟩
  | poll {process live stray} {osQueue : OsQueue Kqueue.Selector} {ES : Type} [Sink ES]
      (sink : ES) (timeout : Option Duration) (hqueue : .queue osQueue ∈ live) :
      Step ⟨process, live, stray⟩ (.polled osQueue)
        ⟨(osQueue.blockingPoll sink timeout process : Polled _ ES IoError _).world, live, stray⟩
  | wake {process after live stray} {awakener : Kqueue.Awakener} {answer : Except IoError Unit}
      (hlive : .awakener awakener ∈ live) (hrun : awakener.wake process = (answer, after)) :
      Step ⟨process, live, stray⟩ (.woken awakener) ⟨after, live, stray⟩
  | receive {process after live stray} {signals : Kqueue.Signals} {received : Received IoError}
      (hlive : .signals signals ∈ live) (hrun : signals.receive process = (received, after)) :
      Step ⟨process, live, stray⟩ (.received signals) ⟨after, live, stray⟩
  | system {process after live stray} (hmove : SystemMove process after) :
      Step ⟨process, live, stray⟩ .system ⟨after, live, stray⟩

end Gaea.Sys
