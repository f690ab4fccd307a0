import Gaea.Sys.Awakener
import Gaea.Sys.EpollTable
import Gaea.Sys.KqueueKernel
import Gaea.Sys.Sockets

/-!
# Awakeners and signals

The constructors of awakeners and of signal handlers. Each opens a file and registers it with the
selector of the queue. Some hand the descriptor to a value that closes it before they go on, and
others only when everything has succeeded.
-/

namespace Gaea.Sys

variable {Q : Type}

/-! ## Signal sets -/

def sigaddsets : List Int32 → SysM Q Unit
  | [] => pure ()
  | signal :: signals => do
      call (.sigaddset signal)
      sigaddsets signals

def createSigset (signals : SignalSet) : SysM Q (List Int32) := do
  call .sigemptyset
  sigaddsets (signals.toList.map Signal.intoRaw)
  return signals.toList.map Signal.intoRaw

def blockSignals (set : List Int32) : SysM Q Unit := fun process =>
  match process.answers.errno .sigprocmask with
  | some errno => (.error ⟨errno⟩, process)
  | none =>
      (.ok (), { process with mask := fun signal => process.mask signal || set.contains signal })

/-! ## On epoll -/

instance : Epoll.Kernel (Process Epoll.Table) where
  epollWait epfd maxevents timeout process :=
    match process.queue epfd with
    | none => (⟨-1, [], ebadf⟩, process)
    | some table =>
        let waited := Epoll.Kernel.epollWait epfd maxevents timeout table
        (waited.1, process.setQueue epfd waited.2)
  epollCtl epfd op fd event process :=
    match process.answers.errno (.epollCtl epfd fd), process.queue epfd with
    | some errno, _ => ((-1, errno), process)
    | none, none => ((-1, ebadf), process)
    | none, some table =>
        let done := table.ctl op fd event
        (done.1, process.setQueue epfd done.2)

namespace Eventfd

structure Awakener where
  fd : RawFd
deriving DecidableEq

def eventfd : SysM Q RawFd := openFile none

def Awakener.new (selector : Epoll.Selector) (id : Id) : SysM Epoll.Table Awakener := do
  let fd ← eventfd
  Fallible.of (selector.register fd id Interests.readable RegisterOption.edge)
  return ⟨fd⟩

end Eventfd

namespace Signalfd

structure Signals where
  fd : RawFd
deriving DecidableEq

def signalfd (set : List Int32) : SysM Q RawFd := do
  let fd ← openFile none
  Fallible.of fun process => (.ok (), process.setSigset fd set)
  return fd

/-- The `signalfd` is registered, and only then are the signals blocked. -/
def Signals.new (selector : Epoll.Selector) (signals : SignalSet) (id : Id) :
    SysM Epoll.Table Signals := do
  let set ← createSigset signals
  let fd ← signalfd set
  Fallible.of (selector.register fd id Interests.readable RegisterOption.level)
  blockSignals set
  return ⟨fd⟩

end Signalfd

/-! ## On kqueue -/

namespace Kqueue

/-- What becomes of a kqueue when a descriptor is closed: its filters are gone. -/
def KernelQueue.forget (fd : RawFd) (kqueue : KernelQueue) : KernelQueue :=
  { kqueue with
    knotes := fun key =>
      if key ∈ descriptorKeys fd then none else kqueue.knotes key }

/-- A call that is interrupted has made its changes, and has done nothing if there are none. -/
instance : Kernel (Process KernelQueue) where
  timeBits := Kernel.timeBits KernelQueue
  longBits := Kernel.longBits KernelQueue
  kevent kq changes nevents timeout process :=
    match process.queue kq with
    | none => (⟨-1, [], ebadf⟩, process)
    | some kqueue =>
        let answer := Kernel.kevent kq changes nevents timeout kqueue
        match process.answers.errno (.kevent kq) with
        | none => (answer.1, process.setQueue kq answer.2)
        | some errno =>
            let made := errno = eintr && !changes.isEmpty
            (⟨-1, [], errno⟩, if made then process.setQueue kq answer.2 else process)

end Kqueue

open Kqueue

def close (fd : RawFd) (process : Process KernelQueue) : Process KernelQueue :=
  { process with
    files := Function.update process.files fd none
    files_lt := fun fd' file h => by
      by_cases heq : fd' = fd
      · rw [heq, Function.update_self] at h
        cases h
      · rw [Function.update_of_ne heq] at h
        exact process.files_lt fd' file h
    queues := fun file => (process.queues file).map (KernelQueue.forget fd) }

namespace Kqueue

def kqueue : SysM Q RawFd := fun process => openFile (some process.answers.newQueue) process

def Selector.new : SysM Q Selector := do
  let kq ← kqueue
  return ⟨kq⟩

def Selector.tryClone (selector : Selector) : SysM Q Selector := do
  let newKq ← dup selector.kq
  return ⟨newKq⟩

structure Awakener where
  selector : Selector
  id : Id
deriving DecidableEq

/-- The clone of the selector is dropped when it cannot be set up. -/
def Awakener.new (selector : Selector) (id : Id) : SysM KernelQueue Awakener := do
  let selector ← selector.tryClone
  (Fallible.of (selector.setupAwakener id)).cleaningUp (close selector.kq)
  return ⟨selector, id⟩

/-- Signals of a kqueue that is separate from the one of the queue. -/
structure Signals where
  kq : Selector
deriving DecidableEq

/-- The new kqueue is dropped when anything fails once it is there. -/
def Signals.new (selector : Selector) (signals : SignalSet) (id : Id) :
    SysM KernelQueue Signals := do
  let set ← createSigset signals
  let kq ← Selector.new
  (do
    Fallible.of (kq.registerSignals id signals)
    Fallible.of (selector.register kq.kq id Interests.readable RegisterOption.level)
    blockSignals set).cleaningUp (close kq.kq)
  return ⟨kq⟩

end Kqueue

namespace Pipe

structure Awakener where
  sender : RawFd
  receiver : RawFd
deriving DecidableEq

/-- Both ends are dropped when the receiver cannot be registered. -/
def Awakener.new (selector : Kqueue.Selector) (id : Id) : SysM KernelQueue Awakener := do
  let (sender, receiver) ← newPipe
  (Fallible.of (selector.register receiver.inner id Interests.readable
    RegisterOption.edge)).cleaningUp
      fun process => close sender.inner (close receiver.inner process)
  return ⟨sender.inner, receiver.inner⟩

end Pipe

end Gaea.Sys
