import Gaea.Sys.Constructors
import Gaea.Sys.EpollInstance

/-!
# Receiving signals

A signal that is blocked stays pending in the process, once for each kind, and one that is not
blocked acts on the process. A `signalfd` takes pending signals of its set off the process. A kqueue
has a filter for each signal, which fires when the signal is raised, blocked or not, and which is
reset when its event is delivered.

In `receive` the loop of the `signalfd` handler goes from one read to the next, and signals may be
raised between the two.

A poll of the queue finds a handler in what the kernel has to deliver, according to how the handler
is registered with the queue: as long as it is readable if this is level-triggered, and at an edge
only if it is edge-triggered.
-/

namespace Gaea.Sys

/-- What the kernel keeps of the signals of a process. -/
structure SignalState where
  mask : Int32 → Bool
  pending : Int32 → Bool
  /-- The signals that were not blocked when they were raised. -/
  acted : List Int32

def SignalState.new (mask : Int32 → Bool) : SignalState := ⟨mask, fun _ => false, []⟩

def SignalState.raise (state : SignalState) (rawSignal : Int32) : SignalState :=
  if state.mask rawSignal then
    { state with pending := Function.update state.pending rawSignal true }
  else { state with acted := state.acted ++ [rawSignal] }

def SignalState.dequeue (state : SignalState) (rawSignal : Int32) : SignalState :=
  { state with pending := Function.update state.pending rawSignal false }

/-- How a call of `receive` ends: an assertion fails, or it returns. -/
inductive Received (Error : Type) where
  | panicked
  | returned (result : Except Error (Option Signal))
deriving DecidableEq

/-- What the kernel has to deliver in a poll before and after the event of a handler, and whether
there has been an edge of the handler. -/
structure Scan (Entry : Type) where
  ahead : List Entry
  behind : List Entry
  edge : Bool

def Scan.ready {Entry : Type} (scan : Scan Entry) (own : Entry) (triggers : Bool) : List Entry :=
  scan.ahead ++ (if triggers then [own] else []) ++ scan.behind

/-- There is room for more than what comes before the handler. -/
def Scan.reaches {Entry : Type} (scan : Scan Entry) (capacity : Capacity) : Bool :=
  scan.ahead.length < capacity.min eventsCap

/-! ## On signalfd -/

namespace Signalfd

/-- The size of `signalfd_siginfo`. -/
def siginfoLen : Nat := 128

/-- What a read gives: the number of bytes, and the `ssi_signo` of the buffer. -/
abbrev ReadAnswer := Except ErrorKind (Nat × UInt32)

/-- What `receive` does with the result of a read, `none` where it goes on to read again. -/
def Signals.receive : ReadAnswer → Option (Received ErrorKind)
  | .ok (n, ssiSigno) =>
      if n = siginfoLen then some (.returned (.ok (Signal.fromRaw ssiSigno.toInt32)))
      else some .panicked
  | .error .wouldBlock => some (.returned (.ok none))
  | .error .interrupted => none
  | .error err => some (.returned (.error err))

/-- A read of a `signalfd` for a set of signals: the answer, and the signals that are then left. -/
inductive Read (set : List Int32) : SignalState → ReadAnswer → SignalState → Prop where
  | ready (state : SignalState) (rawSignal : Int32) (hmem : rawSignal ∈ set)
      (hpending : state.pending rawSignal = true) :
      Read set state (.ok (siginfoLen, rawSignal.toUInt32)) (state.dequeue rawSignal)
  | wouldBlock (state : SignalState)
      (hnone : ∀ rawSignal ∈ set, state.pending rawSignal = false) :
      Read set state (.error .wouldBlock) state
  | error (state : SignalState) (err : ErrorKind) (hblock : err ≠ .wouldBlock) :
      Read set state (.error err) state

def readable (set : List Int32) (state : SignalState) : Bool := set.any state.pending

/-- The signals of the process, the set of a `signalfd`, and the epoll instance of the queue. -/
structure World where
  signals : SignalState
  set : List Int32
  queue : Epoll.Instance

namespace World

def triggers (s : World) (fd : RawFd) (edge : Bool) : Bool :=
  (s.queue.table.entries fd).any fun given =>
    readable s.set s.signals && (edge || !Epoll.containsFlag given.events Epoll.epollEt)

/-- The epoll instance as a poll finds it. -/
def scanned (s : World) (fd : RawFd) (scan : Scan (RawFd × UInt32)) : Epoll.Instance :=
  { s.queue with ready := scan.ready (fd, Epoll.epollIn) (s.triggers fd scan.edge) }

end World

end Signalfd

/-! ## On kqueue -/

namespace Kqueue

/-- A call of `receive`, with a timeout of zero. -/
def Signals.receive {W : Type} [Kernel W] (signals : Signals) (world : W) :
    Received IoError × W :=
  let answer := Kernel.kevent signals.kq.kq [] 1 (some ⟨0, 0⟩) world
  let nEvents := answer.1.ret
  if nEvents = -1 then (.returned (.error ⟨answer.1.errno⟩), answer.2)
  else if nEvents = 0 then (.returned (.ok none), answer.2)
  else if nEvents = 1 then
    match answer.1.written with
    | kevent :: _ =>
        if kevent.filter = .signal then
          (.returned (.ok (Signal.fromRaw kevent.ident.toUInt32.toInt32)), answer.2)
        else (.panicked, answer.2)
    -- never taken: the call has written as many entries as it returns
    | [] => (.panicked, answer.2)
  else (.panicked, answer.2)

def signalKey (rawSignal : Int32) : Key := (identOf rawSignal, .signal)

/-- What a raised signal does to a kqueue: its filter is going to fire, once if it already was. -/
def KernelQueue.raise (kqueue : KernelQueue) (rawSignal : Int32) : KernelQueue :=
  if (kqueue.knotes (signalKey rawSignal)).isSome
      && !kqueue.active.contains (signalKey rawSignal) then
    { kqueue with active := kqueue.active ++ [signalKey rawSignal] }
  else kqueue

def KernelQueue.readable (kqueue : KernelQueue) : Bool := !kqueue.active.isEmpty

/-- The signals of the process, the kqueue of a handler, and the one of the queue. -/
structure World where
  signals : SignalState
  kqueue : KernelQueue
  queue : KernelQueue

/-- The filter under which a kqueue is registered with another one. -/
def kqueueKey (kq : RawFd) : Key := (identOf kq, .read)

namespace World

def triggers (s : World) (kq : RawFd) (edge : Bool) : Bool :=
  (s.queue.knotes (kqueueKey kq)).any fun knote =>
    s.kqueue.readable && (edge || !containsFlag knote.flags evClear)

/-- The kqueue of the queue as a poll finds it. -/
def scanned (s : World) (kq : RawFd) (scan : Scan Key) : KernelQueue :=
  { s.queue with active := scan.ready (kqueueKey kq) (s.triggers kq scan.edge) }

end World

end Kqueue

end Gaea.Sys
