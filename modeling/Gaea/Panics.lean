import Gaea.Timers
import Gaea.UserSpace

/-!
# The operations that may panic

`Timers` and `Queue` once more, with every call of the standard library that panics on some
arguments, and with the assertion of `remove_deadline`. What runs on after a panic is not modelled:
a panic ends the operation.
-/

namespace Gaea.Panicking

open Collections

inductive Panic where
  | overflow
  | laterInstant
  | unwrapNone
  | outOfRange
  | assertion
deriving DecidableEq, Repr

/-! ## The standard library -/

def addInstant (t : Instant) (d : Duration) : Except Panic Instant :=
  match t.add d with
  | some sum => .ok sum
  | none => .error .overflow

def durationSince (t earlier : Instant) : Except Panic Duration :=
  if h : earlier ≤ t then .ok (t.durationSince earlier h) else .error .laterInstant

def unwrap {α : Type} : Option α → Except Panic α
  | some a => .ok a
  | none => .error .unwrapNone

def swapRemove {α : Type} (data : Array α) (index : Nat) : Except Panic (α × Array α) :=
  if h : index < data.size then .ok (data[index], Collections.swapRemove data index h)
  else .error .outOfRange

/-- `Vec::drain(..n)`: the events drained and those that are left. -/
def drain {α : Type} (items : List α) (n : Nat) : Except Panic (List α × List α) :=
  if n ≤ items.length then .ok (items.take n, items.drop n) else .error .outOfRange

def debugAssert (holds : Bool) : Except Panic Unit :=
  if holds then .ok () else .error .assertion

/-! ## Timers -/

def addTimeout (timers : Timers) (id : Id) (timeout : Duration) (now : Instant) :
    Except Panic Timers := do
  let deadline ← addInstant now timeout
  return timers.addDeadline id deadline

def removeDeadline (timers : Timers) (id : Id) : Except Panic Timers :=
  let index := timers.deadlines.intoVec.findIdx? fun deadline =>
    (OrderDual.ofDual deadline).id == id
  match index with
  | some index => do
      let (removed, deadlines) ← swapRemove timers.deadlines.intoVec index
      debugAssert ((OrderDual.ofDual removed).id == id)
      return ⟨BinaryHeap.ofVec deadlines⟩
  | none => return timers

def maxTimeout {W : Type} [Clock W] (timers : Timers) (world : W) :
    Except Panic (Option Duration × W) :=
  match timers.peek with
  | some deadline =>
      let (now, world) := Clock.now world
      if deadline.deadline ≤ now then return (some Duration.zero, world)
      else do
        let timeout ← durationSince deadline.deadline now
        return (some timeout, world)
  | none => return (none, world)

def pollLoop {ES : Type} [Sink ES] (now : Instant) :
    Nat → Timers → ES → Except Panic (Timers × ES)
  | 0, timers, sink => return (timers, sink)
  | rounds + 1, timers, sink =>
      match timers.peek with
      | some deadline =>
          if deadline.deadline ≤ now then do
            let (deadline, rest) ← unwrap timers.pop
            pollLoop now rounds rest (Sink.add sink deadline.toEvent)
          else return (timers, sink)
      | none => return (timers, sink)

def pollTimers {ES : Type} [Sink ES] (now : Instant) (timers : Timers) (sink : ES) :
    Except Panic (Timers × ES) :=
  pollLoop now ((Sink.capacityLeft sink).min timers.deadlines.len) timers sink

/-! ## Queue -/

def pollQueue {ES : Type} [Sink ES] (queue : Queue) (sink : ES) : Except Panic (Queue × ES) := do
  let (drained, left) ← drain queue.events (queue.drainLen sink)
  return (⟨left⟩, Sink.extend sink drained)

/-! ## Programs -/

structure State where
  queue : Queue
  timers : Timers

def State.new : State := ⟨Queue.new, Timers.new⟩

/-- The public operations, each with its arguments and the readings of the clock. -/
inductive Op : Type 1 where
  | add (event : Event)
  | queueMaxTimeout
  | pollQueue {ES : Type} [Sink ES] (sink : ES)
  | addDeadline (id : Id) (deadline : Instant)
  | addTimeout (id : Id) (timeout : Duration) (now : Instant)
  | removeDeadline (id : Id)
  | timersMaxTimeout {W : Type} [Clock W] (world : W)
  | pollTimers {ES : Type} [Sink ES] (sink : ES) (now : Instant)

def perform (s : State) : Op → Except Panic State
  | .add event => return { s with queue := s.queue.add event }
  -- `Queue::max_timeout` makes no call that panics
  | .queueMaxTimeout => return s
  | @Op.pollQueue _ _ sink => do
      let (queue, _) ← pollQueue s.queue sink
      return { s with queue }
  | .addDeadline id deadline => return { s with timers := s.timers.addDeadline id deadline }
  | .addTimeout id timeout now => do
      let timers ← addTimeout s.timers id timeout now
      return { s with timers }
  | .removeDeadline id => do
      let timers ← removeDeadline s.timers id
      return { s with timers }
  | @Op.timersMaxTimeout _ _ world => do
      let _ ← maxTimeout s.timers world
      return s
  | @Op.pollTimers _ _ sink now => do
      let (timers, _) ← pollTimers now s.timers sink
      return { s with timers }

def run (s : State) (ops : List Op) : Except Panic State := ops.foldlM perform s

end Gaea.Panicking
