import Gaea.Event

/-!
# The user space queue

`Queue` keeps the events it is given, and a poll drains from the front as many as the sink has room
for.
-/

namespace Gaea

structure Queue where
  events : List Event
deriving DecidableEq, Repr

namespace Queue

def new : Queue := ⟨[]⟩

def add (queue : Queue) (event : Event) : Queue := ⟨queue.events ++ [event]⟩

def maxTimeout (queue : Queue) : Option Duration :=
  if queue.events.isEmpty then none else some Duration.zero

def drainLen {ES : Type} [Sink ES] (queue : Queue) (sink : ES) : Nat :=
  (Sink.capacityLeft sink).min queue.events.length

def poll {ES : Type} [Sink ES] (queue : Queue) (sink : ES) : Queue × ES :=
  (⟨queue.events.drop (queue.drainLen sink)⟩,
    Sink.extend sink (queue.events.take (queue.drainLen sink)))

instance {ES E W : Type} [Sink ES] : Source Queue ES E W where
  maxTimeout queue world := (queue.maxTimeout, world)
  poll queue sink world := ⟨(queue.poll sink).1, (queue.poll sink).2, world, .ok ()⟩

end Queue

end Gaea
